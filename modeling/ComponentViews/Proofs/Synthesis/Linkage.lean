import ComponentViews.Proofs.Distinct
import ComponentViews.Proofs.Rules.Home

/-!
# Homes link against the factory implementation

The wrapper of a home calls the factory implementation by a name, parameters and a result. The two
classes are made apart, for the other home even from another request, and the factory
implementation has one method for all operations that come to the same name and parameters. All
the same, what is called is declared as it is called (`HomeContext.declares_directCall`):

* within one home, operations that share a method have one name, and so by hypothesis one result;
* between the homes, they do the home's own business, and the rules ask of both that they have the
  result of the one bean method behind them (`Request.exists_bound_of_checkRules`).

The operations of a home can have any name. One by the name of constructors shares the place of
the constructor, and then the class declares a method twice
(`HomeContext.not_nodup_methods`).
-/

namespace ComponentViews

/-- The class declares the method that a call names. -/
def Blueprint.Declares (b : Blueprint) (callee : Callee) : Prop :=
  callee.owner = b.name ∧
    ∃ m ∈ b.methods, m.name = callee.name ∧ m.params = callee.params ∧ m.result = callee.result

/-- The expression is a call of a method that the class declares. -/
def Blueprint.DeclaresCalled (b : Blueprint) : Expr → Prop
  | .call callee _ _ => b.Declares callee
  | _ => False

/-! ### Names -/

theorem Text.startsWith_iff {start text : String} :
    startsWith start text = true ↔ start.toList <+: text.toList := by
  rw [startsWith, dropStart?, Option.isSome_map, Option.isSome_iff_exists]
  simp only [afterStart?_eq_some_iff, List.IsPrefix, @eq_comm _ text.toList]

theorem HomeOperation.ofName_eq_business {name : String} :
    ofName name = .business ↔
      Text.startsWith "create" name = false ∧ Text.startsWith "find" name = false := by
  rw [ofName]
  split
  · rename_i hname
    rw [hname]
    decide
  split
  · simp_all
  split <;> simp_all

/-- What is put behind a name has no say in whether it creates, finds or does neither. -/
theorem HomeOperation.ofName_append {name ending : String}
    (h : ofName (name ++ ending) = .business) : ofName name = .business := by
  rw [ofName_eq_business] at h ⊢
  simp only [Bool.eq_false_iff, ne_eq, Text.startsWith_iff, String.toList_append] at h ⊢
  exact ⟨fun hcreate => h.1 (hcreate.trans (List.prefix_append _ _)),
    fun hfind => h.2 (hfind.trans (List.prefix_append _ _))⟩

theorem ViewKind.factoryTarget_factoryRemote (name : String) :
    factoryTarget .factoryRemote name = name := rfl

theorem ViewKind.factoryTarget_factoryLocal (name : String) :
    factoryTarget .factoryLocal name =
      if HomeOperation.ofName name = .business then name else name ++ Known.localSuffix := by
  rw [factoryTarget]
  by_cases hbusiness : HomeOperation.ofName name = .business
  · have hnone := HomeOperation.ofName_eq_business.1 hbusiness
    simp [hbusiness, hnone]
  · have hsome := mt HomeOperation.ofName_eq_business.2 hbusiness
    rw [not_and_or, Bool.not_eq_false, Bool.not_eq_false] at hsome
    simp [hbusiness, hsome]

/-- The kind of view that a home is. -/
def ViewKind.ofHome (isLocal : Bool) : ViewKind := if isLocal then factoryLocal else factoryRemote

/-- The operations of one home go to methods with names of their own. -/
theorem ViewKind.factoryTarget_injective {isLocal : Bool} {a b : String}
    (h : (ofHome isLocal).factoryTarget a = (ofHome isLocal).factoryTarget b) : a = b := by
  cases isLocal with
  | false => exact h
  | true =>
    simp only [ofHome, if_pos, factoryTarget_factoryLocal] at h
    split at h
    · rename_i ha
      split at h
      · exact h
      · rename_i hb
        exact absurd (HomeOperation.ofName_append (h ▸ ha)) hb
    · rename_i ha
      split at h
      · rename_i hb
        exact absurd (HomeOperation.ofName_append (h ▸ hb)) ha
      · rw [← String.toList_inj, String.toList_append, String.toList_append] at h
        exact String.toList_inj.1 (List.append_cancel_right h)

/-- Operations of both homes that go to one method do the home's own business, unless the remote
    one ends like the names that are made for the local one. -/
theorem ViewKind.factoryTarget_factoryLocal_eq {a b : String}
    (h : factoryTarget .factoryLocal a = factoryTarget .factoryRemote b)
    (hb : HomeOperation.ofName b ≠ .business → ¬ Known.localSuffix.toList <:+ b.toList) :
    a = b ∧ HomeOperation.ofName a = .business := by
  rw [factoryTarget_factoryLocal, factoryTarget_factoryRemote] at h
  split at h
  · rename_i ha
    exact ⟨h, ha⟩
  · rename_i ha
    refine absurd ?_ (hb fun hbusiness => ha (HomeOperation.ofName_append (h ▸ hbusiness)))
    rw [← h, String.toList_append]
    exact List.suffix_append _ _

/-! ### Operations of homes -/

namespace Request

variable {r : Request} {h : Hierarchy}

/-- The operations of homes can be told apart. -/
structure TellsHomesApart (r : Request) : Prop where
  /-- Nothing in the name of a class ends a part of a descriptor. Dotted identifiers are such
      names. -/
  params : ∀ home ∈ r.homes, ∀ op ∈ home.2.ownedMethods, ∀ ty ∈ op.params,
    Text.Lacks [';', '/', '('] ty.name
  /-- What one home declares with the same name and parameters has the same result. -/
  results : ∀ home ∈ r.homes, ∀ op ∈ home.2.ownedMethods, ∀ other ∈ home.2.ownedMethods,
    op.name = other.name → op.params = other.params → op.result = other.result
  /-- What the remote home creates or finds with is not named like that of the local home. -/
  endings : ∀ home ∈ r.homes, home.1 = false → ∀ op ∈ home.2.ownedMethods,
    HomeOperation.ofName op.name ≠ .business → ¬ Known.localSuffix.toList <:+ op.name.toList

instance (r : Request) : Decidable r.TellsHomesApart :=
  decidable_of_iff (_ ∧ _ ∧ _) ⟨fun h => ⟨h.1, h.2.1, h.2.2⟩, fun h => ⟨h.1, h.2, h.3⟩⟩

/-- A component has one home of either kind at most. -/
theorem home_unique (hfactory : r.kind.isFactory = true) (hrules : checkRules h r = .ok ())
    {home other : Bool × Interface} (hhome : home ∈ r.homes) (hother : other ∈ r.homes)
    (hkind : home.1 = other.1) : home = other := by
  have hsingle : r.kind.supportsAggregate = false ∧ r.kind.isNoInterface = false := by
    cases hk : r.kind <;> rw [hk] at hfactory <;> first | exact ⟨rfl, rfl⟩ | cases hfactory
  rw [checkRules, Except.bind_unit_eq_ok] at hrules
  obtain ⟨i, hi⟩ := single_of_checkInterfaces hsingle hrules.1
  rw [homes, hi] at hhome hother
  cases hcompanion : r.companion? with
  | none =>
    simp only [hcompanion, Option.toList_none, List.map_nil, List.append_nil, List.map_cons,
      List.mem_singleton] at hhome hother
    rw [hhome, hother]
  | some j =>
    simp only [hcompanion, Option.toList_some, List.map_cons, List.map_nil, List.cons_append,
      List.nil_append, List.mem_cons, List.not_mem_nil, or_false] at hhome hother
    -- The two homes are of different kinds.
    rcases hhome with rfl | rfl <;> rcases hother with rfl | rfl
    · rfl
    · exact absurd hkind (by simp)
    · exact absurd hkind (by simp)
    · rfl

/-- Operations of homes that go to one method have one result. -/
theorem result_eq_of_target_eq (hfactory : r.kind.isFactory = true)
    (hrules : checkRules h r = .ok ()) (hr : r.TellsHomesApart) {home other : Bool × Interface}
    (hhome : home ∈ r.homes) (hother : other ∈ r.homes) {op op' : Operation}
    (hop : op ∈ home.2.ownedMethods) (hop' : op' ∈ other.2.ownedMethods)
    (hname : (ViewKind.ofHome home.1).factoryTarget op.name =
      (ViewKind.ofHome other.1).factoryTarget op'.name)
    (hparams : op.params = op'.params) : op.result = op'.result := by
  -- Both do the business of the one bean method that has the name and the parameters.
  have hshared : op.name = op'.name → HomeOperation.ofName op.name = .business →
      op.result = op'.result := by
    intro hsame hbusiness
    obtain ⟨bound, hfind, hresult⟩ :=
      exists_bound_of_checkRules hfactory hrules home hhome op hop hbusiness
    obtain ⟨bound', hfind', hresult'⟩ :=
      exists_bound_of_checkRules hfactory hrules other hother op' hop' (hsame ▸ hbusiness)
    rw [hsame, hparams, hfind', Option.some.injEq] at hfind
    rw [← hresult, ← hresult', hfind]
  by_cases hkind : home.1 = other.1
  · obtain rfl := home_unique hfactory hrules hhome hother hkind
    exact hr.results home hhome op hop op' hop' (ViewKind.factoryTarget_injective hname) hparams
  · cases hlocal : home.1 with
    | true =>
      have hremote : other.1 = false := by simpa [hlocal] using Ne.symm hkind
      rw [hlocal, hremote] at hname
      obtain ⟨hsame, hbusiness⟩ := ViewKind.factoryTarget_factoryLocal_eq hname
        (hr.endings other hother hremote op' hop')
      exact hshared hsame hbusiness
    | false =>
      have hremote : other.1 = true := by simpa [hlocal] using Ne.symm hkind
      rw [hlocal, hremote] at hname
      obtain ⟨hsame, hbusiness⟩ := ViewKind.factoryTarget_factoryLocal_eq hname.symm
        (hr.endings home hhome hlocal op hop)
      exact hshared hsame.symm (hsame ▸ hbusiness)

/-- An operation that has been looked at shares the method of one with its key. -/
theorem exists_key_of_mem {all : List HomeMethod} {found : List HomeMethod × List String}
    {m : HomeMethod} (hm : m ∈ found.1 ∨ m ∈ all) :
    ∃ first ∈ (all.foldl HomeMethod.add found).1, first.key = m.key := by
  induction all generalizing found m with
  | nil => exact ⟨m, hm.resolve_right List.not_mem_nil, rfl⟩
  | cons next rest ih =>
    obtain ⟨first, hfirst, hkey⟩ : ∃ first, (first ∈ (HomeMethod.add found next).1 ∨ first ∈ rest) ∧
        first.key = m.key := by
      obtain ⟨ms, warnings⟩ := found
      rw [List.mem_cons] at hm
      simp only [HomeMethod.add]
      split
      · exact ⟨m, by simpa [or_assoc] using hm, rfl⟩
      · rename_i first hfirst
        rcases hm with hm | rfl | hm
        · exact ⟨m, .inl hm, rfl⟩
        · have hsame := List.find?_some hfirst
          exact ⟨first, .inl (List.mem_of_find?_eq_some hfirst), beq_iff_eq.1 hsame⟩
        · exact ⟨m, .inr hm, rfl⟩
    obtain ⟨kept, hkept, hsame⟩ := ih hfirst
    exact ⟨kept, hkept, hsame.trans hkey⟩

end Request

namespace HomeContext

variable {c : HomeContext} {h : Hierarchy}

/-- The method for an operation of a home has its name, its parameters and its result. -/
theorem exists_method (hfactory : c.request.kind.isFactory = true)
    (hrules : Request.checkRules h c.request = .ok ()) (hr : c.request.TellsHomesApart)
    {home : Bool × Interface} (hhome : home ∈ c.request.homes) {op : Operation}
    (hop : op ∈ home.2.ownedMethods) :
    ∃ m ∈ c.blueprint.methods, m.name = (ViewKind.ofHome home.1).factoryTarget op.name ∧
      m.params = op.params ∧ m.result = op.result := by
  obtain ⟨first, hfirst, hkey⟩ : ∃ first ∈ c.request.homeMethods.1,
      first.key = (HomeMethod.mk op home.1).key :=
    Request.exists_key_of_mem (.inr (List.mem_flatMap.2 ⟨home, hhome, List.mem_map_of_mem hop⟩))
  obtain ⟨other, hother, hop', hlocal⟩ := Request.mem_homeMethods hfirst
  obtain ⟨hname, hparams⟩ := signature_injective (hr.params other hother _ hop')
    (hr.params home hhome op hop) hkey
  refine ⟨c.method first, List.mem_cons_of_mem _ (List.mem_map_of_mem hfirst), hname, hparams, ?_⟩
  rw [HomeMethod.name, hlocal] at hname
  exact Request.result_eq_of_target_eq hfactory hrules hr hother hhome hop' hop hname hparams

/-- The methods of the factory implementation have signatures of their own, unless an operation
    takes the place of the constructor. -/
theorem nodup_methods (hconstructor : ∀ home ∈ c.request.homes, ∀ op ∈ home.2.ownedMethods,
      op.name = Known.constructor → op.params ≠ []) :
    (c.blueprint.methods.map fun m => (m.name, m.params)).Nodup := by
  rw [blueprint, List.map_cons, List.map_map]
  refine List.nodup_cons.2 ⟨fun hmem => ?_, nodup_of_signatures (nodup_homeMethods c.request)⟩
  obtain ⟨m, hm, heq⟩ := List.mem_map.1 hmem
  obtain ⟨home, hhome, hop, -⟩ := Request.mem_homeMethods hm
  obtain ⟨hname, hparams⟩ := Prod.mk.inj heq
  refine hconstructor home hhome m.op hop ?_ hparams
  -- A name that is made for the local home does not end like that of constructors.
  have hname : (ViewKind.ofHome m.isLocal).factoryTarget m.op.name = Known.constructor := hname
  cases hlocal : m.isLocal with
  | false => rwa [hlocal] at hname
  | true =>
    rw [hlocal, ViewKind.ofHome, if_pos rfl, ViewKind.factoryTarget_factoryLocal] at hname
    split at hname
    · exact hname
    · have hsuffix := List.suffix_append m.op.name.toList Known.localSuffix.toList
      rw [← String.toList_append, hname] at hsuffix
      exact absurd hsuffix (by decide)

/-- What the wrapper of a home calls is declared by the factory implementation as it is called,
    and none of its methods is declared twice. -/
theorem declares_directCall (hfactory : c.request.kind.isFactory = true)
    (hrules : Request.checkRules h c.request = .ok ()) (hr : c.request.TellsHomesApart)
    (hconstructor : ∀ home ∈ c.request.homes, ∀ op ∈ home.2.ownedMethods,
      op.name = Known.constructor → op.params ≠ []) :
    (∀ home ∈ c.request.homes, ∀ op ∈ home.2.ownedMethods, ∀ view : Request,
      view.kind = ViewKind.ofHome home.1 → view.factoryName = c.request.factoryName →
        ∀ (m : ExposedOperation) (bean : Expr), m.op.name = op.name → m.op.params = op.params →
          m.op.result = op.result →
            c.blueprint.DeclaresCalled ((Wrapper.siteFor view m.op).directCall m bean)) ∧
      (c.blueprint.methods.map fun m => (m.name, m.params)).Nodup := by
  refine ⟨fun home hhome op hop view hkind hfactoryName m bean hname hparams hresult => ?_,
    nodup_methods hconstructor⟩
  have hview : view.kind.isFactory = true := by
    rw [hkind]
    cases home.1 <;> rfl
  obtain ⟨method, hmethod, hmname, hmparams, hmresult⟩ :=
    exists_method hfactory hrules hr hhome hop
  have howner : (Wrapper.siteFor view m.op).beanClass = view.factoryName := if_pos hview
  have htarget : (Wrapper.siteFor view m.op).target = view.kind.factoryTarget m.op.name :=
    if_pos hview
  rw [hkind, hname] at htarget
  exact ⟨howner.trans hfactoryName, method, hmethod, hmname.trans htarget.symm,
    hmparams.trans hparams.symm, hmresult.trans hresult.symm⟩

/-- A home of an entity, with an operation for its own business. -/
def accountHome (isLocal : Bool) (business : String) : Interface where
  name := if isLocal then "acme.AccountLocalHome" else "acme.AccountHome"
  parents := [if isLocal then Known.ejbLocalHome else Known.ejbHome]
  methods :=
    [{ name := "create", params := [.string], throws := [.named Known.createException]
       result := .named (if isLocal then "acme.AccountLocal" else "acme.Account") },
      { name := business }]

/-- The view of one home of an entity, which shares an operation with the other. -/
def homesSharing (isLocal : Bool) (business : String) : Request where
  component := "Account"
  kind := .ofHome isLocal
  componentType := .beanManagedEntity
  interfaces := [accountHome isLocal business]
  bean := {
    className := "acme.AccountBean"
    methods :=
      [{ name := "ejbCreate", params := [.string], result := .string },
        { name := "ejbPostCreate", params := [.string] },
        { name := HomeOperation.entityMethod business }] }
  types :=
    [.interface "acme.Account" [Known.ejbObject],
      .interface "acme.AccountLocal" [Known.ejbLocalObject]]
  factory := some { companion := some (accountHome (!isLocal) business) }

/-- What the methods of the factory implementation of such homes depend on. -/
def contextSharing (business : String) : HomeContext :=
  ⟨homesSharing false business, (homesSharing false business).hierarchy, {}⟩

/-- The factory implementation that is made with the remote home has what the local one calls. -/
theorem declares_directCall_account :
    (∀ op ∈ (accountHome true "total").ownedMethods,
      (contextSharing "total").blueprint.DeclaresCalled
        ((Wrapper.siteFor (homesSharing true "total") op).directCall ⟨op, 1, {}, {}, false⟩
          .this)) ∧
      ((contextSharing "total").blueprint.methods.map fun m => (m.name, m.params)).Nodup := by
  have hok : ∃ checked, Request.checkRules (contextSharing "total").hierarchy
      (contextSharing "total").request = .ok checked ∧ checked = () := by
    decide
  obtain ⟨_, hrules, rfl⟩ := hok
  obtain ⟨hdeclares, hnodup⟩ := declares_directCall (c := contextSharing "total") rfl hrules
    (by decide) (by decide)
  have hhome : (true, accountHome true "total") ∈ (contextSharing "total").request.homes := by
    decide
  exact ⟨fun op hop => hdeclares _ hhome op hop (homesSharing true "total") rfl (by decide)
    ⟨op, 1, {}, {}, false⟩ .this rfl rfl rfl, hnodup⟩

/-- The homes may declare an operation by the name of constructors; all else that is asked of them
    holds. -/
theorem not_nodup_methods : (homesSharing false Known.constructor).kind.isFactory = true ∧
    (∃ checked, Request.checkRules (contextSharing Known.constructor).hierarchy
      (homesSharing false Known.constructor) = .ok checked ∧ checked = ()) ∧
    (homesSharing false Known.constructor).TellsHomesApart ∧
    ¬ ((contextSharing Known.constructor).blueprint.methods.map fun m =>
      (m.name, m.params)).Nodup := by
  refine ⟨rfl, ?_, ?_, ?_⟩ <;> decide

end HomeContext

end ComponentViews
