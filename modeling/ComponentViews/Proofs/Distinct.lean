import ComponentViews.Proofs.Execution.Routing
import ComponentViews.Proofs.Plain
import ComponentViews.Proofs.Synthesis.Remote
import ComponentViews.Proofs.Synthesis.Wrapper
import ComponentViews.Proofs.Verification.Emission

/-!
# Members of synthesized classes

The members of the classes for a request with plain names are told apart by their names and
descriptors, and no interface is listed twice (`Blueprint.HasPlainMembers`): operations that are
exposed have different signatures, and what a class has besides either gives way to them or goes by
a name that no operation has.
-/

namespace ComponentViews

/-- The members of a class are plain and are told apart. -/
structure Blueprint.HasPlainMembers (b : Blueprint) : Prop where
  distinct : b.HasDistinctMembers
  fields : ∀ f ∈ b.fields, f.type.IsWritable
  methods : ∀ m ∈ b.methods, m.IsPlain

theorem Blueprint.HasPlainMembers.returnsResults {b : Blueprint} (hb : b.HasPlainMembers) :
    b.ReturnsResults where
  access m hm := (hb.methods m hm).access
  returns m hm := (hb.methods m hm).returnFor_descriptor

/-- A public method with a body is plain if its types are. -/
theorem Method.isPlain_of_public {m : Method} (hparams : ∀ ty ∈ m.params, ty.IsPlain)
    (hresult : m.result.IsPlainResult) (hbody : m.body.isSome = true)
    (haccess : m.access = Modifiers.publicBit) : m.IsPlain :=
  ⟨hparams, hresult, hbody, by rw [haccess]; decide⟩

theorem Method.isPlain_constructorOf (ancestor : String) : (constructorOf ancestor).IsPlain :=
  isPlain_of_public (List.forall_mem_nil _) (.inl rfl) rfl rfl

theorem Method.isPlain_ofBody {name : String} {params : List Ty} {result : Ty} {body : Body}
    (hparams : ∀ ty ∈ params, ty.IsPlain) (hresult : result.IsPlainResult) :
    (ofBody name params result body).IsPlain :=
  isPlain_of_public hparams hresult rfl rfl

/-- What is told apart by keys spelled from its name and its parameters is told apart by these. -/
theorem nodup_of_signatures {α : Type} {l : List α} {name : α → String} {params : α → List Ty}
    (h : (l.map fun x => name x ++ paramsDescriptor (params x)).Nodup) :
    (l.map fun x => (name x, params x)).Nodup := by
  rw [List.Nodup, List.pairwise_map] at h ⊢
  refine h.imp fun hne heq => hne ?_
  obtain ⟨hname, hparams⟩ := Prod.mk.inj heq
  exact congrArg₂ (· ++ paramsDescriptor ·) hname hparams

/-! ### Wrappers -/

namespace Wrapper

/-- A list to which names are added that it lacks has each name once. -/
theorem nodup_foldl_names (names : List String) {seen : List String} (hseen : seen.Nodup) :
    (names.foldl (fun ns name => if name ∈ ns then ns else ns ++ [name]) seen).Nodup ∧
      names.foldl (fun ns name => if name ∈ ns then ns else ns ++ [name]) seen ⊆ seen ++ names := by
  induction names generalizing seen with
  | nil => exact ⟨hseen, by simp⟩
  | cons name rest ih =>
    rw [List.foldl_cons]
    split
    · obtain ⟨hnodup, hsubset⟩ := ih hseen
      exact ⟨hnodup, fun x hx => by
        have := hsubset hx
        simp only [List.mem_append, List.mem_cons] at this ⊢
        exact this.imp id .inr⟩
    · rename_i hnew
      have hmore : (seen ++ [name]).Nodup := List.concat_eq_append ▸ hseen.concat hnew
      obtain ⟨hnodup, hsubset⟩ := ih hmore
      exact ⟨hnodup, by simpa using hsubset⟩

theorem nodup_addMissing {methods extra : List Method}
    (h : (methods.map fun m => (m.name, m.params)).Nodup) :
    ((addMissing methods extra).map fun m => (m.name, m.params)).Nodup := by
  induction extra generalizing methods with
  | nil => exact h
  | cons e extra ih =>
    rw [addMissing, List.foldl_cons]
    refine ih ?_
    split
    · exact h
    · rename_i hnew
      have hlacks : (e.name, e.params) ∉ methods.map fun m => (m.name, m.params) := fun hmem => by
        obtain ⟨m, hm, heq⟩ := List.mem_map.1 hmem
        rw [Prod.mk.injEq] at heq
        exact hnew (List.any_eq_true.2 ⟨m, hm, by simp [heq]⟩)
      rw [List.map_append, List.map_singleton, ← List.concat_eq_append]
      exact h.concat hlacks

/-- The members that wrappers of some kinds have besides are plain. -/
theorem isPlain_members (kind : ViewKind) (unit : String) :
    ∀ m ∈ identityMembers kind unit ++ deliveryMembers kind unit,
      m.IsPlain ∧ '(' ∉ m.name.toList := by
  -- The bodies of `equals` and `hashCode` differ by the kind of the view, but not their types.
  have hidentity : ∀ {isSame hash : Body}, ∀ m ∈
      [Method.ofBody "equals" [.object] .boolean isSame, .ofBody "hashCode" [] .int hash],
      m.IsPlain ∧ '(' ∉ m.name.toList := by
    intro isSame hash
    simp only [List.forall_mem_cons]
    exact ⟨⟨Method.isPlain_ofBody (by decide) (by decide), (by decide : '(' ∉ "equals".toList)⟩,
      ⟨Method.isPlain_ofBody (by decide) (by decide), (by decide : '(' ∉ "hashCode".toList)⟩,
      List.forall_mem_nil _⟩
  have hpassOn : ∀ {hook : Hook} {throws : List String}, (∀ ty ∈ hook.params, ty.IsPlain) →
      '(' ∉ hook.name.toList → (passOn unit hook throws).IsPlain ∧
        '(' ∉ (passOn unit hook throws).name.toList :=
    fun hparams hname => ⟨Method.isPlain_of_public hparams (.inl rfl) rfl rfl, hname⟩
  simp only [List.forall_mem_append]
  constructor
  · rw [identityMembers]
    split
    · exact List.forall_mem_nil _
    split
    · exact hidentity
    · exact hidentity
  · rw [deliveryMembers]
    split
    · simp only [List.forall_mem_cons]
      exact ⟨hpassOn (by decide) (by decide), hpassOn (by decide) (by decide),
        hpassOn (by decide) (by decide), List.forall_mem_nil _⟩
    · exact List.forall_mem_nil _

/-- The guards of plain methods are plain. -/
theorem isPlain_guards {r : Request} (hr : r.HasPlainNames) :
    ∀ m ∈ guards r, m.IsPlain ∧ '(' ∉ m.name.toList := by
  rw [guards]
  split
  · refine List.forall_mem_map.2 fun op hop => ?_
    obtain ⟨hlisted, hguard⟩ := List.mem_filter.1 hop
    obtain ⟨declared, hdeclared, rfl⟩ := List.mem_map.1 hlisted
    have htypes := hr.types declared (List.mem_append_right _ hdeclared)
    have hname : IsMethodName declared.name := by
      refine (hr.beanMethods declared hdeclared).resolve_left fun hconstructor => ?_
      simp [needsGuard, hconstructor] at hguard
    have hbits :
        Modifiers.protectedBit &&& (Modifiers.abstractBit ||| Modifiers.nativeBit) = 0 := by decide
    refine ⟨⟨?_, ?_, rfl, ?_⟩, ?_⟩
    · simpa [guardOf] using htypes.params
    · simpa [guardOf] using htypes.result
    · simp [guardOf, UInt16.and_assoc, hbits]
    · simpa [guardOf] using hname.plain.not_mem (by simp)
  · exact List.forall_mem_nil _

/-- The members of a wrapper are told apart. -/
theorem hasPlainMembers_blueprint {r : Request} {h : Hierarchy} {policy : FailurePolicy}
    {table : DispatchTable} (hr : r.HasPlainNames) :
    (blueprint r (r.exposedOperations h policy table)).HasPlainMembers := by
  have hmethods : ∀ m ∈ (blueprint r (r.exposedOperations h policy table)).methods,
      m.IsPlain ∧ '(' ∉ m.name.toList := by
    intro m hm
    rcases mem_addMissing hm with hm | hm
    · rcases List.mem_cons.1 hm with rfl | hm
      · exact ⟨Method.isPlain_constructorOf _, (by decide : '(' ∉ Known.constructor.toList)⟩
      · obtain ⟨exposed, hexposed, rfl⟩ := List.mem_map.1 hm
        obtain ⟨op, hop, rfl⟩ := List.mem_map.1 hexposed
        have htypes := hr.hasPlainTypes_exposure hop
        exact ⟨Method.isPlain_of_public htypes.params htypes.result rfl rfl,
          (hr.isMethodName_exposure hop).plain.not_mem (by simp)⟩
    · rcases List.mem_append.1 hm with hm | hm
      · exact isPlain_members r.kind r.wrapperName m hm
      · exact isPlain_guards hr m hm
  have hsignatures : ((Method.constructorOf (r.kind.ancestor r.bean.className) ::
      (r.exposedOperations h policy table).map fun m => (siteFor r m.op).method m).map
        fun m => (m.name, m.params)).Nodup := by
    rw [List.map_cons, List.map_map, Request.exposedOperations, List.map_map]
    refine List.nodup_cons.2 ⟨fun hmem => ?_, ?_⟩
    · obtain ⟨op, hop, heq⟩ := List.mem_map.1 hmem
      exact (hr.isMethodName_exposure hop).ne_constructor (congrArg Prod.fst heq)
    · exact nodup_of_signatures r.nodup_exposure
  -- Names of classes have no slashes, so replacing their dots keeps them apart.
  obtain ⟨hnodup, hsubset⟩ :=
    nodup_foldl_names (r.interfaces.map (·.name) ++ r.kind.extraInterfaces) List.nodup_nil
  have hslashes : ∀ name ∈ r.interfaces.map (·.name) ++ r.kind.extraInterfaces,
      '/' ∉ name.toList := by
    refine List.forall_mem_append.2 ⟨List.forall_mem_map.2 fun i hi =>
      (hr.interface hi).plain.not_mem (by simp), ?_⟩
    cases r.kind <;> decide
  refine ⟨⟨?_, ?_, ?_⟩, ?_, fun m hm => (hmethods m hm).1⟩
  · refine hnodup.map_on fun a ha b hb => slashed_injective ?_ ?_
    · exact hslashes a (by simpa using hsubset ha)
    · exact hslashes b (by simpa using hsubset hb)
  · simp only [blueprint, List.map_map]
    cases r.kind <;> decide
  · exact Method.nodup_labels (fun m hm => (hmethods m hm).1) (fun m hm => (hmethods m hm).2)
      (nodup_addMissing hsignatures)
  · simp only [blueprint, List.forall_mem_map]
    cases r.kind <;> decide

end Wrapper

/-! ### Factory implementations -/

namespace HomeContext

theorem nodup_add {found : List HomeMethod × List String} {m : HomeMethod}
    (hfound : (found.1.map (·.key)).Nodup) : ((HomeMethod.add found m).1.map (·.key)).Nodup := by
  obtain ⟨ms, warnings⟩ := found
  simp only [HomeMethod.add]
  split
  · rename_i hnew
    have hlacks : m.key ∉ ms.map (·.key) := fun hmem => by
      obtain ⟨first, hfirst, heq⟩ := List.mem_map.1 hmem
      exact List.find?_eq_none.1 hnew first hfirst (beq_iff_eq.2 heq)
    rw [List.map_append, List.map_singleton, ← List.concat_eq_append]
    exact hfound.concat hlacks
  · exact hfound

/-- The methods of the factory implementation have different keys. -/
theorem nodup_homeMethods (r : Request) : (r.homeMethods.1.map (·.key)).Nodup := by
  have hfold : ∀ (all : List HomeMethod) (found : List HomeMethod × List String),
      (found.1.map (·.key)).Nodup → ((all.foldl HomeMethod.add found).1.map (·.key)).Nodup := by
    intro all
    induction all with
    | nil => exact fun _ hfound => hfound
    | cons m rest ih => exact fun found hfound => ih _ (nodup_add hfound)
  exact hfold _ _ List.nodup_nil

/-- The operations of homes have plain types and names. -/
theorem plain_homeMethods {r : Request} (hr : r.HasPlainNames) :
    ∀ m ∈ r.homeMethods.1, m.op.HasPlainTypes ∧ IsMethodName m.op.name := by
  intro m hm
  obtain ⟨home, hhome, hmethod, -⟩ := Request.mem_homeMethods hm
  obtain ⟨op, hop, howned⟩ := List.mem_map.1 hmethod
  have htypes := hr.types op (Request.declared_of_mem_homes hhome op hop)
  have hname := hr.interfaceMethods _ (Request.mem_of_mem_homes hhome) op hop
  rw [← howned]
  exact ⟨⟨by simpa using htypes.params, by simpa using htypes.result,
    by simpa using htypes.failures⟩, by simpa using hname⟩

theorem not_mem_name {m : HomeMethod} (hname : IsMethodName m.op.name) {c : Char}
    (hc : c ∈ ['(', '<']) : c ∉ m.name.toList := by
  have hplain := hname.plain.not_mem hc
  have hsuffix : Text.Lacks ['(', '<'] Known.localSuffix := by decide
  rw [HomeMethod.name, ViewKind.factoryTarget]
  generalize (if m.isLocal then ViewKind.factoryLocal else .factoryRemote) = kind
  split
  · rw [String.toList_append, List.mem_append, not_or]
    exact ⟨hplain, hsuffix.not_mem hc⟩
  · exact hplain

/-- The methods of a factory implementation are told apart. -/
theorem hasPlainMembers_blueprint {c : HomeContext} (hr : c.request.HasPlainNames) :
    c.blueprint.HasPlainMembers := by
  have hplain := plain_homeMethods hr
  have hmethods : ∀ m ∈ c.blueprint.methods, m.IsPlain ∧ '(' ∉ m.name.toList := by
    refine List.forall_mem_cons.2 ⟨⟨Method.isPlain_constructorOf _,
      (by decide : '(' ∉ Known.constructor.toList)⟩, List.forall_mem_map.2 fun m hm => ?_⟩
    obtain ⟨htypes, hname⟩ := hplain m hm
    exact ⟨Method.isPlain_of_public htypes.params htypes.result rfl rfl,
      not_mem_name hname (by simp)⟩
  refine ⟨⟨List.nodup_nil, List.nodup_nil, Method.nodup_labels (fun m hm => (hmethods m hm).1)
    (fun m hm => (hmethods m hm).2) ?_⟩, List.forall_mem_nil _, fun m hm => (hmethods m hm).1⟩
  rw [blueprint, List.map_cons, List.map_map]
  refine List.nodup_cons.2 ⟨fun hmem => ?_, ?_⟩
  · obtain ⟨m, hm, heq⟩ := List.mem_map.1 hmem
    refine not_mem_name (c := '<') (hplain m hm).2 (by simp) ?_
    rw [show m.name = Known.constructor from congrArg Prod.fst heq]
    decide
  · exact nodup_of_signatures (nodup_homeMethods c.request)

end HomeContext

/-! ### Stubs -/

namespace Stub

/-- The remote operations of an interface are those that it owns. -/
theorem exposed_remoteOperations {r : Request} {s : Settings} {h : Hierarchy}
    {policy : FailurePolicy} {table : DispatchTable} {i : Interface} {ops : List RemoteOperation}
    (hops : r.remoteOperations s h (r.exposedOperations h policy table) i = .ok ops) :
    ops.map (·.exposed) = (r.exposedOperations h policy table).filter (·.op.owner == i.name) := by
  simp only [Request.remoteOperations, Except.bind_eq_ok, pure, Except.pure,
    Except.ok.injEq] at hops
  obtain ⟨names, hnames, rfl⟩ := hops
  have hlength := (WireName.nodup_assign hnames (r.nodup_owned h policy table i.name)).1
  rw [List.length_map] at hlength
  rw [List.map_map]
  exact List.map_fst_zip hlength.ge

/-- The methods of a stub are told apart. -/
theorem hasPlainMembers_blueprint {r : Request} {s : Settings} {h : Hierarchy}
    {policy : FailurePolicy} {table : DispatchTable} (hr : r.HasPlainNames) {i : Interface}
    {ops : List RemoteOperation}
    (hops : r.remoteOperations s h (r.exposedOperations h policy table) i = .ok ops) :
    (blueprint h i ops).HasPlainMembers := by
  have hexposed := exposed_remoteOperations hops
  have hplain : ∀ m ∈ ops, (op m).HasPlainTypes ∧ IsMethodName (op m).name := by
    intro m hm
    have hmem : m.exposed ∈ ops.map (·.exposed) := List.mem_map_of_mem hm
    rw [hexposed] at hmem
    obtain ⟨declared, hdeclared, heq⟩ := List.mem_map.1 (List.mem_of_mem_filter hmem)
    rw [op, ← heq]
    exact ⟨hr.hasPlainTypes_exposure hdeclared, hr.isMethodName_exposure hdeclared⟩
  have hmethods : ∀ m ∈ (blueprint h i ops).methods, m.IsPlain ∧ '(' ∉ m.name.toList := by
    simp only [blueprint, List.forall_mem_cons, List.forall_mem_map]
    refine ⟨⟨Method.isPlain_constructorOf _, (by decide : '(' ∉ Known.constructor.toList)⟩,
      ⟨Method.isPlain_ofBody (List.forall_mem_nil _) (by decide),
        (by decide : '(' ∉ "_ids".toList)⟩,
      fun m hm => ?_⟩
    obtain ⟨htypes, hname⟩ := hplain m hm
    exact ⟨Method.isPlain_of_public htypes.params htypes.result rfl rfl,
      hname.plain.not_mem (by simp)⟩
  refine ⟨⟨List.nodup_singleton _, List.nodup_nil, Method.nodup_labels
    (fun m hm => (hmethods m hm).1) (fun m hm => (hmethods m hm).2) ?_⟩, List.forall_mem_nil _,
    fun m hm => (hmethods m hm).1⟩
  rw [blueprint, List.map_cons, List.map_cons, List.map_map]
  refine List.nodup_cons.2 ⟨fun hmem => ?_, List.nodup_cons.2 ⟨fun hmem => ?_, ?_⟩⟩
  · rcases List.mem_cons.1 hmem with heq | hmem
    · exact absurd (congrArg Prod.fst heq) (by decide : Known.constructor ≠ "_ids")
    · obtain ⟨m, hm, heq⟩ := List.mem_map.1 hmem
      exact (hplain m hm).2.ne_constructor (congrArg Prod.fst heq)
  · -- No operation begins with the underscore of `_ids`.
    obtain ⟨m, hm, heq⟩ := List.mem_map.1 hmem
    refine (hplain m hm).2.visible ?_
    rw [show (op m).name = "_ids" from congrArg Prod.fst heq]
    decide
  · have hkeys := r.nodup_owned h policy table i.name
    rw [← hexposed, List.map_map, List.map_map] at hkeys
    exact nodup_of_signatures hkeys

end Stub

/-! ### Skeletons -/

namespace Skeleton

theorem nodup_foldl_addServed (methods served : List Served)
    (hserved : (served.map (·.operation.wire.name)).Nodup) :
    ((methods.foldl addServed served).map (·.operation.wire.name)).Nodup := by
  induction methods generalizing served with
  | nil => exact hserved
  | cons first rest ih =>
    refine ih (addServed served first) ?_
    rw [addServed]
    split
    · exact hserved
    · rename_i hnew
      have hlacks : first.operation.wire.name ∉ served.map (·.operation.wire.name) := fun hmem => by
        obtain ⟨m, hm, heq⟩ := List.mem_map.1 hmem
        exact hnew (List.any_eq_true.2 ⟨m, hm, beq_iff_eq.2 heq⟩)
      rw [List.map_append, List.map_singleton, ← List.concat_eq_append]
      exact hserved.concat hlacks

/-- The methods that every skeleton has. -/
def fixedMembers (unit target : String) (ids : List String) (routes : Table String) :
    List Method :=
  .constructorOf Known.objectImpl :: tieMembers unit target ++
    [Marshalling.idsMethod ids, invokeMethod unit routes]

/-- The methods that every skeleton has are told apart, and none goes by the name of a handler. -/
theorem labels_fixedMembers (unit target : String) (ids : List String) (routes : Table String) :
    ((fixedMembers unit target ids routes).map Method.label).Nodup ∧
      ∀ label ∈ (fixedMembers unit target ids routes).map Method.label,
        ¬ "_op_".toList <+: label.toList := by
  -- The bodies have no say in the labels.
  have heq : (fixedMembers unit target ids routes).map Method.label =
      (fixedMembers "" "" [] ∅).map Method.label := rfl
  rw [heq]
  decide +kernel

theorem isPlain_invokeMethod (unit : String) (routes : Table String) :
    (invokeMethod unit routes).IsPlain :=
  Method.isPlain_of_public
    (by decide : ∀ ty ∈ [Ty.string, .named Known.portableInputStream, .named Known.responseHandler],
      ty.IsPlain)
    (by decide : (Ty.named Known.portableOutputStream).IsPlainResult) rfl rfl

theorem isPlain_fixedMembers {unit target : String} {ids : List String} {routes : Table String} :
    ∀ m ∈ fixedMembers unit target ids routes, m.IsPlain := by
  simp only [fixedMembers, tieMembers, List.cons_append, List.nil_append, List.forall_mem_cons]
  refine ⟨Method.isPlain_constructorOf _, ?_, ?_, ?_, ?_, ?_, ?_, ?_,
    isPlain_invokeMethod unit routes, List.forall_mem_nil _⟩ <;>
    exact Method.isPlain_ofBody (by decide) (by decide)

/-- The members of a skeleton are told apart. -/
theorem hasPlainMembers_blueprint {h : Hierarchy} {unit target : String} {methods : List Served}
    (htarget : IsClassName target) : (blueprint h unit target methods).HasPlainMembers := by
  have hmethods : (blueprint h unit target methods).methods =
      fixedMembers unit target (typeIds target methods) (routes methods) ++
        (methods.foldl addServed []).map (handler h unit target) := rfl
  obtain ⟨hfixed, hprefix⟩ :=
    labels_fixedMembers unit target (typeIds target methods) (routes methods)
  refine ⟨⟨List.nodup_singleton _, List.nodup_singleton _, ?_⟩, ?_, ?_⟩
  · rw [hmethods, List.map_append, List.map_map]
    refine List.nodup_append.2 ⟨hfixed, ?_, fun a ha b hb hab => hprefix a ha ?_⟩
    · have hnames := nodup_foldl_addServed methods [] List.nodup_nil
      rw [List.Nodup, List.pairwise_map] at hnames ⊢
      refine hnames.imp fun hne heq => hne (handlerName_injective ?_)
      have hlists := congrArg String.toList heq
      simp only [Function.comp_apply, Method.label, String.toList_append] at hlists
      exact String.toList_inj.1 (List.append_cancel_right hlists)
    · obtain ⟨m, -, rfl⟩ := List.mem_map.1 hb
      rw [hab]
      simp only [Function.comp_apply, Method.label, handler, handlerName, String.toList_append,
        List.append_assoc]
      exact List.prefix_append _ _
  · exact List.forall_mem_singleton.2 (Ty.isPlain_named htarget).isWritable
  · rw [hmethods, List.forall_mem_append, List.forall_mem_map]
    have hprivate :
        Modifiers.privateBit &&& (Modifiers.abstractBit ||| Modifiers.nativeBit) = 0 := by decide
    exact ⟨isPlain_fixedMembers, fun m _ =>
      ⟨by simp [handler], .inr (Ty.isPlain_handled (by simp)), rfl, hprivate⟩⟩

end Skeleton

end ComponentViews
