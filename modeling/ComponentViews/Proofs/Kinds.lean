import ComponentViews.Proofs.Generation
import ComponentViews.Proofs.Rules.References
import ComponentViews.Proofs.Kinds.HomeImplementation
import ComponentViews.Proofs.Kinds.Skeleton
import ComponentViews.Proofs.Kinds.Wrapper

/-!
# Operands of synthesized classes

The structural check and the verifier do not look at types. All the same every operand in the
classes of a request that breaks no rule has a value of the kind that its consumer declares
(`Request.isKinded_blueprints`), where

* no class and no failure goes by the name of a primitive type or of `void`;
* all parameters have values;
* the keys of an entity, and what `findByPrimaryKey` looks for, are references.

None of this is asked by the rules, and each is needed (`Request.not_isKinded_blueprints`): names
are taken for primitive types, and the container's home expects objects where it is given keys.
-/

namespace ComponentViews

/-- A name made with an underscore is that of a class. -/
theorem isReference_qualify (outer : Option String) {simple : String} (h : '_' ∈ simple.toList) :
    (Ty.named (Dotted.qualify outer simple)).isReference = true := by
  refine Ty.isReference_of_mem (c := '_') ?_ (by decide)
  cases outer with
  | none => exact h
  | some outer => simp [Dotted.qualify, h]

theorem isReference_stubName (interface : String) :
    (Ty.named (stubName interface)).isReference = true :=
  isReference_qualify _ (by simp)

/-- Where neither names nor descriptors matter, a signature fits whose parameters have values. -/
theorem fitsCall_false {params : List Ty} (h : ∀ ty ∈ params, ty.isVoid = false) (kind : CallKind)
    (result : Ty) : FitsCall False False kind params result :=
  ⟨h, False.elim, False.elim, False.elim⟩

namespace Request

variable {r : Request} {s : Settings} {h : Hierarchy} {synthesis : Synthesis}

theorem isReference_wrapperName (r : Request) : (Ty.named r.wrapperName).isReference = true :=
  isReference_qualify _ (by simp)

theorem isReference_factoryName (r : Request) : (Ty.named r.factoryName).isReference = true :=
  isReference_qualify _ (by simp)

theorem isReference_skeletonName (r : Request) : (Ty.named r.skeletonName).isReference = true :=
  isReference_qualify _ (by simp)

/-- All parameters of the operations that a request describes have values. -/
def ParamsHaveValues (r : Request) : Prop :=
  ∀ op ∈ r.declaredOperations, ∀ ty ∈ op.params, ty.isVoid = false

instance (r : Request) : Decidable r.ParamsHaveValues :=
  inferInstanceAs (Decidable (∀ op ∈ r.declaredOperations, ∀ ty ∈ op.params, ty.isVoid = false))

/-- The keys of an entity are references, and so is what it is looked for by. -/
structure HasReferenceKeys (r : Request) : Prop where
  keyType : r.componentType = .beanManagedEntity →
    ∀ ty ∈ r.factory.bind (·.keyType), ty.isReference = true
  sought : ∀ home ∈ r.homes, ∀ op ∈ home.2.methods, op.name = "findByPrimaryKey" →
    ∀ ty ∈ op.params.head?, ty.isReference = true

/-! ### The operations exposed -/

/-- The failures that an operation's handlers are for are references. -/
theorem isReference_application (hr : r.NamesClasses) {policy : FailurePolicy}
    {declared : List Ty} {remoteStyle : Bool} (hdeclared : ∀ ty ∈ declared,
      ∃ op ∈ r.declaredOperations, ty ∈ op.throws) :
    ∀ ty ∈ (h.classify policy declared remoteStyle).application, ty.isReference = true := by
  intro ty hty
  obtain ⟨op, hop, hty⟩ :=
    hdeclared ty ((Hierarchy.checked_application policy declared remoteStyle).declared ty hty)
  exact Ty.isReference_of_named (hr.failures op hop ty hty)

/-- What is called asynchronously has no result, or one that is still to come. -/
theorem scheduled_of_checkOperations (hops : checkOperations h r = .ok ()) :
    ∀ op ∈ r.visibleOperations, (r.policyFor op).asynchronous = true →
      op.result.isVoid = true ∨ op.result.isNamed Known.future = true := by
  intro op hop hasync
  have hnone : r.visibleOperations.find? r.asyncWithResult = none := by
    cases hfind : r.visibleOperations.find? r.asyncWithResult with
    | none => rfl
    | some broken =>
      -- Whatever comes before and after, this operation is refused.
      simp only [checkOperations, hfind, throw, throwThe, MonadExceptOf.throw, bind,
        Except.bind] at hops
      split at hops
      · split at hops <;> cases hops
      · cases hops
  have hplain := List.find?_eq_none.1 hnone op hop
  simp only [asyncWithResult, hasync, Bool.true_and, Bool.and_eq_true, Bool.not_eq_true',
    not_and, Bool.not_eq_false] at hplain
  cases hvoid : op.result.isVoid with
  | true => exact .inl rfl
  | false => exact .inr (hplain hvoid)

theorem hasKinds_exposedOperations (hr : r.NamesClasses) (hparams : r.ParamsHaveValues)
    (hops : checkOperations h r = .ok ()) (policy : FailurePolicy) (table : DispatchTable) :
    ∀ m ∈ r.exposedOperations h policy table, m.HasKinds False False := by
  intro m hm
  obtain ⟨op, hop, rfl⟩ := List.mem_map.1 hm
  have hview := isOfView_exposure op hop
  have hvalues : ∀ ty ∈ op.params, ty.isVoid = false := by
    obtain ⟨declared, hdeclared, -, heq, -⟩ := hview.exists_declared
    exact heq ▸ hparams declared hdeclared
  refine ⟨hvalues, isReference_application hr hview.failures,
    fun kind => fitsCall_false hvalues kind _, ?_⟩
  obtain ⟨seen, hseen, heq⟩ := hview.visible
  -- Policies and results do not depend on failures.
  have hpolicy : r.policyFor op = r.policyFor seen := by
    rw [heq]
    rfl
  have hresult : op.result = seen.result := by rw [heq]
  simp only [expose, hpolicy, hresult]
  exact scheduled_of_checkOperations hops seen hseen

/-! ### The operations of homes -/

/-- Whatever the rules let through has the kinds that the factory implementation expects; where
    there is nothing to look for, the structural check finds out. -/
theorem hasKinds_homeMethods (hr : r.NamesClasses) (hparams : r.ParamsHaveValues)
    (hkeys : r.HasReferenceKeys) (hn : h.NamesClasses)
    (hadmitted : ∀ home ∈ r.homes, ∀ op ∈ home.2.ownedMethods, IsAdmitted h r home.1 op)
    {policy : FailurePolicy} (hcheck : (HomeContext.mk r h policy).blueprint.check h = .ok ()) :
    ∀ m ∈ r.homeMethods.1, (HomeContext.mk r h policy).HasKinds False False m := by
  intro m hm
  obtain ⟨home, hhome, hmethod, -⟩ := mem_homeMethods hm
  have hadm := hadmitted home hhome m.op hmethod
  obtain ⟨op, hop, howned⟩ := List.mem_map.1 hmethod
  have hdeclared := declared_of_mem_homes hhome op hop
  have hsame : m.op.params = op.params := by rw [← howned, Operation.params_ownedBy]
  have hvalues : ∀ ty ∈ m.op.params, ty.isVoid = false := hsame ▸ hparams op hdeclared
  refine ⟨hr.bean, fun hkey => ?_, hvalues, ?_, isReference_of_isAdmitted hn hadm,
    fun hname => ?_, fun _ _ => fitsCall_false hvalues _ _⟩
  · -- Keys are asked for where an entity is created or found, and the rules let nothing else
    -- through.
    have hentity : r.componentType = .beanManagedEntity := by
      rcases hkey with hcreate | hentity
      · exact hadm.creates hcreate
      · exact beq_iff_eq.1 hentity
    rw [HomeContext.keyType]
    cases hgiven : r.factory.bind (·.keyType) with
    | none => exact Ty.isReference_named (by simp)
    | some key => exact hkeys.keyType hentity key hgiven
  · refine isReference_application hr fun ty hty => ⟨op, hdeclared, ?_⟩
    rwa [← howned, Operation.throws_ownedBy] at hty
  · have hlength := HomeContext.length_params_of_check hcheck hm hname
    have hty := List.head?_eq_some_head (List.ne_nil_of_length_pos hlength)
    refine ⟨_, hty, hkeys.sought home hhome op hop ?_ _ (hsame ▸ hty)⟩
    rw [← howned, Operation.name_ownedBy] at hname
    exact HomeOperation.ofName_eq_findByPrimaryKey.1 hname

/-! ### All classes -/

/-- Every operand in the bodies of the classes has a value of the kind that its consumer
    expects. -/
theorem isKinded_blueprints (hr : r.NamesClasses) (hparams : r.ParamsHaveValues)
    (hkeys : r.hasFactory = true → r.HasReferenceKeys) (hs : r.blueprints s = .ok synthesis) :
    ∀ b ∈ synthesis.blueprints, b.IsKinded False False := by
  obtain ⟨-, hrules, worked, hworked, hcheck, rfl⟩ := blueprints_eq_ok.1 hs
  obtain ⟨-, remote, hremote, hblueprints⟩ := of_synthesize hworked
  have hops : checkOperations r.hierarchy r = .ok () := by
    rw [checkRules, Except.bind_unit_eq_ok, Except.bind_unit_eq_ok] at hrules
    exact hrules.2.1
  have hexposed := hasKinds_exposedOperations hr hparams hops s.failures worked.dispatchIds
  have hserved := exposed_of_mem_allRemoteOperations hremote
  show ∀ b ∈ worked.blueprints, b.IsKinded False False
  rw [hblueprints] at hcheck ⊢
  simp only [List.cons_append, List.forall_mem_cons, List.forall_mem_append,
    List.forall_mem_map] at hcheck ⊢
  -- One kind of class after the other: wrapper, factory, stubs, skeleton.
  refine ⟨Wrapper.isKinded_blueprint (isReference_wrapperName r) (isReference_factoryName r)
    hr.bean hexposed, ⟨?_, ?_⟩, ?_⟩
  · split
    · rename_i hfactory
      have hkind : r.kind.isFactory = true := by
        rw [hasFactory, Bool.and_eq_true] at hfactory
        exact hfactory.1
      rw [if_pos hfactory, List.forall_mem_singleton] at hcheck
      rw [List.forall_mem_singleton]
      exact HomeContext.isKinded_blueprint (isReference_factoryName r)
        (hasKinds_homeMethods hr hparams (hkeys hfactory) (namesClasses_hierarchy hr)
          (isAdmitted_of_checkRules hkind hrules) hcheck.2.1.1)
    · simp
  · exact fun p hp => Stub.isKinded_blueprint (isReference_stubName _)
      (hr.interfaces _ (hserved p hp).1) fun m hm => hexposed _ ((hserved p hp).2 m hm)
  · intro b hb
    obtain ⟨⟨first, ops⟩, hfirst, rfl⟩ := Option.map_eq_some_iff.1 (Option.mem_toList.1 hb)
    have hfirst := hr.interfaces _ (hserved _ (List.mem_of_mem_head? hfirst)).1
    refine Skeleton.isKinded_blueprint (isReference_skeletonName r) hfirst
      (Ty.fits_false (Ty.isVoid_of_isReference hfirst))
      fun m hm => ?_
    obtain ⟨p, hp, hm⟩ := List.mem_flatMap.1 hm
    obtain ⟨op, hop, rfl⟩ := List.mem_map.1 hm
    exact ⟨hexposed _ ((hserved p hp).2 op hop), hr.interfaces _ (hserved p hp).1⟩

/-- The remote home of an entity with keys of one type, where `findByPrimaryKey` looks for values
    of another. -/
def homeKeyedBy (key sought : Ty) : Request where
  component := "Account"
  kind := .factoryRemote
  componentType := .beanManagedEntity
  interfaces := [{
    name := "acme.AccountHome"
    parents := [Known.ejbHome]
    methods :=
      [{ name := "create", params := [key], result := .named "acme.Account"
         throws := [.named Known.createException] },
        { name := "findByPrimaryKey", params := [sought], result := .named "acme.Account"
          throws := [.named Known.finderException] }] }]
  bean := {
    className := "acme.AccountBean"
    methods :=
      [{ name := "ejbCreate", params := [key], result := key },
        { name := "ejbPostCreate", params := [key] },
        { name := "ejbFindByPrimaryKey", params := [sought], result := key }] }
  types := [.interface "acme.Account" [Known.ejbObject]]
  factory := some { keyType := some key }

/-- The wrapper, the factory implementation, the stub and the skeleton of a home with keys that
    are strings. -/
theorem isKinded_blueprints_home : ∃ synthesis,
    (homeKeyedBy .string .string).blueprints {} = .ok synthesis ∧
      ∀ b ∈ synthesis.blueprints, b.IsKinded False False := by
  have hr : (homeKeyedBy .string .string).NamesClasses := by
    constructor <;> decide +kernel
  have hkeys : (homeKeyedBy .string .string).HasReferenceKeys := by
    constructor <;> decide +kernel
  have hok : ∃ synthesis, (homeKeyedBy .string .string).blueprints {} = .ok synthesis ∧ True := by
    decide +kernel
  obtain ⟨synthesis, hs, -⟩ := hok
  exact ⟨synthesis, hs, isKinded_blueprints hr (by decide +kernel) (fun _ => hkeys) hs⟩

/-- A local view with an operation that declares a failure. -/
def viewThrowing (failure : String) : Request where
  component := "Account"
  kind := .businessLocal
  interfaces := [{
    name := "acme.Account"
    methods := [{ name := "close", throws := [.named failure] }] }]
  bean := { className := "acme.AccountBean", methods := [{ name := "close" }] }

/-- The request breaks no rule, and its parameters have values, but some operand in its classes
    is of another kind than its consumer expects. -/
def HasMisfit (r : Request) : Prop :=
  r.ParamsHaveValues ∧ ∃ synthesis, r.blueprints {} = .ok synthesis ∧
    ∃ b ∈ synthesis.blueprints, ¬ b.IsKinded False False

instance (r : Request) : Decidable r.HasMisfit :=
  inferInstanceAs (Decidable (_ ∧ ∃ synthesis, r.blueprints {} = .ok synthesis ∧
    ∃ b ∈ synthesis.blueprints, ¬ b.IsKinded False False))

/-- There are misfits if keys are no references, if `findByPrimaryKey` looks for a number, and if a
    view or a failure goes by the name of a primitive type. -/
theorem not_isKinded_blueprints :
    (homeKeyedBy .int .string).HasMisfit ∧ (homeKeyedBy .string .int).HasMisfit ∧
      (homeHandingOut "int").HasMisfit ∧ (viewThrowing "int").HasMisfit := by
  decide +kernel

end Request

end ComponentViews
