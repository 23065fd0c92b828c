import ComponentViews.Generation
import ComponentViews.Proofs.Checks
import ComponentViews.Proofs.Rules.Home
import ComponentViews.Proofs.Synthesis.Classes
import ComponentViews.Proofs.Synthesis.HomeImplementation
import ComponentViews.Proofs.Synthesis.Skeleton
import ComponentViews.Proofs.Synthesis.Wrapper

/-!
# Synthesized classes are accepted

What a request describes decides whether its classes pass the structural check. The classes
of a request that breaks no rule pass it (`check_of_synthesize`) where

* no standard class is declared anew, and the declarations run in no circle;
* declared failures are classes;
* `findByPrimaryKey` has a key to look for;
* no class goes by the name of `void`, which would make the type without values a view;
* no operation has more parameters than a 32-bit number can count.

For such requests, then, nothing but the request and the settings themselves can be at
fault (`blueprints_total`).
-/

namespace ComponentViews

/-- Whether the fault lies with the settings or the request, and not with a class that has
    been made for it. -/
def GenerationFault.isOwn : GenerationFault → Bool
  | settings _ | violation _ | missingFromTable _ | naming _ => true
  | .structure _ _ | emission _ _ | verification _ _ => false

namespace Request

instance (op : Operation) : Decidable (∀ ty ∈ op.throws, ty.IsFailure) :=
  inferInstanceAs (Decidable (∀ ty ∈ op.throws, ty.isArray = false ∧ ty.name ≠ ""))

/-- The descriptions of a request make sense: its classes fit into the standard ones and
    run in no circle, failures are classes, and who finds by a primary key says by which. -/
structure WellDescribed (r : Request) : Prop where
  keepsStandard : r.KeepsStandard
  acyclic : r.describedHierarchy.Acyclic
  failures : ∀ op ∈ r.declaredOperations, ∀ ty ∈ op.throws, ty.IsFailure
  keys : ∀ i ∈ r.interfaces ++ r.companion?.toList, ∀ op ∈ i.methods,
    op.name = "findByPrimaryKey" → 0 < op.params.length

/-- No operation has more parameters than a 32-bit number can count. -/
def FewParameters (r : Request) : Prop :=
  ∀ op ∈ r.declaredOperations, op.params.length ≤ 2 ^ 31

instance (r : Request) : Decidable r.FewParameters :=
  inferInstanceAs (Decidable (∀ op ∈ r.declaredOperations, op.params.length ≤ 2 ^ 31))

variable {r : Request}

/-! ### The operations exposed -/

theorem handled_exposedOperations {h : Hierarchy} (hk : h.KeepsStandard) (hac : h.Acyclic)
    (hfailures : ∀ op ∈ r.declaredOperations, ∀ ty ∈ op.throws, ty.IsFailure)
    (hfew : r.FewParameters) (policy : FailurePolicy) (table : DispatchTable) :
    ∀ m ∈ r.exposedOperations h policy table,
      m.failures.Handled h ∧ m.op.params.length ≤ 2 ^ 31 := by
  intro m hm
  obtain ⟨op, hop, rfl⟩ := List.mem_map.1 hm
  have hview := isOfView_exposure op hop
  obtain ⟨declared, hdeclared, -, hparams, -⟩ := hview.exists_declared
  refine ⟨Hierarchy.classify_handled hk (Hierarchy.antisymmOn_of_acyclic hac hk.objectIsTop _)
    (fun ty hty => ?_) _ _, ?_⟩
  · obtain ⟨lister, hlister, hty⟩ := hview.failures ty hty
    exact hfailures lister hlister ty hty
  · show op.params.length ≤ 2 ^ 31
    rw [hparams]
    exact hfew declared hdeclared

/-! ### The operations of homes -/

/-- The factory implementation has a body for each operation of its homes. -/
theorem fits_homeMethods {h : Hierarchy} (hk : h.KeepsStandard) (hac : h.Acyclic)
    (hfailures : ∀ op ∈ r.declaredOperations, ∀ ty ∈ op.throws, ty.IsFailure)
    (hkeys : ∀ i ∈ r.interfaces ++ r.companion?.toList, ∀ op ∈ i.methods,
      op.name = "findByPrimaryKey" → 0 < op.params.length)
    (hhands : ∀ home ∈ r.homes, ∀ op ∈ home.2.ownedMethods, HandsOut op)
    (policy : FailurePolicy) : ∀ m ∈ r.homeMethods.1, (HomeContext.mk r h policy).Fits m := by
  intro m hm
  obtain ⟨home, hhome, hmethod, -⟩ := mem_homeMethods hm
  have hi := mem_of_mem_homes hhome
  have hout := hhands home hhome m.op hmethod
  obtain ⟨op, hop, howned⟩ := List.mem_map.1 hmethod
  have hdeclared := declared_of_mem_homes hhome op hop
  have hthrows : m.op.throws = op.throws := by rw [← howned, Operation.throws_ownedBy]
  refine ⟨Hierarchy.classify_handled hk (Hierarchy.antisymmOn_of_acyclic hac hk.objectIsTop _)
    (hthrows ▸ hfailures op hdeclared) _ _, hout, fun hname => ?_⟩
  rw [← howned, Operation.params_ownedBy]
  rw [← howned, Operation.name_ownedBy] at hname
  exact hkeys _ hi op hop (HomeOperation.ofName_eq_findByPrimaryKey.1 hname)

/-! ### Requests -/

/-- The classes that are synthesized for a request that breaks no rule are accepted. -/
theorem check_of_synthesize (hr : r.WellDescribed) (hvoid : r.DescribesNoVoid)
    (hfew : r.FewParameters) {s : Settings} {synthesis : Synthesis}
    (hrules : checkRules r.hierarchy r = .ok ())
    (hsyn : r.synthesize s r.hierarchy = .ok synthesis) :
    ∀ b ∈ synthesis.blueprints, b.check r.hierarchy = .ok () := by
  have hk := keepsStandard_hierarchy hr.keepsStandard
  have hac := acyclic_hierarchy hr.keepsStandard hr.acyclic
  obtain ⟨-, remote, hremote, hblueprints⟩ := of_synthesize hsyn
  have hexposed := handled_exposedOperations hk hac hr.failures hfew s.failures
    synthesis.dispatchIds
  have hserved := exposed_of_mem_allRemoteOperations hremote
  -- Each kind of class is accepted for reasons of its own.
  rw [hblueprints]
  simp only [List.cons_append, List.forall_mem_cons, List.forall_mem_append, List.forall_mem_map]
  refine ⟨Wrapper.check_blueprint r fun m hm => (hexposed m hm).1, ⟨?_, ?_⟩, ?_⟩
  · split
    · rename_i hfactory
      have hfactory : r.kind.isFactory = true := by
        rw [hasFactory, Bool.and_eq_true] at hfactory
        exact hfactory.1
      rw [List.forall_mem_singleton]
      exact HomeContext.check_blueprint _ (fits_homeMethods hk hac hr.failures hr.keys
        (handsOut_of_checkRules (voidIsNoView hr.keepsStandard hvoid) hfactory hrules) _)
    · simp
  · exact fun p hp => Stub.check_blueprint hk p.1 fun m hm =>
      (hexposed _ ((hserved p hp).2 m hm)).2
  · intro b hb
    obtain ⟨⟨first, _⟩, -, rfl⟩ := Option.map_eq_some_iff.1 (Option.mem_toList.1 hb)
    refine Skeleton.check_blueprint fun m hm => ?_
    obtain ⟨p, hp, hm⟩ := List.mem_flatMap.1 hm
    obtain ⟨op, hop, rfl⟩ := List.mem_map.1 hm
    exact (hexposed _ ((hserved p hp).2 op hop)).1

/-- Synthesis gives classes that all pass the structural check, or else the request or the
    settings are at fault. -/
theorem blueprints_total (hr : r.WellDescribed) (hvoid : r.DescribesNoVoid)
    (hfew : r.FewParameters) (s : Settings) :
    (∃ synthesis, r.blueprints s = .ok synthesis ∧
        ∀ b ∈ synthesis.blueprints, b.check r.hierarchy = .ok ()) ∨
      ∃ fault, r.blueprints s = .error fault ∧ fault.isOwn = true := by
  cases hs : s.check with
  | error major =>
    refine .inr ⟨.settings major, ?_, rfl⟩
    simp [blueprints, hs, Except.mapError, bind, Except.bind]
  | ok u =>
    cases hrules : checkRules r.hierarchy r with
    | error v =>
      refine .inr ⟨.violation v, ?_, rfl⟩
      simp [blueprints, hs, hrules, Except.mapError, bind, Except.bind]
    | ok u =>
      cases hsyn : r.synthesize s r.hierarchy with
      | error fault =>
        refine .inr ⟨.ofSynthesis fault, ?_, by cases fault <;> rfl⟩
        simp [blueprints, hs, hrules, hsyn, Except.mapError, bind, Except.bind]
      -- Here the structural check is at stake: it cannot fail for what has been synthesized.
      | ok synthesis =>
        have hchecked := check_of_synthesize hr hvoid hfew hrules hsyn
        have hall : (forM synthesis.blueprints fun b : Blueprint =>
            (b.check r.hierarchy).mapError (GenerationFault.structure b.name)) =
            Except.ok () := by
          refine Except.forM_eq_ok.2 fun b hb => ?_
          rw [hchecked b hb]
          rfl
        refine .inl ⟨{ synthesis with
          warnings := r.assumptionWarnings ++ synthesis.warnings }, ?_, hchecked⟩
        simp only [blueprints, hs, hrules, hsyn]
        show ((forM synthesis.blueprints fun b : Blueprint =>
          (b.check r.hierarchy).mapError (GenerationFault.structure b.name)) >>= fun _ => _) = _
        rw [hall]
        rfl

/-- The local home of a stateless session, which hands out a view of the given name. -/
def homeHandingOut (view : String) : Request where
  component := "Account"
  kind := .factoryLocal
  interfaces := [{
    name := "acme.AccountHome"
    parents := [Known.ejbLocalHome]
    methods := [{
      name := "create", result := .named view, throws := [.named Known.createException] }] }]
  bean := { className := "acme.AccountBean" }
  types := [.interface view [Known.ejbLocalObject]]

/-- The wrapper and the factory implementation of a home that hands out accounts. -/
theorem blueprints_home : ∃ synthesis,
    (homeHandingOut "acme.Account").blueprints {} = .ok synthesis ∧
      ∀ b ∈ synthesis.blueprints, b.check (homeHandingOut "acme.Account").hierarchy = .ok () := by
  have hr : (homeHandingOut "acme.Account").WellDescribed := by
    constructor <;> decide
  have hok : ((homeHandingOut "acme.Account").blueprints {}).isOk = true := by decide
  rcases blueprints_total hr (by decide) (by decide) {} with hsyn | ⟨fault, hf, -⟩
  · exact hsyn
  · rw [hf] at hok
    exact absurd hok (by simp [Except.isOk, Except.toBool])

/-- The fault of an outcome. -/
def fault? (outcome : Except GenerationFault Synthesis) : Option GenerationFault :=
  match outcome with
  | .ok _ => none
  | .error fault => some fault

/-- A class by the name of `void` has to be excluded: a home may hand out what is no value,
    and the factory implementation then returns a value where there is no result. -/
theorem blueprints_home_void : ¬ ∀ (r : Request) (s : Settings), r.WellDescribed →
    (∃ synthesis, r.blueprints s = .ok synthesis) ∨
      ∃ fault, r.blueprints s = .error fault ∧ fault.isOwn = true := by
  intro hall
  have hr : (homeHandingOut "void").WellDescribed := by
    constructor <;> decide
  have hfault : fault? ((homeHandingOut "void").blueprints {}) =
      some (.structure "acme.Account_HomeImpl" ⟨"create_Local", .valueFromVoid⟩) := by
    decide
  rcases hall _ {} hr with ⟨synthesis, hsyn⟩ | ⟨fault, hf, hown⟩
  · rw [hsyn] at hfault
    exact absurd hfault (by simp [fault?])
  · rw [hf, fault?, Option.some.injEq] at hfault
    rw [hfault] at hown
    exact absurd hown (by decide)

end Request

end ComponentViews
