import ComponentViews.Generation
import ComponentViews.Proofs.Checks

/-!
# The classes of a request

What a synthesis consists of (`Request.of_synthesize`), and which operations its classes are
made for: each operation exposed, and each of a home, is one that the request describes, but for
its owner and for failures that other declarations of it list (`Request.origin_exposure`,
`Request.mem_homeMethods`).
-/

namespace ComponentViews

/-! ### Operations -/

namespace Operation

variable (op : Operation) (lister : String)

@[simp] theorem name_ownedBy : (op.ownedBy lister).name = op.name := by
  rw [ownedBy]
  split <;> rfl

@[simp] theorem params_ownedBy : (op.ownedBy lister).params = op.params := by
  rw [ownedBy]
  split <;> rfl

@[simp] theorem result_ownedBy : (op.ownedBy lister).result = op.result := by
  rw [ownedBy]
  split <;> rfl

@[simp] theorem throws_ownedBy : (op.ownedBy lister).throws = op.throws := by
  rw [ownedBy]
  split <;> rfl

end Operation

theorem HomeOperation.ofName_eq_findByPrimaryKey {name : String} :
    ofName name = .findByPrimaryKey ↔ name = "findByPrimaryKey" := by
  rw [ofName]
  split
  · simp_all
  split
  · simp_all
  split <;> simp_all

namespace Request

/-- The operations that the descriptions of a request list. -/
def declaredOperations (r : Request) : List Operation :=
  (r.interfaces ++ r.companion?.toList).flatMap (·.methods) ++ r.bean.methods

variable {r : Request} {s : Settings} {h : Hierarchy} {synthesis : Synthesis}

/-! ### What a synthesis consists of -/

/-- The classes are made for the operations exposed, all with the ids of one table. -/
theorem of_synthesize (hsyn : r.synthesize s h = .ok synthesis) :
    r.dispatchTable = .ok synthesis.dispatchIds ∧
      ∃ remote, r.allRemoteOperations s h
          (r.exposedOperations h s.failures synthesis.dispatchIds) = .ok remote ∧
        synthesis.blueprints =
          Wrapper.blueprint r (r.exposedOperations h s.failures synthesis.dispatchIds) ::
            (if r.hasFactory then [(HomeContext.mk r h s.failures).blueprint] else []) ++
            (remote.map fun (i, ops) => Stub.blueprint h i ops) ++
            (r.skeleton? h remote).toList := by
  simp only [synthesize] at hsyn
  cases htable : r.dispatchTable with
  | error key => simp [htable, Except.mapError, bind, Except.bind] at hsyn
  | ok table =>
    cases hremote : r.allRemoteOperations s h (r.exposedOperations h s.failures table) with
    | error conflict => simp [htable, hremote, Except.mapError, bind, Except.bind] at hsyn
    | ok remote =>
      simp only [htable, hremote, Except.mapError, bind, Except.bind, pure, Except.pure,
        Except.ok.injEq] at hsyn
      subst hsyn
      exact ⟨rfl, remote, hremote, rfl⟩

/-- There are classes if the request breaks no rule and all that has been synthesized passes
    the structural check. -/
theorem blueprints_eq_ok : r.blueprints s = .ok synthesis ↔ s.check = .ok () ∧
    checkRules r.hierarchy r = .ok () ∧ ∃ worked, r.synthesize s r.hierarchy = .ok worked ∧
      (∀ b ∈ worked.blueprints, b.check r.hierarchy = .ok ()) ∧
        synthesis = { worked with warnings := r.assumptionWarnings ++ worked.warnings } := by
  simp only [blueprints, Except.mapError_eq_ok, Except.bind_eq_ok, pure, Except.pure,
    Except.ok.injEq, Unique.exists_iff, PUnit.default_eq_unit, Except.forM_eq_ok,
    eq_comm (a := synthesis)]

/-! ### The operations exposed -/

/-- An operation is one that callers see, but for failures, and these are failures that some
    declaration lists. -/
structure IsOfView (r : Request) (op : Operation) : Prop where
  visible : ∃ seen ∈ r.visibleOperations, op = { seen with throws := op.throws }
  failures : ∀ ty ∈ op.throws, ∃ declared ∈ r.declaredOperations, ty ∈ declared.throws

/-- What callers see is described, but for the owner. -/
theorem exists_declared_of_visible {op : Operation} (hop : op ∈ r.visibleOperations) :
    ∃ declared ∈ r.declaredOperations, ∃ lister, op = declared.ownedBy lister := by
  rw [visibleOperations] at hop
  split at hop
  · obtain ⟨m, hm, rfl⟩ := List.mem_map.1 (List.mem_of_mem_filter hop)
    exact ⟨m, List.mem_append_right _ hm, _, rfl⟩
  · obtain ⟨i, hi, hop⟩ := List.mem_flatMap.1 hop
    obtain ⟨m, hm, rfl⟩ := List.mem_map.1 hop
    refine ⟨m, List.mem_append_left _ (List.mem_flatMap.2 ⟨i, ?_, hm⟩), _, rfl⟩
    exact List.mem_append_left _ hi

/-- Candidates are operations that callers see. -/
theorem visible_of_mem_exposureCandidates {op : Operation} (hop : op ∈ r.exposureCandidates) :
    op ∈ r.visibleOperations := by
  rw [exposureCandidates] at hop
  rw [visibleOperations]
  split at hop
  · rename_i hbean
    rw [Bool.and_eq_true] at hbean
    rw [if_pos hbean.1]
    obtain ⟨hop, hpublic⟩ := List.mem_filter.1 hop
    rw [Bool.and_eq_true, Bool.and_eq_true] at hpublic
    exact List.mem_filter.2 ⟨hop, hpublic.1.1⟩
  · split
    · rename_i hnone
      simp [List.isEmpty_iff.1 hnone] at hop
    · exact hop

theorem isOfView_of_visible {op : Operation} (hop : op ∈ r.visibleOperations) :
    r.IsOfView op := by
  refine ⟨⟨op, hop, rfl⟩, fun ty hty => ?_⟩
  obtain ⟨declared, hdeclared, lister, rfl⟩ := exists_declared_of_visible hop
  exact ⟨declared, hdeclared, by rwa [Operation.throws_ownedBy] at hty⟩

/-- The name, the parameters and the result are those of a declaration. -/
theorem IsOfView.exists_declared {op : Operation} (hop : r.IsOfView op) :
    ∃ declared ∈ r.declaredOperations, op.name = declared.name ∧ op.params = declared.params ∧
      op.result = declared.result := by
  obtain ⟨seen, hseen, heq⟩ := hop.visible
  obtain ⟨declared, hdeclared, lister, rfl⟩ := exists_declared_of_visible hseen
  exact ⟨declared, hdeclared, by rw [heq]; simp, by rw [heq]; simp, by rw [heq]; simp⟩

/-- The failures that two declarations settle on are listed by one of them or by the bean
    class. -/
theorem failures_settledFailures {first second : Operation} (hfirst : r.IsOfView first) :
    ∀ ty ∈ r.settledFailures first second, ∃ declared ∈ r.declaredOperations,
      ty ∈ declared.throws := by
  intro ty hty
  rw [settledFailures] at hty
  cases hfind : r.bean.find? second.name second.params with
  | none =>
    rw [hfind] at hty
    exact hfirst.failures ty hty
  | some m =>
    rw [hfind] at hty
    exact ⟨m, List.mem_append_right _ (List.mem_of_find?_eq_some hfind), hty⟩

theorem isOfView_addExposed {found : List Operation × List String} {op : Operation}
    (hfound : ∀ o ∈ found.1, r.IsOfView o) (hop : r.IsOfView op) :
    ∀ o ∈ (r.addExposed found op).1, r.IsOfView o := by
  obtain ⟨ops, warnings⟩ := found
  simp only [addExposed]
  split
  · simp only [List.forall_mem_append, List.forall_mem_singleton]
    exact ⟨hfound, hop⟩
  · rename_i first hfirst
    have hfirst := hfound first (List.mem_of_find?_eq_some hfirst)
    split
    · exact hfound
    · simp only [List.forall_mem_map]
      intro o ho
      split
      · obtain ⟨seen, hseen, heq⟩ := (hfound o ho).visible
        exact ⟨⟨seen, hseen, by rw [heq]⟩, failures_settledFailures hfirst⟩
      · exact hfound o ho

/-- Every operation exposed is one that callers see, but for failures that are declared. -/
theorem isOfView_exposure : ∀ op ∈ r.exposure.1, r.IsOfView op := by
  have hfold : ∀ (candidates : List Operation) (found : List Operation × List String),
      (∀ op ∈ candidates, r.IsOfView op) → (∀ o ∈ found.1, r.IsOfView o) →
      ∀ o ∈ (candidates.foldl r.addExposed found).1, r.IsOfView o := by
    intro candidates
    induction candidates with
    | nil => exact fun _ _ hfound => hfound
    | cons op rest ih =>
      intro found hcandidates hfound
      exact ih _ (fun o ho => hcandidates o (List.mem_cons_of_mem _ ho))
        (isOfView_addExposed hfound (hcandidates op List.mem_cons_self))
  exact hfold _ _ (fun op hop => isOfView_of_visible (visible_of_mem_exposureCandidates hop))
    (by simp)

/-- The remote operations of an interface are operations that are exposed. -/
theorem exposed_of_mem_remoteOperations {exposed : List ExposedOperation} {i : Interface}
    {ops : List RemoteOperation} (hops : r.remoteOperations s h exposed i = .ok ops) :
    ∀ o ∈ ops, o.exposed ∈ exposed := by
  simp only [remoteOperations, Except.bind_eq_ok, pure, Except.pure, Except.ok.injEq] at hops
  obtain ⟨names, -, rfl⟩ := hops
  intro o ho
  obtain ⟨⟨m, wire⟩, hm, rfl⟩ := List.mem_map.1 ho
  exact List.mem_of_mem_filter (List.of_mem_zip hm).1

theorem exposed_of_mem_allRemoteOperations {exposed : List ExposedOperation}
    {remote : List (Interface × List RemoteOperation)}
    (hremote : r.allRemoteOperations s h exposed = .ok remote) :
    ∀ p ∈ remote, p.1 ∈ r.interfaces ∧ ∀ o ∈ p.2, o.exposed ∈ exposed := by
  rw [allRemoteOperations] at hremote
  split at hremote
  · intro p hp
    obtain ⟨i, hi, hp⟩ := Except.mem_of_mapM_eq_ok hremote p hp
    simp only [Except.bind_eq_ok, pure, Except.pure, Except.ok.injEq] at hp
    obtain ⟨ops, hops, rfl⟩ := hp
    exact ⟨hi, exposed_of_mem_remoteOperations hops⟩
  · cases hremote
    simp

/-! ### The operations of homes -/

/-- Every method of the factory implementation is for an operation of a home. -/
theorem mem_homeMethods {m : HomeMethod} (hm : m ∈ r.homeMethods.1) :
    ∃ home ∈ r.homes, m.op ∈ home.2.ownedMethods ∧ m.isLocal = home.1 := by
  have hfold : ∀ (all : List HomeMethod) (found : List HomeMethod × List String),
      ∀ x ∈ (all.foldl HomeMethod.add found).1, x ∈ found.1 ∨ x ∈ all := by
    intro all
    induction all with
    | nil => exact fun found x hx => .inl hx
    | cons first rest ih =>
      intro found x hx
      rcases ih _ x hx with hx | hx
      · obtain ⟨ms, warnings⟩ := found
        simp only [HomeMethod.add] at hx
        split at hx
        · rcases List.mem_append.1 hx with hx | hx
          · exact .inl hx
          · exact .inr (List.mem_cons.2 (.inl (List.mem_singleton.1 hx)))
        · exact .inl hx
      · exact .inr (List.mem_cons_of_mem _ hx)
  rcases hfold _ _ m hm with hm | hm
  · exact absurd hm List.not_mem_nil
  · obtain ⟨⟨isLocal, i⟩, hi, hm⟩ := List.mem_flatMap.1 hm
    obtain ⟨op, hop, rfl⟩ := List.mem_map.1 hm
    exact ⟨_, hi, hop, rfl⟩

/-- The homes are the interfaces exposed and the companion. -/
theorem mem_of_mem_homes {home : Bool × Interface} (hhome : home ∈ r.homes) :
    home.2 ∈ r.interfaces ++ r.companion?.toList := by
  rw [homes] at hhome
  rcases List.mem_append.1 hhome with hhome | hhome
  · obtain ⟨i, hi, rfl⟩ := List.mem_map.1 hhome
    exact List.mem_append_left _ hi
  · obtain ⟨i, hi, rfl⟩ := List.mem_map.1 hhome
    exact List.mem_append_right _ hi

theorem declared_of_mem_homes {home : Bool × Interface} (hhome : home ∈ r.homes) :
    ∀ op ∈ home.2.methods, op ∈ r.declaredOperations :=
  fun _ hop => List.mem_append_left _ (List.mem_flatMap.2 ⟨_, mem_of_mem_homes hhome, hop⟩)

end Request

end ComponentViews
