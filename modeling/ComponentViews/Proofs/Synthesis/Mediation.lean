import ComponentViews.Proofs.Distinct
import ComponentViews.Proofs.Execution.OperationLookup

/-!
# What gets past a wrapper that extends the bean class

A wrapper that extends the bean class inherits every method that it does not override, and calls
of an inherited method get past the container. Methods are overridden for four reasons: they are
exposed, they belong to the identity of the wrapper, messages are delivered through them, or they
stand guard in place of a method that is not public.

None of these ever overrides a method twice (`Wrapper.overriding_le_one`). Without interfaces all
public methods are exposed and no method gets past (`Wrapper.overriding_eq_one`). With interfaces
their operations are exposed and nothing else, so that the public methods that no interface lists
do get past (`Wrapper.overriding_eq_zero_iff`); the rules only ask that they are not final. A method
of which the class has no public declaration, and which no interface lists, is guarded: calls fail
before the container or a bean is asked (`Wrapper.exec_overriding`).
-/

namespace ComponentViews

open Effect

/-- The method has the signature of the operation. -/
def Method.hasSignature (m : Method) (op : Operation) : Bool :=
  m.name == op.name && m.params == op.params

/-- How often a class overrides a method. -/
def Blueprint.overriding (b : Blueprint) (op : Operation) : Nat :=
  b.methods.countP (·.hasSignature op)

/-- A subclass can override the method. -/
def Operation.isOverridable (op : Operation) : Bool :=
  !op.modifiers.isPrivate && !op.modifiers.isStatic && op.name != Known.constructor

theorem Method.hasSignature_iff {m : Method} {op : Operation} :
    m.hasSignature op = true ↔ m.name = op.name ∧ m.params = op.params := by
  simp [hasSignature]

namespace Request

variable {r : Request}

/-- Nothing in the name of a parameter's class ends a part of a descriptor. Dotted identifiers are
    such names. -/
def HasSeparableParams (r : Request) : Prop :=
  ∀ op ∈ r.declaredOperations, ∀ ty ∈ op.params, Text.Lacks [';', '/', '('] ty.name

instance (r : Request) : Decidable r.HasSeparableParams :=
  inferInstanceAs (Decidable (∀ op ∈ r.declaredOperations, ∀ ty ∈ op.params,
    Text.Lacks [';', '/', '('] ty.name))

/-- Every candidate is exposed, or another operation of its signature is. -/
theorem exists_exposed_key {op : Operation} (hop : op ∈ r.exposureCandidates) :
    ∃ exposed ∈ r.exposure.1, exposed.signatureKey = op.signatureKey := by
  -- No signature is lost on the way.
  have hkeeps : ∀ (candidates : List Operation) (found : List Operation × List String)
      (key : String), key ∈ found.1.map (·.signatureKey) ∨ key ∈ candidates.map (·.signatureKey) →
        key ∈ (candidates.foldl r.addExposed found).1.map (·.signatureKey) := by
    intro candidates
    induction candidates with
    | nil => exact fun found key hkey => hkey.resolve_right List.not_mem_nil
    | cons first rest ih =>
      intro found key hkey
      refine ih _ key ?_
      rw [List.map_cons, List.mem_cons] at hkey
      obtain ⟨ops, warnings⟩ := found
      simp only [addExposed]
      split
      · rw [List.map_append, List.mem_append, List.map_singleton, List.mem_singleton]
        tauto
      · rename_i seen hseen
        have hfirst : first.signatureKey ∈ ops.map (·.signatureKey) := by
          have hsame := List.find?_some hseen
          rw [← beq_iff_eq.1 hsame]
          exact List.mem_map_of_mem (List.mem_of_find?_eq_some hseen)
        have hkey : key ∈ ops.map (·.signatureKey) ∨ key ∈ rest.map (·.signatureKey) := by
          rcases hkey with hkey | rfl | hkey
          · exact .inl hkey
          · exact .inl hfirst
          · exact .inr hkey
        split
        · exact hkey
        · rwa [map_signatureKey_settled]
  obtain ⟨exposed, hexposed, hkey⟩ := List.mem_map.1
    (hkeeps r.exposureCandidates ([], []) op.signatureKey (.inr (List.mem_map_of_mem hop)))
  exact ⟨exposed, hexposed, hkey⟩

/-- The signatures that are exposed are those of the candidates. -/
theorem exists_exposed_iff (hr : r.HasSeparableParams) {op : Operation}
    (hop : op ∈ r.declaredOperations) :
    (∃ exposed ∈ r.exposure.1, exposed.sameSignature op = true) ↔
      ∃ candidate ∈ r.exposureCandidates, candidate.sameSignature op = true := by
  simp only [Operation.sameSignature_iff]
  constructor
  · rintro ⟨exposed, hexposed, hname, hparams⟩
    obtain ⟨candidate, hcandidate, hsame, hsameParams⟩ := HasPlainNames.exists_candidate hexposed
    exact ⟨candidate, hcandidate, hsame ▸ hname, hsameParams ▸ hparams⟩
  · rintro ⟨candidate, hcandidate, hname, hparams⟩
    obtain ⟨exposed, hexposed, hkey⟩ := exists_exposed_key hcandidate
    obtain ⟨visible, hvisible, -, hvisibleParams⟩ := HasPlainNames.exists_candidate hexposed
    obtain ⟨declared, hdeclared, lister, rfl⟩ :=
      exists_declared_of_visible (visible_of_mem_exposureCandidates hvisible)
    -- Signatures can be told from the keys by which they are exposed.
    have hsame := signature_injective
      (by rw [hvisibleParams, Operation.params_ownedBy]; exact hr declared hdeclared)
      (by rw [hparams]; exact hr op hop) hkey
    exact ⟨exposed, hexposed, hsame.1.trans hname, hsame.2.trans hparams⟩

theorem exists_candidate_of_interfaces (hinterfaces : r.interfaces ≠ []) {op : Operation} :
    (∃ candidate ∈ r.exposureCandidates, candidate.sameSignature op = true) ↔
      ∃ i ∈ r.interfaces, ∃ listed ∈ i.methods, listed.sameSignature op = true := by
  rw [exposureCandidates, if_neg (by simp [hinterfaces])]
  simp only [List.mem_flatMap, Interface.ownedMethods, List.mem_map, Operation.sameSignature_iff]
  constructor
  · rintro ⟨_, ⟨i, hi, listed, hlisted, rfl⟩, hsame⟩
    exact ⟨i, hi, listed, hlisted, by simpa using hsame⟩
  · rintro ⟨i, hi, listed, hlisted, hsame⟩
    exact ⟨_, ⟨i, hi, listed, hlisted, rfl⟩, by simpa using hsame⟩

theorem exists_candidate_of_no_interfaces (hkind : r.kind.isNoInterface = true)
    (hinterfaces : r.interfaces = []) {op : Operation} :
    (∃ candidate ∈ r.exposureCandidates, candidate.sameSignature op = true) ↔
      ∃ declared ∈ r.bean.methods, declared.modifiers.isPublic = true ∧
        declared.modifiers.isStatic = false ∧ declared.name ≠ Known.constructor ∧
          declared.sameSignature op = true := by
  rw [exposureCandidates, if_pos (by simp [hinterfaces, hkind])]
  have hmodifiers : ∀ m : Operation, (m.ownedBy r.bean.className).modifiers = m.modifiers := by
    intro m
    rw [Operation.ownedBy]
    split <;> rfl
  simp only [List.mem_filter, Bean.ownedMethods, List.mem_map, Operation.sameSignature_iff]
  constructor
  · rintro ⟨_, ⟨⟨declared, hdeclared, rfl⟩, hkept⟩, hsame⟩
    simp only [hmodifiers, Operation.name_ownedBy, Bool.and_eq_true, Bool.not_eq_true',
      bne_iff_ne] at hkept
    exact ⟨declared, hdeclared, hkept.1.1, hkept.1.2, hkept.2, by simpa using hsame⟩
  · rintro ⟨declared, hdeclared, hpublic, hstatic, hname, hsame⟩
    exact ⟨_, ⟨⟨declared, hdeclared, rfl⟩, by simp [hmodifiers, hpublic, hstatic, hname]⟩,
      by simpa using hsame⟩

end Request

namespace Wrapper

variable {r : Request} {h : Hierarchy} {policy : FailurePolicy} {table : DispatchTable}
  {op : Operation}

/-! ### At most once -/

theorem countP_hasSignature (methods : List Method) :
    methods.countP (·.hasSignature op) =
      (methods.map fun m => (m.name, m.params)).count (op.name, op.params) := by
  rw [List.count, List.countP_map]
  rfl

theorem countP_addMissing {methods extra : List Method}
    (hmethods : methods.countP (·.hasSignature op) ≤ 1) :
    (addMissing methods extra).countP (·.hasSignature op) ≤ 1 := by
  induction extra generalizing methods with
  | nil => exact hmethods
  | cons e extra ih =>
    rw [addMissing, List.foldl_cons]
    refine ih ?_
    split
    · exact hmethods
    · rename_i hnew
      rw [List.countP_append, List.countP_singleton]
      split
      · rename_i he
        -- What is added has a signature that was not there.
        have hnone : methods.countP (·.hasSignature op) = 0 := by
          refine List.countP_eq_zero.2 fun m hm hsame => hnew (List.any_eq_true.2 ⟨m, hm, ?_⟩)
          rw [Method.hasSignature_iff] at he hsame
          simp [he, hsame]
        omega
      · exact hmethods

/-- No method of the bean class is overridden twice. -/
theorem overriding_le_one (hname : op.name ≠ Known.constructor) :
    (blueprint r (r.exposedOperations h policy table)).overriding op ≤ 1 := by
  refine countP_addMissing ?_
  have hconstructor : (Method.constructorOf (r.kind.ancestor r.bean.className)).hasSignature op =
      false := by
    rw [Bool.eq_false_iff, Ne, Method.hasSignature_iff]
    exact fun hsame => hname hsame.1.symm
  rw [List.countP_cons_of_neg (by simp [hconstructor]), countP_hasSignature, List.map_map,
    Request.exposedOperations, List.map_map]
  exact List.nodup_iff_count_le_one.1 (nodup_of_signatures r.nodup_exposure) _

/-! ### Which methods are overridden -/

theorem exists_hasSignature_addMissing {methods extra : List Method} :
    (∃ m ∈ addMissing methods extra, m.hasSignature op = true) ↔
      (∃ m ∈ methods, m.hasSignature op = true) ∨ ∃ m ∈ extra, m.hasSignature op = true := by
  constructor
  · rintro ⟨m, hm, hsame⟩
    exact (mem_addMissing hm).imp (fun hm => ⟨m, hm, hsame⟩) fun hm => ⟨m, hm, hsame⟩
  · rintro (⟨m, hm, hsame⟩ | ⟨m, hm, hsame⟩)
    · exact ⟨m, subset_addMissing _ _ hm, hsame⟩
    · induction extra generalizing methods with
      | nil => exact absurd hm List.not_mem_nil
      | cons e extra ih =>
        rw [addMissing, List.foldl_cons]
        rcases List.mem_cons.1 hm with rfl | hm
        · split
          · rename_i hthere
            obtain ⟨d, hd, heq⟩ := List.any_eq_true.1 hthere
            refine ⟨d, subset_addMissing _ _ hd, ?_⟩
            rw [Method.hasSignature_iff] at hsame ⊢
            rw [Bool.and_eq_true, beq_iff_eq, beq_iff_eq] at heq
            exact ⟨heq.1.trans hsame.1, heq.2.trans hsame.2⟩
          · exact ⟨m, subset_addMissing _ _ (List.mem_append_right _ (List.mem_singleton_self m)),
              hsame⟩
        · exact ih hm

theorem exists_guard_iff (hkind : r.kind.isNoInterface = true) :
    (∃ m ∈ guards r, m.hasSignature op = true) ↔
      ∃ other ∈ r.bean.methods, needsGuard other = true ∧ other.sameSignature op = true := by
  have hmodifiers : ∀ m : Operation, needsGuard (m.ownedBy r.bean.className) = needsGuard m := by
    intro m
    rw [Operation.ownedBy]
    split <;> rfl
  rw [guards, if_pos hkind]
  simp only [List.mem_map, List.mem_filter, Bean.ownedMethods, Method.hasSignature_iff,
    Operation.sameSignature_iff]
  constructor
  · rintro ⟨_, ⟨_, ⟨⟨other, hother, rfl⟩, hguard⟩, rfl⟩, hsame⟩
    exact ⟨other, hother, by rwa [hmodifiers] at hguard, by simpa [guardOf] using hsame⟩
  · rintro ⟨other, hother, hguard, hsame⟩
    exact ⟨_, ⟨_, ⟨⟨other, hother, rfl⟩, by rwa [hmodifiers]⟩, rfl⟩,
      by simpa [guardOf] using hsame⟩

theorem exists_dispatch_iff (hname : op.name ≠ Known.constructor) :
    (∃ m ∈ Method.constructorOf (r.kind.ancestor r.bean.className) ::
      (r.exposedOperations h policy table).map fun m => (siteFor r m.op).method m,
        m.hasSignature op = true) ↔
      ∃ exposed ∈ r.exposure.1, exposed.sameSignature op = true := by
  simp only [Method.hasSignature_iff, Operation.sameSignature_iff]
  constructor
  · rintro ⟨m, hm, hsame⟩
    rcases List.mem_cons.1 hm with rfl | hm
    · exact absurd hsame.1.symm hname
    · obtain ⟨_, hsite, rfl⟩ := List.mem_map.1 hm
      obtain ⟨exposed, hexposed, rfl⟩ := List.mem_map.1 hsite
      exact ⟨exposed, hexposed, hsame⟩
  · rintro ⟨exposed, hexposed, hsame⟩
    exact ⟨_, List.mem_cons_of_mem _ (List.mem_map_of_mem (List.mem_map_of_mem hexposed)), hsame⟩

/-- The wrapper has a method of the signature besides those for what it exposes and its guards. -/
def HasMember (r : Request) (op : Operation) : Prop :=
  ∃ m ∈ identityMembers r.kind r.wrapperName ++ deliveryMembers r.kind r.wrapperName,
    m.hasSignature op = true

/-- A method is overridden if it is exposed, if the wrapper has it for another reason, or if the
    class has a declaration of it that needs a guard. -/
theorem overriding_pos_iff (hkind : r.kind.isNoInterface = true) (hr : r.HasSeparableParams)
    (hop : op ∈ r.bean.methods) (hname : op.name ≠ Known.constructor) :
    0 < (blueprint r (r.exposedOperations h policy table)).overriding op ↔
      (∃ candidate ∈ r.exposureCandidates, candidate.sameSignature op = true) ∨
        HasMember r op ∨
        ∃ other ∈ r.bean.methods, needsGuard other = true ∧ other.sameSignature op = true := by
  rw [Blueprint.overriding, List.countP_pos_iff]
  show (∃ m ∈ addMissing _ _, _) ↔ _
  rw [exists_hasSignature_addMissing, exists_dispatch_iff hname,
    Request.exists_exposed_iff hr (List.mem_append_right _ hop), ← exists_guard_iff hkind,
    HasMember]
  simp only [List.mem_append, or_and_right, exists_or]

/-- Without interfaces no method gets past the wrapper. -/
theorem overriding_eq_one (hkind : r.kind.isNoInterface = true) (hr : r.HasSeparableParams)
    (hinterfaces : r.interfaces = []) (hop : op ∈ r.bean.methods)
    (hover : op.isOverridable = true) :
    (blueprint r (r.exposedOperations h policy table)).overriding op = 1 := by
  simp only [Operation.isOverridable, Bool.and_eq_true, Bool.not_eq_true', bne_iff_ne] at hover
  obtain ⟨⟨hprivate, hstatic⟩, hname⟩ := hover
  have hsame : op.sameSignature op = true := Operation.sameSignature_iff.2 ⟨rfl, rfl⟩
  refine Nat.le_antisymm (overriding_le_one hname) ((overriding_pos_iff hkind hr hop hname).2 ?_)
  cases hpublic : op.modifiers.isPublic with
  | true =>
    exact .inl ((Request.exists_candidate_of_no_interfaces hkind hinterfaces).2
      ⟨op, hop, hpublic, hstatic, hname, hsame⟩)
  | false =>
    exact .inr (.inr ⟨op, hop, by simp [needsGuard, hpublic, hprivate, hstatic, hname], hsame⟩)

/-- With interfaces a method gets past the wrapper if none of them lists it, unless the wrapper has
    it for another reason or the class has a declaration of it that needs a guard. -/
theorem overriding_eq_zero_iff (hkind : r.kind.isNoInterface = true) (hr : r.HasSeparableParams)
    (hinterfaces : r.interfaces ≠ []) (hop : op ∈ r.bean.methods)
    (hname : op.name ≠ Known.constructor) :
    (blueprint r (r.exposedOperations h policy table)).overriding op = 0 ↔
      (∀ i ∈ r.interfaces, ∀ listed ∈ i.methods, listed.sameSignature op = false) ∧
        ¬ HasMember r op ∧
        ∀ other ∈ r.bean.methods, other.sameSignature op = true → needsGuard other = false := by
  rw [← Nat.le_zero, ← Nat.not_lt, overriding_pos_iff hkind hr hop hname,
    Request.exists_candidate_of_interfaces hinterfaces]
  simp only [not_or, not_exists, not_and, Bool.not_eq_true]
  exact ⟨fun ⟨hlisted, hmember, hguard⟩ => ⟨hlisted, hmember, fun other hother hsame =>
      Bool.eq_false_iff.2 fun hneeds => by simpa [hsame] using hguard other hother hneeds⟩,
    fun ⟨hlisted, hmember, hguard⟩ => ⟨hlisted, hmember, fun other hother hneeds =>
      Bool.eq_false_iff.2 fun hsame => by simpa [hneeds] using hguard other hother hsame⟩⟩

/-! ### Guards -/

theorem exec_guardOf {σ : Type} {b : Blueprint} {env : Environment σ} {this : ObjectRef}
    {depth : Nat} {args : List Value} {s : σ} :
    exec (b.runMethod env this (depth + 1) (guardOf op) args) s =
      (.error (env.raised Known.ejbException [.string]
          [.string Known.nonPublicMethodMessage] s).1,
        (env.raised Known.ejbException [.string] [.string Known.nonPublicMethodMessage] s).2) := by
  have hargs : exec ((b.activation env this depth args).evalAll
      [.const (.string Known.nonPublicMethodMessage)]) ⟨[], s⟩ =
      (.ok [.string Known.nonPublicMethodMessage], ⟨[], s⟩) :=
    Activation.exec_evalAll_singleton Activation.exec_eval_const
  exact Blueprint.exec_runMethod (m := guardOf op) rfl
    (Activation.exec_block_error (Activation.exec_stmt_throw_new hargs))

/-- A method of which the class has no public declaration, and which no interface lists, fails
    without reaching a bean, unless the wrapper has it for another reason. -/
theorem exec_overriding {σ : Type} (hkind : r.kind.isNoInterface = true)
    (hr : r.HasSeparableParams) (hop : op ∈ r.bean.methods) (hname : op.name ≠ Known.constructor)
    (hpublic : ∀ other ∈ r.bean.methods, other.sameSignature op = true →
      other.modifiers.isPublic = false)
    (hlisted : ∀ i ∈ r.interfaces, ∀ listed ∈ i.methods, listed.sameSignature op = false)
    (hmember : ¬ HasMember r op) {m : Method}
    (hm : m ∈ (blueprint r (r.exposedOperations h policy table)).methods)
    (hsame : m.hasSignature op = true) {b : Blueprint} {env : Environment σ} {this : ObjectRef}
    {depth : Nat} {args : List Value} {s : σ} :
    exec (b.runMethod env this (depth + 1) m args) s =
      (.error (env.raised Known.ejbException [.string]
          [.string Known.nonPublicMethodMessage] s).1,
        (env.raised Known.ejbException [.string] [.string Known.nonPublicMethodMessage] s).2) := by
  have hnone : ¬ ∃ candidate ∈ r.exposureCandidates, candidate.sameSignature op = true := by
    by_cases hinterfaces : r.interfaces = []
    · rw [Request.exists_candidate_of_no_interfaces hkind hinterfaces]
      rintro ⟨declared, hdeclared, hdeclaredPublic, -, -, hdeclaredSame⟩
      rw [hpublic declared hdeclared hdeclaredSame] at hdeclaredPublic
      cases hdeclaredPublic
    · rw [Request.exists_candidate_of_interfaces hinterfaces]
      rintro ⟨i, hi, listed, hi', hsame⟩
      rw [hlisted i hi listed hi'] at hsame
      cases hsame
  rcases mem_addMissing hm with hm | hm
  · refine absurd ?_ hnone
    rw [← Request.exists_exposed_iff hr (List.mem_append_right _ hop)]
    exact (exists_dispatch_iff hname).1 ⟨m, hm, hsame⟩
  · rcases List.mem_append.1 hm with hm | hm
    · exact absurd ⟨m, hm, hsame⟩ hmember
    · rw [guards, if_pos hkind] at hm
      obtain ⟨other, -, rfl⟩ := List.mem_map.1 hm
      exact exec_guardOf

end Wrapper

end ComponentViews
