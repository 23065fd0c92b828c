import ComponentViews.Proofs.Synthesis.Dispatch
import ComponentViews.Synthesis.Wrapper

/-!
# Wrappers are accepted

Besides dispatch methods a wrapper has its constructor, members for its identity and for the
delivery of messages, and guards. None of their bodies depends on the operations exposed.
-/

namespace ComponentViews

namespace Wrapper

variable {h : Hierarchy}

theorem check_ownIdentity : ∀ m ∈ ownIdentity, m.check h = .ok () := by
  have hboolean : Ty.boolean.isVoid = false := by decide
  have hint : Ty.int.isVoid = false := by decide
  simp only [ownIdentity, List.forall_mem_cons]
  exact ⟨Method.check_ofBlock (by simp [hboolean]) (.inr (by simp [blockEnds, Stmt.ends])),
    Method.check_ofBlock (by simp [hint]) (.inr (by simp [blockEnds, Stmt.ends])), by simp⟩

theorem check_baseIdentity (unit : String) : ∀ m ∈ baseIdentity unit, m.check h = .ok () := by
  have hboolean : Ty.boolean.isVoid = false := by decide
  have hint : Ty.int.isVoid = false := by decide
  simp only [baseIdentity, List.forall_mem_cons]
  exact ⟨Method.check_ofBlock (by simp [hboolean]) (.inr (by simp [blockEnds, Stmt.ends])),
    Method.check_ofBlock (by simp [hint]) (.inr (by simp [blockEnds, Stmt.ends])), by simp⟩

theorem check_identityMembers (kind : ViewKind) (unit : String) :
    ∀ m ∈ identityMembers kind unit, m.check h = .ok () := by
  rw [identityMembers]
  split
  · simp
  split
  · exact check_ownIdentity
  · exact check_baseIdentity unit

theorem check_passOn (unit : String) (hook : Hook) (throws : List String) :
    (passOn unit hook throws).check h = .ok () := by
  refine Method.check_of_body rfl (Method.isStatic_of_public rfl) ?_ (.inl rfl)
  have hvoid : Ty.void.isVoid = true := by decide
  simp only [passOn, Method.ofBody, Body.ofBlock, List.forall_mem_cons]
  refine ⟨?_, by simp [hvoid], by simp⟩
  rw [Scope.checkStmt_eval, Scope.checkExpr_hook]
  exact ⟨by simp, by simp, Scope.checkExpr_forwardArgs⟩

theorem check_deliveryMembers (kind : ViewKind) (unit : String) :
    ∀ m ∈ deliveryMembers kind unit, m.check h = .ok () := by
  rw [deliveryMembers]
  split
  · simp [check_passOn]
  · simp

/-- A guard has at most the flag of protected methods. -/
theorem isStatic_guardOf (m : Operation) : (guardOf m).isStatic = false := by
  have hbits : Modifiers.protectedBit &&& Modifiers.staticBit = 0 := by decide
  simp [Method.isStatic, guardOf, UInt16.and_assoc, hbits]

theorem check_guardOf (m : Operation) : (guardOf m).check h = .ok () := by
  refine Method.check_of_body rfl (isStatic_guardOf m) ?_ (.inr ?_)
  · simp [guardOf, Body.ofBlock]
  · simp [Body.ofBlock, blockEnds, Stmt.ends]

theorem check_guards (r : Request) : ∀ m ∈ guards r, m.check h = .ok () := by
  rw [guards]
  split
  · exact List.forall_mem_map.2 fun m _ => check_guardOf m
  · simp

theorem mem_addMissing {methods extra : List Method} {m : Method}
    (hm : m ∈ addMissing methods extra) : m ∈ methods ∨ m ∈ extra := by
  induction extra generalizing methods with
  | nil => exact .inl hm
  | cons e extra ih =>
    rw [addMissing, List.foldl_cons] at hm
    rcases ih hm with hm | hm
    · split at hm
      · exact .inl hm
      · rcases List.mem_append.1 hm with hm | hm
        · exact .inl hm
        · exact .inr (List.mem_cons.2 (.inl (List.mem_singleton.1 hm)))
    · exact .inr (List.mem_cons_of_mem _ hm)

/-- Methods that are there stay. -/
theorem subset_addMissing (methods extra : List Method) : methods ⊆ addMissing methods extra := by
  induction extra generalizing methods with
  | nil => exact List.Subset.refl _
  | cons e extra ih =>
    rw [addMissing, List.foldl_cons]
    refine List.Subset.trans ?_ (ih _)
    split
    · exact List.Subset.refl _
    · exact List.subset_append_left _ _

/-- A wrapper has the dispatch methods of what it exposes. -/
theorem method_mem_blueprint (r : Request) {exposed : List ExposedOperation}
    {m : ExposedOperation} (hm : m ∈ exposed) :
    (siteFor r m.op).method m ∈ (blueprint r exposed).methods :=
  subset_addMissing _ _ (List.mem_cons_of_mem _ (List.mem_map_of_mem hm))

/-- The wrapper is accepted if the failures of each operation can be told apart. -/
theorem check_blueprint (r : Request) {exposed : List ExposedOperation}
    (hexposed : ∀ m ∈ exposed, m.failures.Handled h) :
    (blueprint r exposed).check h = .ok () := by
  refine Blueprint.check_eq_ok.2 fun m hm => ?_
  rcases mem_addMissing hm with hm | hm
  · rcases List.mem_cons.1 hm with rfl | hm
    · exact Method.check_constructorOf h _
    · obtain ⟨op, hop, rfl⟩ := List.mem_map.1 hm
      exact (siteFor r op.op).check_method (hexposed op hop)
  · simp only [List.mem_append] at hm
    rcases hm with (hm | hm) | hm
    · exact check_identityMembers r.kind r.wrapperName m hm
    · exact check_deliveryMembers r.kind r.wrapperName m hm
    · exact check_guards r m hm

end Wrapper

end ComponentViews
