import ComponentViews.Proofs.Synthesis.Skeleton
import ComponentViews.Proofs.Kinds.Stub

/-!
# Operands of skeletons

A handler reads each argument as what the parameter is declared as, and answers with what it
reads from the object behind the skeleton, or with a declared failure.
-/

namespace ComponentViews.Skeleton

open Marshalling

variable {named checked : Prop} [Known.AreFit named checked] {c : CodeContext} {h : Hierarchy}
  {unit target : String} {vars : List Variable} {params : List Ty} {result : Ty}

/-! ### The members of every skeleton -/

omit [Known.AreFit named checked] in
@[simp] theorem kindOf?_targetExpr :
    c.kindOf? (targetExpr unit target) = (Ty.named target).slotKind? := by
  simp [targetExpr]

omit [Known.AreFit named checked] in
theorem kinded_targetExpr (hfits : (Ty.named target).Fits named checked)
    (hc : c.Sees vars params result) : c.Kinded named checked (targetExpr unit target) := by
  simp [targetExpr, hfits, hc.kinded_this, hc.kindOf?_this]

section

variable (hunit : (Ty.named unit).isReference = true)

include hunit

theorem isKinded_tieMembers (htarget : (Ty.named target).isReference = true)
    (hfits : (Ty.named target).Fits named checked) :
    ∀ m ∈ tieMembers unit target, m.IsKinded named checked unit := by
  have hkind := Ty.slotKind?_of_isReference htarget
  simp only [tieMembers, List.forall_mem_cons]
  refine ⟨?_, ?_, ?_, ?_, ?_, ?_, by simp⟩ <;>
    refine Method.isKinded_ofBlock hunit fun c hc => ?_
  · simp only [List.forall_mem_cons, CodeContext.kindedStmt_setField]
    refine ⟨⟨⟨hc.kinded_this, hc.kindOf?_this⟩, ?_, hfits.writable⟩, by simp⟩
    simp [htarget, hkind, hc.kindOf?_arg (i := 0) rfl]
  · simp [kinded_targetExpr hfits hc, hkind, hc.result]
  · simp [hc.kinded_this, hc.kindOf?_this, hc.result]
  · simp [hc.kinded_this, hc.kindOf?_this, kinded_broker hc]
  · simp [kinded_broker hc, hc.result]
  · simp [hc.kinded_this, hc.kindOf?_this, hc.kindOf?_arg (i := 0) rfl]

theorem isKinded_invokeMethod (routes : Table String) :
    (invokeMethod unit routes).IsKinded named checked unit := by
  refine Method.isKinded_of_body rfl hunit fun c hc => ?_
  have hname : c.kindOf? (.arg 0) = some .reference :=
    (hc.kindOf?_arg rfl).trans Ty.slotKind?_string
  have hstream : c.kindOf? (.arg 1) = some .reference :=
    (hc.kindOf?_arg rfl).trans (Ty.slotKind?_named (by simp))
  have hreply : c.kindOf? (.arg 2) = some .reference :=
    (hc.kindOf?_arg rfl).trans (Ty.slotKind?_named (by simp))
  have hinput : c.kindOf? (.var input) = some .reference :=
    (hc.kindOf?_var rfl).trans (Ty.slotKind?_named (by simp))
  have hsystem : c.kindOf? (.var systemFailure) = some .reference :=
    (hc.kindOf?_var rfl).trans (Ty.slotKind?_named (by simp))
  have hfailure : c.kindOf? (.var failure) = some .reference :=
    (hc.kindOf?_var rfl).trans (Ty.slotKind?_named (by simp))
  have hresult : c.method.result.slotKind? = some .reference := by
    rw [hc.result]
    exact Ty.slotKind?_named (by simp)
  simp only [List.forall_mem_cons, CodeContext.kindedStmt_region, CodeContext.kindedStmt_switch]
  refine ⟨by simp [hstream, hinput], ⟨⟨⟨by simp [hname], fun x hx => ?_, by simp⟩, by simp⟩,
    ⟨by simp [hsystem], by simp [hfailure]⟩, by simp⟩, by simp⟩
  obtain ⟨b, -, rfl⟩ := List.mem_map.1 hx
  refine List.forall_mem_map.2 fun route _ => ?_
  simp [tryRoute, hname, hinput, hreply, hresult, hc.kinded_this, hc.kindOf?_this]

end

/-! ### Handlers -/

/-- The call of the object behind the skeleton, with the arguments that have been read. -/
def targetCall (h : Hierarchy) (unit target : String) (m : Served) : Expr :=
  .invoke .interface (.cast (.named m.interface) (targetExpr unit target)) m.interface
    m.operation.exposed.op.name m.operation.exposed.op.params m.operation.exposed.op.result
    (m.operation.exposed.op.params.map fun ty => read h ty (.arg 0))

section

variable {m : Served} (hm : m.operation.exposed.HasKinds named checked)

include hm

theorem kinded_targetCall (hc : c.Sees vars params result)
    (hstream : c.kindOf? (.arg 0) = some .reference)
    (htarget : (Ty.named target).isReference = true)
    (hinterface : (Ty.named m.interface).isReference = true)
    (hfits : (Ty.named target).Fits named checked) :
    c.Kinded named checked (targetCall h unit target m) := by
  have hread : ∀ ty ∈ m.operation.exposed.op.params, c.Kinded named checked (read h ty (.arg 0)) :=
    fun ty hty => kinded_read (hm.params ty hty) (by simp) hstream
  have hkinds : (m.operation.exposed.op.params.map fun ty => read h ty (.arg 0)).map c.kindOf? =
      m.operation.exposed.op.params.map Ty.slotKind? := by
    rw [List.map_map]
    exact List.map_congr_left fun ty hty => kindOf?_read (hm.params ty hty) _
  rw [targetCall, CodeContext.kinded_invoke, CodeContext.allKinded_iff, List.forall_mem_map,
    CodeContext.kinded_cast hinterface]
  exact ⟨⟨by decide, ⟨kinded_targetExpr hfits hc,
    by simpa using Ty.slotKind?_of_isReference htarget⟩,
    by simpa using Ty.slotKind?_of_isReference hinterface⟩, hread, hkinds, hm.call _⟩

theorem isKinded_handler (hunit : (Ty.named unit).isReference = true)
    (htarget : (Ty.named target).isReference = true)
    (hinterface : (Ty.named m.interface).isReference = true)
    (hfits : (Ty.named target).Fits named checked) :
    (handler h unit target m).IsKinded named checked unit := by
  refine Method.isKinded_of_body body_handler hunit fun c hc => ?_
  have hstream : c.kindOf? (.arg 0) = some .reference :=
    (hc.kindOf?_arg rfl).trans (Ty.slotKind?_named (by simp))
  have hreply : c.kindOf? (.arg 1) = some .reference :=
    (hc.kindOf?_arg rfl).trans (Ty.slotKind?_named (by simp))
  have hout : c.kindOf? (.var output) = some .reference :=
    (hc.kindOf?_var rfl).trans (Ty.slotKind?_named (by simp))
  have hresult : c.method.result.slotKind? = some .reference := by
    rw [hc.result]
    exact Ty.slotKind?_named (by simp)
  have hcall : c.Kinded named checked (targetCall h unit target m) :=
    kinded_targetCall hm hc hstream htarget hinterface hfits
  have hanswer : ∀ s ∈ answer h unit target m, c.KindedStmt named checked s := by
    simp only [answer, List.forall_mem_append]
    refine ⟨?_, by simp [hout, hresult]⟩
    split
    · simp only [List.forall_mem_cons]
      exact ⟨CodeContext.kindedStmt_eval.2 hcall, by simp [replyExpr, hreply, hout], by simp⟩
    · -- A result waits in a variable of its own type until the reply has been begun.
      rename_i hvoid
      have hvar : c.kindOf? (.var Skeleton.result) = m.operation.exposed.op.result.slotKind? :=
        hc.kindOf?_var (v := ⟨"result", m.operation.exposed.op.result⟩) (by
          simp [handlerVars, hvoid, Skeleton.result])
      simp only [List.forall_mem_cons]
      have hvoid : m.operation.exposed.op.result.isVoid = false := by simpa using hvoid
      exact ⟨CodeContext.kindedStmt_assign.2
          ⟨hcall, by simp [hvar], by simp [Ty.slotKind?_ne_none hvoid]⟩,
        by simp [replyExpr, hreply, hout], CodeContext.kindedStmt_eval.2
          (kinded_write hvoid (by simp) hout (by simp) hvar), by simp⟩
  have hcatches : ∀ x ∈ catches h m, c.KindedCatch named checked x := by
    refine List.forall_mem_map.2 fun failure hfailure => ?_
    have href := hm.failures failure hfailure
    refine ⟨href, fun i hi => ?_⟩
    have hi := hi.trans (Ty.slotKind?_of_isReference href).symm
    simp [answerFailure, Catch.ofFailure, replyExpr, hreply, hout, hresult,
      kinded_write (Ty.isVoid_of_isReference href) (CodeContext.kinded_var _) hout
        (CodeContext.kinded_var i) hi]
  show ∀ s ∈ handlerBlock h unit target m, c.KindedStmt named checked s
  rw [handlerBlock]
  split
  · exact hanswer
  · rw [List.forall_mem_singleton, CodeContext.kindedStmt_region]
    exact ⟨hanswer, CodeContext.kinded_handlers hc.kindOf?_binding hcatches, by simp⟩

end

/-! ### The class -/

/-- The skeleton is kinded if its operations have the kinds that it expects. -/
theorem isKinded_blueprint (hunit : (Ty.named unit).isReference = true)
    (htarget : (Ty.named target).isReference = true)
    (hfits : (Ty.named target).Fits named checked) {methods : List Served}
    (hmethods : ∀ m ∈ methods, m.operation.exposed.HasKinds named checked ∧
      (Ty.named m.interface).isReference = true) :
    (blueprint h unit target methods).IsKinded named checked := by
  simp only [Blueprint.IsKinded, blueprint, List.cons_append, List.forall_mem_cons,
    List.forall_mem_append, List.forall_mem_map]
  refine ⟨Method.isKinded_constructorOf _ hunit, ⟨isKinded_tieMembers hunit htarget hfits,
    isKinded_idsMethod hunit _, isKinded_invokeMethod hunit _, by simp⟩, fun m hm => ?_⟩
  rcases mem_foldl_addServed hm with hm | hm
  · exact absurd hm List.not_mem_nil
  · exact isKinded_handler (hmethods m hm).1 hunit htarget (hmethods m hm).2 hfits

end ComponentViews.Skeleton
