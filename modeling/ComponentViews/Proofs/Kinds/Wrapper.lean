import ComponentViews.Proofs.Kinds.Dispatch
import ComponentViews.Proofs.Synthesis.Wrapper

/-!
# Operands of wrappers

Besides dispatch methods a wrapper has members that call what is known beforehand, so that they
are kinded whatever the request is.
-/

namespace ComponentViews.Wrapper

variable {named checked : Prop} [Known.AreFit named checked] {unit : String}
  (hunit : (Ty.named unit).isReference = true)

include hunit

theorem isKinded_ownIdentity : ∀ m ∈ ownIdentity, m.IsKinded named checked unit := by
  simp only [ownIdentity, List.forall_mem_cons]
  refine ⟨?_, ?_, by simp⟩ <;> refine Method.isKinded_ofBlock hunit fun c hc => ?_
  · simp [hc.kinded_this, hc.kindOf?_this, hc.kindOf?_arg (i := 0) rfl, hc.result]
  · simp [hc.kinded_this, hc.kindOf?_this, hc.result]

theorem isKinded_baseIdentity : ∀ m ∈ baseIdentity unit, m.IsKinded named checked unit := by
  simp only [baseIdentity, List.forall_mem_cons]
  refine ⟨?_, ?_, by simp⟩ <;> refine Method.isKinded_ofBlock hunit fun c hc => ?_
  · simp [hc.kinded_this, hc.kindOf?_this, hc.kindOf?_arg (i := 0) rfl, hc.result, hunit,
      Ty.slotKind?_of_isReference hunit]
  · simp [hc.kinded_this, hc.kindOf?_this, hc.result]

theorem isKinded_identityMembers (kind : ViewKind) :
    ∀ m ∈ identityMembers kind unit, m.IsKinded named checked unit := by
  rw [identityMembers]
  split
  · simp
  split
  · exact isKinded_ownIdentity hunit
  · exact isKinded_baseIdentity hunit

theorem isKinded_passOn {hook : Hook} (throws : List String)
    (hfits : FitsCall named checked .virtual hook.params hook.result) :
    (passOn unit hook throws).IsKinded named checked unit := by
  refine Method.isKinded_of_body rfl hunit fun c hc => ?_
  simp only [passOn, Method.ofBody, Body.ofBlock] at hc ⊢
  simp [hc.kinded_this, hc.kindOf?_this, hc.map_forwardArgs, hfits]

theorem isKinded_deliveryMembers (kind : ViewKind) :
    ∀ m ∈ deliveryMembers kind unit, m.IsKinded named checked unit := by
  rw [deliveryMembers]
  split
  · simp only [List.forall_mem_cons]
    exact ⟨isKinded_passOn hunit _ (by simp [Hook.beforeDelivery]),
      isKinded_passOn hunit _ (by simp [Hook.afterDelivery]),
      isKinded_passOn hunit _ (by simp [Hook.release]), by simp⟩
  · simp

theorem isKinded_guards (r : Request) : ∀ m ∈ guards r, m.IsKinded named checked unit := by
  rw [guards]
  split
  · exact List.forall_mem_map.2 fun m _ => Method.isKinded_of_body rfl hunit fun c _ => by
      simp [Body.ofBlock]
  · simp

omit hunit in
/-- The wrapper is kinded if the operations exposed have the kinds that it expects. -/
theorem isKinded_blueprint {r : Request} {exposed : List ExposedOperation}
    (hunit : (Ty.named r.wrapperName).isReference = true)
    (hfactory : (Ty.named r.factoryName).isReference = true)
    (hbean : (Ty.named r.bean.className).isReference = true)
    (hexposed : ∀ m ∈ exposed, m.HasKinds named checked) :
    (blueprint r exposed).IsKinded named checked := by
  intro m hm
  rcases mem_addMissing hm with hm | hm
  · rcases List.mem_cons.1 hm with rfl | hm
    · exact Method.isKinded_constructorOf _ hunit
    · obtain ⟨op, hop, rfl⟩ := List.mem_map.1 hm
      refine DispatchSite.isKinded_method hunit ?_ (hexposed op hop)
      rw [siteFor]
      dsimp only
      split
      · exact hfactory
      · exact hbean
  · simp only [List.mem_append] at hm
    rcases hm with (hm | hm) | hm
    · exact isKinded_identityMembers hunit r.kind m hm
    · exact isKinded_deliveryMembers hunit r.kind m hm
    · exact isKinded_guards hunit r m hm

end ComponentViews.Wrapper
