import ComponentViews.Proofs.Code.Steps
import ComponentViews.Proofs.Code.Typing

/-!
# Loads, stores and constants

The short steps that expressions are made of: each emits an instruction that the verifier
accepts, and leaves the stack deeper by the slots of its value.
-/

namespace ComponentViews

open Sketch
open Lines (IsStart IsHandler extent)

variable {c : CodeContext} {checked : Prop} {room : Nat}

/-! ### Accepted instructions -/

namespace Accepts

variable {p : Pool} {slots : Nat} {i : Instruction}

/-- An instruction that names neither a constant nor a variable. -/
theorem plain (hknown : i.isKnown = true) (hlisted : checked → i.isListed = true)
    (hconstant : i.constant? = none) (hslot : i.lastSlot? = none)
    (hreturn : Opcode.isReturn i.opcode = false) : Accepts c checked p slots i where
  known := .inl hknown
  listed := fun h => .inl (hlisted h)
  constant := fun e he => absurd (hconstant.symm.trans he) (by simp)
  locals := fun slot hs => absurd (hslot.symm.trans hs) (by simp)
  returns := fun h => absurd (hreturn.symm.trans h) (by simp)

/-- An instruction that names a constant. -/
theorem naming {index : UInt16} {isKind : Constant → Bool} (hknown : i.isKnown = true)
    (hlisted : checked → i.isListed = true) (hconstant : i.constant? = some (index, isKind))
    (hkind : (p.get? index).any isKind = true) (hslot : i.lastSlot? = none)
    (hreturn : Opcode.isReturn i.opcode = false) : Accepts c checked p slots i where
  known := .inl hknown
  listed := fun h => .inl (hlisted h)
  constant := fun e he => by
    rw [hconstant, Option.some.injEq] at he
    rw [← he]
    exact hkind
  locals := fun slot hs => absurd (hslot.symm.trans hs) (by simp)
  returns := fun h => absurd (hreturn.symm.trans h) (by simp)

/-- A load or store of a variable that the method has. -/
theorem accessing {last : Nat} (hlisted : i.isListed = true) (hconstant : i.constant? = none)
    (hslot : i.lastSlot? = some last) (hlast : last < slots)
    (hreturn : Opcode.isReturn i.opcode = false) : Accepts c checked p slots i where
  known := .inl (Instruction.isKnown_of_isListed hlisted)
  listed := fun _ => .inl hlisted
  constant := fun e he => absurd (hconstant.symm.trans he) (by simp)
  locals := fun slot hs => by
    rw [hslot, Option.some.injEq] at hs
    omega
  returns := fun h => absurd (hreturn.symm.trans h) (by simp)

end Accepts

namespace Draft

theorem slotKind?_of_isVoid {ty : Ty} (h : ty.isVoid = false) :
    ty.slotKind? = some (kindOf ty) := by
  obtain ⟨kind, hkind⟩ := Ty.exists_slotKind? h
  rw [kindOf, hkind, Option.getD_some]

/-- The opcodes of the loads or stores of a kind. -/
def accessOps (isStore : Bool) (kind : SlotKind) : UInt8 × UInt8 :=
  if isStore then storeOps kind else loadOps kind

theorem accessOps_short (isStore : Bool) (kind : SlotKind) :
    ∀ k < 4, (Instruction.plain ((accessOps isStore kind).2 + UInt8.ofNat k)).isListed = true ∧
      (Instruction.plain ((accessOps isStore kind).2 + UInt8.ofNat k)).lastSlot? =
          some (k + (kind.slots - 1)) ∧
        Opcode.isReturn ((accessOps isStore kind).2 + UInt8.ofNat k) = false ∧
          Opcode.isTerminal ((accessOps isStore kind).2 + UInt8.ofNat k) = false ∧
            Opcode.plainEffect? ((accessOps isStore kind).2 + UInt8.ofNat k) =
              some (Opcode.accessEffect isStore kind.slots) := by
  cases isStore <;> cases kind <;> decide

theorem accessOps_long (isStore : Bool) (kind : SlotKind) :
    Opcode.isLocal (accessOps isStore kind).1 = true ∧
      ((accessOps isStore kind).1 == Opcode.ldc) = false ∧
        (Opcode.isPlain (accessOps isStore kind).1 ||
          Opcode.isShortLocal (accessOps isStore kind).1) = false ∧
          (if Instruction.isWideLocal (accessOps isStore kind).1 then 1 else 0) = kind.slots - 1 ∧
            Opcode.isReturn (accessOps isStore kind).1 = false ∧
              Opcode.isTerminal (accessOps isStore kind).1 = false ∧
                Opcode.localEffect (accessOps isStore kind).1 =
                  Opcode.accessEffect isStore kind.slots := by
  cases isStore <;> cases kind <;> decide

/-- The load or store of a slot. -/
abbrev accessOf (isStore : Bool) (kind : SlotKind) (slot : Nat) : Instruction :=
  Assembly.localAccess (accessOps isStore kind).1 (accessOps isStore kind).2 slot

/-- A load or store of a variable that the method has. -/
theorem accepts_accessOf {p : Pool} {slots slot : Nat} {kind : SlotKind} (isStore : Bool)
    (hword : slot < 65536) (hslot : slot + kind.slots ≤ slots) :
    Accepts c checked p slots (accessOf isStore kind slot) := by
  have hpos := SlotKind.slots_pos kind
  rw [accessOf, Assembly.localAccess]
  split
  · obtain ⟨hlisted, hlast, hreturn, -⟩ := accessOps_short isStore kind slot (by omega)
    exact .accessing hlisted rfl hlast (by omega) hreturn
  obtain ⟨hlocal, hldc, hplain, hwide, hreturn, -⟩ := accessOps_long isStore kind
  split
  · have htoNat : (UInt8.ofNat slot).toNat = slot :=
      UInt8.toNat_ofNat_of_lt' (show slot < 256 by omega)
    have hlast : (Instruction.byte (accessOps isStore kind).1 (UInt8.ofNat slot)).lastSlot? =
        some (slot + (kind.slots - 1)) := by
      simp only [Instruction.lastSlot?, Instruction.highestSlot?, hlocal, if_true, htoNat, hwide]
    refine .accessing ?_ ?_ hlast (by omega) hreturn
    · simp [Instruction.isListed, hplain, hlocal]
    · simp [Instruction.constant?, hldc]
  · have htoNat : (UInt16.ofNat slot).toNat = slot :=
      UInt16.toNat_ofNat_of_lt' (show slot < 65536 by omega)
    have hlast : (Instruction.wide (accessOps isStore kind).1 (UInt16.ofNat slot)).lastSlot? =
        some (slot + (kind.slots - 1)) := by
      simp only [Instruction.lastSlot?, htoNat, hwide]
    exact .accessing hlocal rfl hlast (by omega) hreturn

theorem isTerminal_accessOf (isStore : Bool) (kind : SlotKind) (slot : Nat) :
    Opcode.isTerminal (accessOf isStore kind slot).opcode = false := by
  rw [accessOf, Assembly.localAccess]
  split
  · exact (accessOps_short isStore kind slot (by omega)).2.2.2.1
  · obtain ⟨-, -, -, -, -, hterminal, -⟩ := accessOps_long isStore kind
    split <;> exact hterminal

theorem effect?_accessOf (p : Pool) (isStore : Bool) (kind : SlotKind) (slot : Nat) :
    (accessOf isStore kind slot).effect? p = some (Opcode.accessEffect isStore kind.slots) := by
  rw [accessOf, Assembly.localAccess]
  split
  · exact (accessOps_short isStore kind slot (by omega)).2.2.2.2
  · obtain ⟨hlocal, -, -, -, -, -, heffect⟩ := accessOps_long isStore kind
    split
    · rw [Instruction.effect?, hlocal, if_pos rfl, heffect]
    · rw [Instruction.effect?, heffect]

theorem targets_accessOf (isStore : Bool) (kind : SlotKind) (slot pc : Nat) :
    (accessOf isStore kind slot).targets pc = [] := by
  rw [accessOf, Assembly.localAccess]
  split
  · rfl
  · split <;> rfl

/-! ### Loads and stores -/

variable {s : Sketch c checked room} {n : Nat} {ty : Ty} {slot : Nat}

theorem IsTaken.later {t : Sketch c checked room} (h : IsTaken s ty slot) (hst : Later s t) :
    IsTaken t ty slot :=
  ⟨h.value, h.word, Nat.le_trans h.taken hst.slots⟩

theorem IsTaken.slots_eq (h : IsTaken s ty slot) : ty.slots = (kindOf ty).slots :=
  Ty.slots_of_slotKind? (slotKind?_of_isVoid h.value)

theorem IsTaken.accepts (h : IsTaken s ty slot) (isStore : Bool) :
    Accepts c checked s.draft.pool s.slots (accessOf isStore (kindOf ty) slot) := by
  refine accepts_accessOf isStore h.word ?_
  rw [← h.slots_eq]
  exact h.taken

theorem yields_load (halive : s.asm.alive = true) (htaken : IsTaken s ty slot)
    (hroom : s.depth + ty.slots ≤ room) :
    Yields n (load ty slot) s fun _ t => Straight s t ∧ t.depth = s.depth + ty.slots := by
  have heffect := effect?_accessOf s.draft.pool false (kindOf ty) slot
  rw [Opcode.accessEffect, ← htaken.slots_eq] at heffect
  exact yields_emit (i := accessOf false (kindOf ty) slot) halive heffect (by simp) rfl hroom
    (htaken.accepts false) (targets_accessOf _ _ _) (isTerminal_accessOf ..)

/-- A value is stored, whose slots are those of a type. -/
theorem yields_store_line {below : Nat} (halive : s.asm.alive = true)
    (htaken : IsTaken s ty slot) (hdepth : s.depth = below + ty.slots) :
    Yields n (store ty slot) s fun _ t => Straight s t ∧ t.depth = below ∧
      t.lines = s.lines ++ [.instr (accessOf true (kindOf ty) slot)] ∧
        t.depths (extent s.lines) = s.depth := by
  have heffect := effect?_accessOf s.draft.pool true (kindOf ty) slot
  rw [Opcode.accessEffect, ← htaken.slots_eq] at heffect
  have hwithin := s.depth_le
  exact yields_emit_line (i := accessOf true (kindOf ty) slot) halive heffect
    (Int.add_right_neg _) hdepth (by omega) (htaken.accepts true) (targets_accessOf _ _ _)
    (isTerminal_accessOf ..)

theorem yields_store {below : Nat} (halive : s.asm.alive = true) (htaken : IsTaken s ty slot)
    (hdepth : s.depth = below + ty.slots) :
    Yields n (store ty slot) s fun _ t => Straight s t ∧ t.depth = below :=
  (yields_store_line halive htaken hdepth).weaken fun _ _ h => ⟨h.1, h.2.1⟩

theorem slots_object : Ty.object.slots = 1 := by decide

/-- A reference is taken from the top of the stack. Where nothing lies below it, a handler can
    begin with that. -/
theorem yields_storeReference {below : Nat} (halive : s.asm.alive = true)
    (htaken : IsTaken s .object slot) (hdepth : s.depth = below + 1) :
    Yields n (storeReference slot) s fun _ t =>
      Straight s t ∧ t.depth = below ∧
        (below = 0 → IsHandler t.lines t.depths (extent s.lines)) := by
  refine (yields_store_line halive htaken (by rw [slots_object]; exact hdepth)).weaken ?_
  rintro - t ⟨hst, ht, hlines, hkept⟩
  refine ⟨hst, ht, fun hbelow => ⟨?_, by rw [hkept, hdepth, hbelow]⟩⟩
  rw [hlines]
  exact Lines.isStart_extent s.lines _ []

theorem yields_loadReference (halive : s.asm.alive = true)
    (htaken : IsTaken s .object slot) (hroom : s.depth + 1 ≤ room) :
    Yields n (loadReference slot) s fun _ t => Straight s t ∧ t.depth = s.depth + 1 := by
  rw [← slots_object] at hroom ⊢
  exact yields_load halive htaken hroom

/-! ### Constants -/

/-- An instruction that pushes without taking anything or naming anything. -/
theorem yields_push {i : Instruction} {slots : Nat} (halive : s.asm.alive = true)
    (heffect : i.effect? s.draft.pool = some (0, slots)) (hroom : s.depth + slots ≤ room)
    (hi : Accepts c checked s.draft.pool s.slots i)
    (hleads : ∀ pc, i.targets pc = []) (hgoes : Opcode.isTerminal i.opcode = false) :
    Yields n (emit i slots) s fun _ t => Straight s t ∧ t.depth = s.depth + slots :=
  yields_emit halive heffect (by simp) rfl hroom hi hleads hgoes

theorem yields_pushConstant {i : UInt16} (halive : s.asm.alive = true)
    (hconstant : (s.draft.pool.get? i).any Constant.isLoadable = true)
    (hroom : s.depth + 1 ≤ room) :
    Yields n (pushConstant i) s fun _ t => Straight s t ∧ t.depth = s.depth + 1 := by
  rw [pushConstant]
  split
  · rename_i hi
    have hbyte : i.toUInt8.toUInt16 = i := by
      have hi : i.toNat ≤ 255 := hi
      apply UInt16.toNat_inj.1
      rw [UInt8.toNat_toUInt16, UInt16.toNat_toUInt8]
      omega
    refine yields_push halive rfl hroom (.naming rfl (fun _ => rfl) rfl ?_ rfl rfl)
      (fun _ => rfl) rfl
    rw [hbyte]
    exact hconstant
  · exact yields_push halive rfl hroom (.naming rfl (fun _ => rfl) rfl hconstant rfl rfl)
      (fun _ => rfl) rfl

theorem yields_pushWide {i : UInt16} (halive : s.asm.alive = true)
    (hconstant : (s.draft.pool.get? i).any Constant.isWide = true) (hroom : s.depth + 2 ≤ room) :
    Yields n (pushWide i) s fun _ t => Straight s t ∧ t.depth = s.depth + 2 :=
  yields_push halive rfl hroom (.naming rfl (fun _ => rfl) rfl hconstant rfl rfl)
    (fun _ => rfl) rfl

/-- Pushes a constant that is added to the pool first. -/
theorem yields_addAndPush {c' : Constant} {push : UInt16 → Lower Unit} {isKind : Constant → Bool}
    {slots : Nat} (hunusable : c' ≠ .unusable) (hlinks : ∀ p : Pool, p.Links c')
    (hkind : isKind c' = true)
    (hpush : ∀ t : Sketch c checked room, Straight s t → t.depth = s.depth → ∀ i,
      (t.draft.pool.get? i).any isKind = true →
        Yields n (push i) t fun _ u => Straight t u ∧ u.depth = t.depth + slots) :
    Yields n (do push (← addConstant (Pool.intern c'))) s fun _ u =>
      Straight s u ∧ u.depth = s.depth + slots := by
  refine (yields_addConstant (F := fun i q => q.get? i = some c')
    fun i q hrun => Pool.spec_intern s.drawn.pool hunusable (fun _ => hlinks _) hrun).andThen ?_
  rintro i t ⟨hst, hdepth, hget⟩
  refine (hpush t hst hdepth i (by rw [hget]; exact hkind)).weaken ?_
  rintro - u ⟨htu, hu⟩
  exact ⟨hst.trans htu, by rw [hu, hdepth]⟩

/-- A constant of one slot. -/
theorem yields_addAndPushConstant {c' : Constant} (hunusable : c' ≠ .unusable)
    (hlinks : ∀ p : Pool, p.Links c') (hkind : c'.isLoadable = true)
    (halive : s.asm.alive = true) (hroom : s.depth + 1 ≤ room) :
    Yields n (do pushConstant (← addConstant (Pool.intern c'))) s fun _ u =>
      Straight s u ∧ u.depth = s.depth + 1 :=
  yields_addAndPush hunusable hlinks hkind fun _ hst ht _ hi =>
    yields_pushConstant (by rw [hst.alive, halive]) hi (by rw [ht]; exact hroom)

/-- A constant of two slots. -/
theorem yields_addAndPushWide {c' : Constant} (hunusable : c' ≠ .unusable)
    (hlinks : ∀ p : Pool, p.Links c') (hkind : c'.isWide = true)
    (halive : s.asm.alive = true) (hroom : s.depth + 2 ≤ room) :
    Yields n (do pushWide (← addConstant (Pool.intern c'))) s fun _ u =>
      Straight s u ∧ u.depth = s.depth + 2 :=
  yields_addAndPush hunusable hlinks hkind fun _ hst ht _ hi =>
    yields_pushWide (by rw [hst.alive, halive]) hi (by rw [ht]; exact hroom)

theorem yields_pushInt {k : Int32} (halive : s.asm.alive = true) (hroom : s.depth + 1 ≤ room) :
    Yields n (pushInt k) s fun _ t => Straight s t ∧ t.depth = s.depth + 1 := by
  rw [pushInt]
  split
  · rename_i hk
    have hcases : k = -1 ∨ k = 0 ∨ k = 1 ∨ k = 2 ∨ k = 3 ∨ k = 4 ∨ k = 5 := by
      obtain ⟨hlow, hhigh⟩ := hk
      rw [Int32.le_iff_toInt_le] at hlow hhigh
      have hlow : -1 ≤ k.toInt := hlow
      have hhigh : k.toInt ≤ 5 := hhigh
      simp only [← Int32.toInt_inj]
      show k.toInt = -1 ∨ k.toInt = 0 ∨ k.toInt = 1 ∨ k.toInt = 2 ∨ k.toInt = 3 ∨ k.toInt = 4 ∨
        k.toInt = 5
      omega
    rcases hcases with rfl | rfl | rfl | rfl | rfl | rfl | rfl <;>
      exact yields_push halive rfl hroom (.plain rfl (fun _ => rfl) rfl rfl rfl) (fun _ => rfl) rfl
  split
  · exact yields_push halive rfl hroom (.plain rfl (fun _ => rfl) rfl rfl rfl) (fun _ => rfl) rfl
  split
  · exact yields_push halive rfl hroom (.plain rfl (fun _ => rfl) rfl rfl rfl) (fun _ => rfl) rfl
  · exact yields_addAndPushConstant (by simp) (fun _ => trivial) rfl halive hroom

/-- A literal of two slots that are a floating point number is pushed: 0.0 and 1.0 by short forms,
    of which the verifier does not know the one of 1.0. -/
theorem yields_pushDouble {bits : UInt64} (halive : s.asm.alive = true)
    (hbits : checked → bits ≠ 0x3ff0000000000000) (hroom : s.depth + 2 ≤ room) :
    Yields n (pushLiteral (.double bits)) s fun _ t => Straight s t ∧ t.depth = s.depth + 2 := by
  rw [pushLiteral]
  split
  · rename_i i hi
    have hlt : i < 2 := (List.findIdx?_eq_some_iff_findIdx_eq.1 hi).1
    have hcases : i = 0 ∨ i = 1 := by omega
    -- If the verifier is to accept it, 0.0 is left.
    have hlisted : checked → i = 0 := fun hchecked => hcases.resolve_right fun hone => by
      subst hone
      refine hbits hchecked ?_
      simp only [shortDoubles, List.idxOf?, List.findIdx?_cons, List.findIdx?_nil,
        beq_iff_eq] at hi
      split at hi
      · cases hi
      · split at hi
        · rename_i h
          rw [← h]
        · cases hi
    refine yields_push halive ?_ hroom (.plain ?_ (fun hchecked => ?_) rfl ?_ ?_)
      (fun _ => rfl) ?_
    case refine_3 =>
      rw [hlisted hchecked]
      rfl
    all_goals rcases hcases with rfl | rfl <;> rfl
  · exact yields_addAndPushWide (by simp) (fun _ => trivial) rfl halive hroom

/-- A literal is pushed, with the slots of its type. -/
theorem yields_pushLiteral {l : Literal} (halive : s.asm.alive = true)
    (hl : checked → l ≠ .double 0x3ff0000000000000)
    (hroom : s.depth + (c.typeOf (.const l)).slots ≤ room) :
    Yields n (pushLiteral l) s fun _ t =>
      Straight s t ∧ t.depth = s.depth + (c.typeOf (.const l)).slots := by
  cases l with
  | null =>
    exact yields_push halive rfl hroom (.plain rfl (fun _ => rfl) rfl rfl rfl) (fun _ => rfl) rfl
  | bool b => exact yields_pushInt halive hroom
  | int k => exact yields_pushInt halive hroom
  | long k =>
    rw [pushLiteral]
    -- Two numbers have short forms, and all others are in the pool.
    split
    · rename_i hk
      rcases hk with rfl | rfl <;>
        exact yields_push halive rfl hroom (.plain rfl (fun _ => rfl) rfl rfl rfl)
          (fun _ => rfl) rfl
    · exact yields_addAndPushWide (by simp) (fun _ => trivial) rfl halive hroom
  | float bits =>
    rw [pushLiteral]
    split
    · rename_i i hi
      have hlt : i < 3 := (List.findIdx?_eq_some_iff_findIdx_eq.1 hi).1
      have hcases : i = 0 ∨ i = 1 ∨ i = 2 := by omega
      rcases hcases with rfl | rfl | rfl <;>
        exact yields_push halive rfl hroom (.plain rfl (fun _ => rfl) rfl rfl rfl)
          (fun _ => rfl) rfl
    · exact yields_addAndPushConstant (by simp) (fun _ => trivial) rfl halive hroom
  | double bits => exact yields_pushDouble halive (fun hchecked => by simpa using hl hchecked) hroom
  | string text =>
    refine (yields_addConstant fun i q hrun =>
      Pool.spec_addString s.drawn.pool hrun).andThen ?_
    rintro i t ⟨hst, ht, text, hget, -⟩
    refine (yields_pushConstant (by rw [hst.alive, halive]) (by rw [hget]; rfl)
      (by rw [ht]; exact hroom)).weaken ?_
    rintro - u ⟨htu, hu⟩
    exact ⟨hst.trans htu, by rw [hu, ht]; rfl⟩

end Draft

end ComponentViews
