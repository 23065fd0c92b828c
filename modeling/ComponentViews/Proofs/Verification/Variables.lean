import ComponentViews.Proofs.Code.Pushes
import ComponentViews.Proofs.Verification.Lowering

/-!
# Variables of verified code

Verification keeps loads and stores to the variables of the method, whatever the bytes are. Where
the slot stands in the opcode or in one byte, both slots of a long or double are looked at. Where
it takes two bytes only the first one is, and then the second may be the slot behind the last
variable:

* `ClassFile.slots_of_ofVerifiedBytes`: what is accessed lies within the variables, or the access
  is of that form, takes two slots, and begins at the last variable;
* `CodeAttribute.exists_beyond`: with any number of variables, code that goes one slot too far is
  accepted.
-/

namespace ComponentViews

open Draft (accessOps)

namespace Instruction

/-- A load or store of a variable of a kind that begins at a slot. -/
inductive Accesses : Instruction → SlotKind → Nat → Prop where
  | short (isStore : Bool) (kind : SlotKind) {slot : Nat} : slot < 4 →
      Accesses (plain ((accessOps isStore kind).2 + UInt8.ofNat slot)) kind slot
  | byte (isStore : Bool) (kind : SlotKind) (slot : UInt8) :
      Accesses (byte (accessOps isStore kind).1 slot) kind slot.toNat
  | wide (isStore : Bool) (kind : SlotKind) (slot : UInt16) :
      Accesses (wide (accessOps isStore kind).1 slot) kind slot.toNat

/-- The slot is given in two bytes. -/
def IsWide (i : Instruction) : Prop := ∃ op slot, i = wide op slot

variable {i : Instruction} {kind : SlotKind} {slot : Nat}

/-- The slot that verification looks at is the last of the variable, but with two bytes the
    first. -/
theorem Accesses.highestSlot? (h : i.Accesses kind slot) :
    i.highestSlot? = some (slot + (kind.slots - 1)) ∨ i.IsWide ∧ i.highestSlot? = some slot := by
  cases h with
  | short isStore _ hslot => exact .inl (Draft.accessOps_short isStore kind _ hslot).2.1
  | byte isStore _ n =>
    obtain ⟨hlocal, -, -, hwide, -⟩ := Draft.accessOps_long isStore kind
    refine .inl ?_
    simp only [Instruction.highestSlot?, hlocal, if_true, hwide]
  | wide isStore _ n => exact .inr ⟨⟨_, _, rfl⟩, rfl⟩

end Instruction

namespace CodeAttribute

variable {code : CodeAttribute} {p : Pool} {descriptor : String} {pc slot : Nat}
  {i : Instruction} {kind : SlotKind}

theorem highestSlot?_lt_of_verifyInstruction {maxLocals : Nat} {returnOp : UInt8}
    (h : verifyInstruction p maxLocals returnOp pc i = .ok ())
    (hslot : i.highestSlot? = some slot) : slot < maxLocals := by
  rw [verifyInstruction, hslot] at h
  by_contra hge
  simp only [if_neg hge] at h
  split at h
  · cases h
  split at h
  · split at h
    · cases h
    · cases h
  · cases h

/-- Accepted code keeps to its variables, but for the second slot of a variable whose first is
    given in two bytes. -/
theorem slots_of_verify (h : code.verify p descriptor = .ok ())
    (hi : (pc, i) ∈ (Listing.ofCode code.code).instructions) (ha : i.Accesses kind slot) :
    slot + kind.slots ≤ code.maxLocals.toNat ∨
      i.IsWide ∧ kind.slots = 2 ∧ slot + 1 = code.maxLocals.toNat := by
  have hlt : ∀ n, i.highestSlot? = some n → n < code.maxLocals.toNat := fun _ hn =>
    highestSlot?_lt_of_verifyInstruction ((verify_eq_ok_iff.1 h).2.1 _ hi) hn
  have hpos := kind.slots_pos
  have htwo : kind.slots ≤ 2 := by cases kind <;> decide
  rcases ha.highestSlot? with hlast | ⟨hwide, hfirst⟩
  · have hlast := hlt _ hlast
    exact .inl (by omega)
  · have hfirst := hlt _ hfirst
    by_cases hfits : slot + kind.slots ≤ code.maxLocals.toNat
    · exact .inl hfits
    · exact .inr ⟨hwide, by omega, by omega⟩

/-- Instructions that load a long from the slot and the one behind it, and drop it. -/
def loading (slot : UInt16) : List Instruction :=
  [.wide Opcode.lload slot, .plain Opcode.pop2, .plain Opcode.vreturn]

theorem ofCode_loading (slot : UInt16) :
    Listing.ofCode (Listing.encodeAll 0 (loading slot)) =
      ⟨[(0, .wide Opcode.lload slot), (4, .plain Opcode.pop2), (5, .plain Opcode.vreturn)],
        none⟩ := by
  have hlisted : ∀ i ∈ loading slot, i.isListed = true := by
    simp only [loading, List.forall_mem_cons]
    exact ⟨rfl, rfl, rfl, List.forall_mem_nil _⟩
  exact Listing.ofCode_encodeAll hlisted

/-- These instructions in a method with a given number of slots. -/
def loadingCode (slot slots : UInt16) : CodeAttribute where
  maxStack := 2
  maxLocals := slots
  code := Listing.encodeAll 0 (loading slot)

/-- Of the slots of the load only the first is looked at. -/
theorem verify_loadingCode (p : Pool) {slot slots : UInt16} (h : slot < slots) :
    (loadingCode slot slots).verify p "()V" = .ok () := by
  have hreturn : Opcode.isReturn Opcode.lload = false := by decide
  have hload : verifyInstruction p slots.toNat Opcode.vreturn 0 (.wide Opcode.lload slot) =
      .ok () :=
    verifyInstruction_of (fun h => absurd (hreturn.symm.trans h) (by simp)) nofun fun _ hslot => by
      cases hslot
      exact h
  rw [verify_eq_ok_iff, loadingCode, ofCode_loading]
  refine ⟨rfl, ?_, ?_, rfl, List.forall_mem_nil _⟩
  · simp only [List.forall_mem_cons]
    exact ⟨hload, rfl, rfl, List.forall_mem_nil _⟩
  · simp only [List.forall_mem_cons]
    exact ⟨nofun, nofun, nofun, List.forall_mem_nil _⟩

/-- With any number of variables there is code that is accepted and loads a long from the last,
    so that it also touches the slot behind it. -/
theorem exists_beyond (p : Pool) {slots : UInt16} (hslots : 0 < slots) :
    ∃ code : CodeAttribute, code.maxLocals = slots ∧ code.verify p "()V" = .ok () ∧
      ∃ pc i, (pc, i) ∈ (Listing.ofCode code.code).instructions ∧
        i.Accesses .long (slots.toNat - 1) := by
  rw [UInt16.lt_iff_toNat_lt, UInt16.toNat_zero] at hslots
  have hlt := slots.toNat_lt
  have hlast : (UInt16.ofNat (slots.toNat - 1)).toNat = slots.toNat - 1 :=
    UInt16.toNat_ofNat_of_lt' (show slots.toNat - 1 < 65536 by omega)
  have hless : UInt16.ofNat (slots.toNat - 1) < slots := by
    rw [UInt16.lt_iff_toNat_lt, hlast]
    omega
  have haccess := Instruction.Accesses.wide false .long (.ofNat (slots.toNat - 1))
  rw [hlast] at haccess
  refine ⟨loadingCode _ slots, rfl, verify_loadingCode p hless, 0, _, ?_, haccess⟩
  rw [loadingCode, ofCode_loading]
  exact List.mem_cons_self

end CodeAttribute

namespace ClassFile

/-- The code of an accepted class file keeps to its variables, but for the second slot of a
    variable whose first is given in two bytes. -/
theorem slots_of_ofVerifiedBytes {bytes : List UInt8} {c : ClassFile}
    (h : ofVerifiedBytes bytes = .ok c) {m : Member} (hm : m ∈ c.methods) {code : CodeAttribute}
    (hcode : m.code? c.pool = some code) {pc slot : Nat} {i : Instruction} {kind : SlotKind}
    (hi : (pc, i) ∈ (Listing.ofCode code.code).instructions) (ha : i.Accesses kind slot) :
    slot + kind.slots ≤ code.maxLocals.toNat ∨
      i.IsWide ∧ kind.slots = 2 ∧ slot + 1 = code.maxLocals.toNat := by
  obtain ⟨-, -, -, -, -, -, hmethods⟩ := verify_eq_ok_iff.1 (verify_of_ofVerifiedBytes h)
  obtain ⟨descriptor, -, hverify⟩ := Member.verify_code (hmethods m hm) hcode
  exact CodeAttribute.slots_of_verify hverify hi ha

end ClassFile

end ComponentViews
