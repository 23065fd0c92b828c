import ComponentViews.Code.Lowering
import ComponentViews.Proofs.ClassFile.Instruction
import ComponentViews.Proofs.ClassFile.Pool
import ComponentViews.Proofs.Descriptor.Slots
import ComponentViews.Verification.Code

/-!
# Code as a machine runs it

A machine takes the instruction at an offset from the bytes of a code array
(`Instruction.fetch?`). What an instruction takes off the operand stack and what it pushes is
told by its opcode and, where it names a field or method, by the descriptor in the constant
pool (`Instruction.effect?`). From offset 0 and an empty stack, control goes on to the next
instruction, along jumps, and from covered code to handlers; `CodeAttribute.Reaches` tells the
offsets that it comes to, with the depth of the stack there.

Code is *disciplined* (`CodeAttribute.Disciplined`) when every instruction that control comes
to has one depth, which is enough for what it takes and within the stack of the method, and
when loads and stores keep to the slots of the method.
-/

namespace ComponentViews

/-! ### Descriptors of members -/

/-- The name and type of a field or method. -/
def Constant.member? : Constant → Option UInt16
  | fieldRef _ nat | methodRef _ nat | interfaceMethodRef _ nat => some nat
  | _ => none

namespace Pool

/-- The descriptor of the field or method at an index. -/
def memberDescriptor? (p : Pool) (i : UInt16) : Option (List Char) :=
  ((p.get? i).bind Constant.member?).bind fun nat => (p.nameAndType? nat).map (·.2.toList)

theorem HasMember.memberDescriptor? {p : Pool} {make : UInt16 → UInt16 → Constant} {i : UInt16}
    {owner name descriptor : String} (h : p.HasMember make i owner name descriptor)
    (hmake : ∀ o nat, (make o nat).member? = some nat) :
    p.memberDescriptor? i = some descriptor.toList := by
  obtain ⟨o, nat, hget, -, hnat⟩ := h
  rw [Pool.memberDescriptor?, hget, Option.bind_some, hmake, Option.bind_some, hnat]
  rfl

theorem Extends.memberDescriptor? {p q : Pool} (h : p.Extends q) {i : UInt16} {d : List Char}
    (hi : p.memberDescriptor? i = some d) : q.memberDescriptor? i = some d := by
  obtain ⟨nat, hmember, hnat⟩ := Option.bind_eq_some_iff.1 hi
  obtain ⟨constant, hget, hmember⟩ := Option.bind_eq_some_iff.1 hmember
  obtain ⟨pair, hpair, hd⟩ := Option.map_eq_some_iff.1 hnat
  rw [Pool.memberDescriptor?, h i constant hget, Option.bind_some, hmember, Option.bind_some,
    h.nameAndType? hpair, Option.map_some, hd]

end Pool

/-! ### Effects on the stack -/

namespace Opcode

/-- What a load or store of a variable with some slots takes and pushes. -/
def accessEffect (isStore : Bool) (slots : Nat) : Nat × Nat :=
  if isStore then (slots, 0) else (0, slots)

/-- What an instruction without operands takes off the stack and pushes. -/
def plainEffect? (op : UInt8) : Option (Nat × Nat) :=
  if op = aconstNull then some (0, 1)
  else if 0x02 ≤ op ∧ op ≤ 0x08 then some (0, 1)
  else if lconst0 ≤ op ∧ op ≤ 0x0a then some (0, 2)
  else if fconst0 ≤ op ∧ op ≤ 0x0d then some (0, 1)
  else if dconst0 ≤ op ∧ op ≤ 0x0f then some (0, 2)
  else if isShortLocal op then
    some (accessEffect (istore0 ≤ op) (if (Instruction.shortLocal op).2 then 2 else 1))
  else if op = aaload then some (2, 1)
  else if op = aastore then some (3, 0)
  else if op = pop then some (1, 0)
  else if op = pop2 then some (2, 0)
  else if op = dup then some (1, 2)
  else if op = athrow then some (1, 0)
  else if op = ireturn ∨ op = freturn ∨ op = areturn then some (1, 0)
  else if op = lreturn ∨ op = dreturn then some (2, 0)
  else if op = vreturn then some (0, 0)
  else none

/-- What an instruction with the slot of a variable takes and pushes. -/
def localEffect (op : UInt8) : Nat × Nat :=
  accessEffect (istore ≤ op) (if Instruction.isWideLocal op then 2 else 1)

/-- What a jump takes. -/
def jumpEffect (op : UInt8) : Nat × Nat :=
  if op = goto then (0, 0) else if op = ifAcmpeq ∨ op = ifAcmpne then (2, 0) else (1, 0)

/-- What an instruction on a field or method with the given descriptor takes and pushes. -/
def memberEffect? (op : UInt8) (descriptor : List Char) : Option (Nat × Nat) :=
  if op = getstatic then some (0, Descriptor.slots descriptor)
  else if op = getfield then some (1, Descriptor.slots descriptor)
  else if op = putfield then some (1 + Descriptor.slots descriptor, 0)
  else if op = invokestatic then Descriptor.methodSlots? descriptor
  else (Descriptor.methodSlots? descriptor).map fun (args, result) => (1 + args, result)

/-- The instruction names a field or method. -/
def namesMember (op : UInt8) : Bool :=
  op == getstatic || op == getfield || op == putfield || op == invokevirtual ||
    op == invokespecial || op == invokestatic

/-- What any other instruction with a word behind its opcode takes and pushes. -/
def wordEffect (op : UInt8) : Nat × Nat :=
  if op = ldc2W then (0, 2)
  else if op = anewarray ∨ op = checkcast ∨ op = instanceof then (1, 1)
  else (0, 1)

end Opcode

namespace Instruction

/-- The slots that an instruction takes off the stack and those that it pushes. -/
def effect? (p : Pool) : Instruction → Option (Nat × Nat)
  | plain op => Opcode.plainEffect? op
  | byte op _ => if Opcode.isLocal op then some (Opcode.localEffect op) else some (0, 1)
  | wide op _ => some (Opcode.localEffect op)
  | word op i =>
    if Opcode.namesMember op then (p.memberDescriptor? i).bind (Opcode.memberEffect? op)
    else some (Opcode.wordEffect op)
  | interfaceCall i _ => (p.memberDescriptor? i).bind (Opcode.memberEffect? Opcode.invokeinterface)
  | jump op _ => some (Opcode.jumpEffect op)
  | switch _ _ => some (1, 0)

/-- The last slot that a load or store touches. -/
def lastSlot? : Instruction → Option Nat
  | wide op slot => some (slot.toNat + if isWideLocal op then 1 else 0)
  | i => i.highestSlot?

/-- What is in a pool does not change when more is added. -/
theorem effect?_mono {p q : Pool} (h : p.Extends q) {i : Instruction} {effect : Nat × Nat}
    (hi : i.effect? p = some effect) : i.effect? q = some effect := by
  have hmember : ∀ {index : UInt16} {f : List Char → Option (Nat × Nat)},
      (p.memberDescriptor? index).bind f = some effect →
        (q.memberDescriptor? index).bind f = some effect := by
    intro index f hf
    obtain ⟨d, hd, hf⟩ := Option.bind_eq_some_iff.1 hf
    rw [h.memberDescriptor? hd, Option.bind_some, hf]
  cases i with
  | word op index =>
    rw [effect?] at hi ⊢
    split at hi
    · rename_i hnames
      rw [if_pos hnames]
      exact hmember hi
    · rename_i hnames
      rw [if_neg hnames]
      exact hi
  | interfaceCall index slots => exact hmember hi
  | _ => exact hi

/-! ### Fetching -/

/-- The instruction at an offset. Besides what is decoded for verification, a machine knows
    the short form of the double 1.0, and does not look at the count of an interface call. -/
def fetch? (code : List UInt8) (pc : Nat) : Option Instruction :=
  match code.drop pc with
  | [] => none
  | op :: operands =>
    if op = Opcode.dconst0 + 1 then some (plain op)
    else if op = Opcode.invokeinterface then
      match operands with
      | a :: b :: slots :: 0 :: _ => some (interfaceCall (Word.of16 a b) slots)
      | _ => none
    else
      match decode pc op operands with
      | .ok (i, _) => some i
      | .error _ => none

/-- Whether a machine knows the instruction by its bytes. -/
def isKnown : Instruction → Bool
  | plain op => op == Opcode.dconst0 + 1 || (plain op).isListed
  | interfaceCall _ _ => true
  | i => i.isListed

theorem isKnown_of_isListed {i : Instruction} (h : i.isListed = true) : i.isKnown = true := by
  cases i with
  | plain op => rw [isKnown, h, Bool.or_true]
  | interfaceCall => rfl
  | _ => exact h

/-- An instruction is fetched from its bytes, whatever stands around them. -/
theorem fetch?_encode {i : Instruction} (hi : i.isKnown = true) (before after : List UInt8) :
    fetch? (before ++ (i.encode before.length ++ after)) before.length = some i := by
  rw [fetch?, List.drop_left]
  -- A machine knows two forms more than the decoder: 1.0 and calls that count no slots.
  by_cases hdouble : i = plain (Opcode.dconst0 + 1)
  · subst hdouble
    rfl
  by_cases hcall : ∃ index slots, i = interfaceCall index slots
  · obtain ⟨index, slots, rfl⟩ := hcall
    have hwords := Word.of16_bytes16 index
    simp only [encode, Word.bytes16, List.cons_append, List.nil_append] at hwords ⊢
    rw [if_neg (by decide), if_pos trivial, hwords]
  have hlisted : i.isListed = true := by
    cases i with
    | plain op =>
      rw [isKnown, Bool.or_eq_true] at hi
      exact hi.resolve_left fun h => hdouble (congrArg plain (beq_iff_eq.1 h))
    | interfaceCall index slots => exact absurd ⟨_, _, rfl⟩ hcall
    | _ => exact hi
  obtain ⟨op, operands, hencode, hdecode⟩ := decode_encode hlisted before.length
  have hdecode := hdecode after
  have hop : op ≠ Opcode.dconst0 + 1 := by
    rintro rfl
    cases hdecode
  have hop' : op ≠ Opcode.invokeinterface := by
    rintro rfl
    cases i with
    | interfaceCall index slots => exact hcall ⟨_, _, rfl⟩
    | wide | switch => exact absurd (List.cons.inj hencode).1 (by decide)
    | plain | byte | word | jump =>
      obtain ⟨rfl, -⟩ := List.cons.inj hencode
      cases hlisted
  rw [hencode, List.cons_append]
  simp only [if_neg hop, if_neg hop', hdecode]

end Instruction

/-! ### Control -/

namespace CodeAttribute

/-- Control comes to an offset with some depth of the stack. -/
inductive Reaches (code : CodeAttribute) (p : Pool) : Nat → Int → Prop where
  | start : Reaches code p 0 0
  /-- To the next instruction. -/
  | next {pc : Nat} {depth : Int} {i : Instruction} {takes pushes : Nat} :
      Reaches code p pc depth → Instruction.fetch? code.code pc = some i →
      i.effect? p = some (takes, pushes) → Opcode.isTerminal i.opcode = false →
      Reaches code p (pc + i.size pc) (depth - takes + pushes)
  /-- Along a jump or a case of a switch. -/
  | jump {pc : Nat} {depth : Int} {i : Instruction} {takes pushes target : Nat} :
      Reaches code p pc depth → Instruction.fetch? code.code pc = some i →
      i.effect? p = some (takes, pushes) → (target : Int) ∈ i.targets pc →
      Reaches code p target (depth - takes + pushes)
  /-- From covered code to a handler, which finds the failure alone on the stack. -/
  | fail {pc : Nat} {depth : Int} {e : ExceptionEntry} :
      Reaches code p pc depth → e ∈ code.table → e.start.toNat ≤ pc → pc < e.stop.toNat →
      Reaches code p e.handler.toNat 1

/-- The code keeps to its stack. -/
structure KeepsStack (code : CodeAttribute) (p : Pool) : Prop where
  /-- Control comes to instructions only, and each finds on the stack what it takes. -/
  runs : ∀ pc depth, code.Reaches p pc depth → ∃ i takes pushes,
    Instruction.fetch? code.code pc = some i ∧ i.effect? p = some (takes, pushes) ∧
      (takes : Int) ≤ depth
  /-- An instruction has one depth, however control comes to it. -/
  level : ∀ pc depth depth', code.Reaches p pc depth → code.Reaches p pc depth' →
    depth = depth'
  bounded : ∀ pc depth, code.Reaches p pc depth → 0 ≤ depth ∧ depth ≤ code.maxStack.toNat

/-- Loads and stores keep to the first `slots` slots, with both slots of a long or double. -/
def KeepsSlots (code : CodeAttribute) (p : Pool) (slots : Nat) : Prop :=
  ∀ pc depth i slot, code.Reaches p pc depth → Instruction.fetch? code.code pc = some i →
    i.lastSlot? = some slot → slot < slots

/-- The code keeps to its stack and to the slots of its variables. -/
structure Disciplined (code : CodeAttribute) (p : Pool) : Prop extends KeepsStack code p where
  slots : code.KeepsSlots p code.maxLocals.toNat

end CodeAttribute

end ComponentViews
