import ComponentViews.ClassFile.Opcode
import ComponentViews.ClassFile.Word

/-!
# Instructions

An instruction is an opcode with operands of one of a few shapes. `Instruction.decode`
takes the next instruction off the bytes of a code array, as far as the opcodes known
here go. The operands of a switch begin at an offset divisible by four, so decoding
has to know the offset of the instruction.
-/

namespace ComponentViews

/-- An instruction. Jumps are relative to the instruction itself. -/
inductive Instruction where
  | plain (op : UInt8)
  | byte (op operand : UInt8)
  | word (op : UInt8) (operand : UInt16)
  /-- A call of an interface method, with the slots of the arguments and receiver. -/
  | interfaceCall (index : UInt16) (slots : UInt8)
  /-- A load or store whose slot takes two bytes. -/
  | wide (op : UInt8) (slot : UInt16)
  | jump (op : UInt8) (offset : Int16)
  | switch (otherwise : Int32) (cases : List (Int32 × Int32))
deriving DecidableEq, Repr

namespace Instruction

/-- The opcode; of a wide load or store, that of the load or store. -/
def opcode : Instruction → UInt8
  | plain op | byte op _ | word op _ | wide op _ | jump op _ => op
  | interfaceCall _ _ => Opcode.invokeinterface
  | switch _ _ => Opcode.lookupswitch

/-- The bytes between the opcode of a switch at `pc` and its operands. -/
def switchPadding (pc : Nat) : Nat := (3 - pc % 4) % 4

/-- The bytes of an instruction at `pc`. -/
def encode (pc : Nat) : Instruction → List UInt8
  | plain op => [op]
  | byte op operand => [op, operand]
  | word op operand => op :: Word.bytes16 operand
  | interfaceCall index slots => Opcode.invokeinterface :: Word.bytes16 index ++ [slots, 0]
  | wide op slot => Opcode.wide :: op :: Word.bytes16 slot
  | jump op offset => op :: Word.bytes16 offset.toUInt16
  | switch otherwise cases =>
    Opcode.lookupswitch :: List.replicate (switchPadding pc) 0 ++
      Word.bytes32 otherwise.toUInt32 ++ Word.bytes32 (UInt32.ofNat cases.length) ++
      cases.flatMap fun (key, offset) =>
        Word.bytes32 key.toUInt32 ++ Word.bytes32 offset.toUInt32

/-- The number of bytes of an instruction at `pc`. -/
def size (pc : Nat) : Instruction → Nat
  | plain _ => 1
  | byte _ _ => 2
  | word _ _ | jump _ _ => 3
  | wide _ _ => 4
  | interfaceCall _ _ => 5
  | switch _ cases => 1 + switchPadding pc + 8 + 8 * cases.length

/-- The offsets of the instructions that a jump or switch leads to, besides the next. -/
def targets (pc : Nat) : Instruction → List Int
  | jump _ offset => [(pc : Int) + offset.toInt]
  | switch otherwise cases =>
    ((pc : Int) + otherwise.toInt) :: cases.map fun (_, offset) => (pc : Int) + offset.toInt
  | _ => []

/-- Why bytes are no instruction. -/
inductive Fault where
  | truncated (pc : Nat)
  | unsupported (op : UInt8) (pc : Nat)
  /-- The call of an interface method has no slots, or a byte after them that is not 0. -/
  | badInterfaceCall (pc : Nat) (index : UInt16)
deriving DecidableEq, Repr

/-- The integer in the next four bytes, and the bytes behind it. -/
def takeInt32? : List UInt8 → Option (Int32 × List UInt8)
  | a :: b :: c :: d :: rest => some ((Word.of32 a b c d).toInt32, rest)
  | _ => none

/-- The cases of a switch after those in `cases`, which are reversed. -/
def takeCases? : (n : Nat) → (cases : List (Int32 × Int32)) → List UInt8 →
    Option (List (Int32 × Int32) × List UInt8)
  | 0, cases, bytes => some (cases.reverse, bytes)
  | n + 1, cases, bytes =>
    match takeInt32? bytes with
    | none => none
    | some (key, bytes) =>
      match takeInt32? bytes with
      | none => none
      | some (offset, bytes) => takeCases? n ((key, offset) :: cases) bytes

/-- The operands of a switch at `pc`. -/
def takeSwitch? (pc : Nat) (bytes : List UInt8) : Option (Instruction × List UInt8) := do
  let (otherwise, bytes) ← takeInt32? (bytes.drop (switchPadding pc))
  let (count, bytes) ← takeInt32? bytes
  if count < 0 then none
  else
    let (cases, bytes) ← takeCases? count.toInt.toNat [] bytes
    return (switch otherwise cases, bytes)

/-- The operands of a call of an interface method. -/
def takeInterfaceCall (pc : Nat) : List UInt8 → Except Fault (Instruction × List UInt8)
  | a :: b :: slots :: 0 :: rest =>
    if slots = 0 then .error (.badInterfaceCall pc (Word.of16 a b))
    else .ok (interfaceCall (Word.of16 a b) slots, rest)
  | a :: b :: _ => .error (.badInterfaceCall pc (Word.of16 a b))
  | _ => .error (.truncated pc)

/-- The load or store after a `wide`. -/
def takeWide (pc : Nat) : List UInt8 → Except Fault (Instruction × List UInt8)
  | [] => .error (.truncated pc)
  | op :: operand =>
    if !Opcode.isLocal op then .error (.unsupported op (pc + 1))
    else
      match operand with
      | a :: b :: rest => .ok (wide op (Word.of16 a b), rest)
      | _ => .error (.truncated pc)

/-- The operand of an instruction with a one-byte operand. -/
def takeByte (pc : Nat) (op : UInt8) : List UInt8 → Except Fault (Instruction × List UInt8)
  | operand :: rest => .ok (byte op operand, rest)
  | [] => .error (.truncated pc)

/-- The operand of an instruction with a two-byte operand. -/
def takeWord (pc : Nat) (make : UInt16 → Instruction) :
    List UInt8 → Except Fault (Instruction × List UInt8)
  | a :: b :: rest => .ok (make (Word.of16 a b), rest)
  | _ => .error (.truncated pc)

/-- The instruction of an opcode at `pc`, and the bytes after it. -/
def decode (pc : Nat) (op : UInt8) (rest : List UInt8) :
    Except Fault (Instruction × List UInt8) :=
  if Opcode.isPlain op || Opcode.isShortLocal op then .ok (plain op, rest)
  else if op == Opcode.bipush || op == Opcode.ldc || Opcode.isLocal op then takeByte pc op rest
  else if op == Opcode.sipush || Opcode.isPoolAccess op then takeWord pc (word op) rest
  else if Opcode.isJump op then takeWord pc (fun w => jump op w.toInt16) rest
  else if op == Opcode.lookupswitch then
    match takeSwitch? pc rest with
    | some found => .ok found
    | none => .error (.truncated pc)
  else if op == Opcode.invokeinterface then takeInterfaceCall pc rest
  else if op == Opcode.wide then takeWide pc rest
  else .error (.unsupported op pc)

end Instruction

end ComponentViews
