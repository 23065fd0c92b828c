import Std.Data.HashSet
import ComponentViews.ClassFile.Listing
import ComponentViews.ClassFile.Reader
import ComponentViews.Modifiers

/-!
# Verification of code

The code of a method consists of known instructions up to its end, which control does
not run off. Their operands name constants of the kind that each needs and local
variables that the method has; jumps and handlers lead to instructions; and every
return is the one for the result.
-/

namespace ComponentViews

/-- What is wrong with a method. -/
inductive CodeFlaw where
  | invalidIndex (i : UInt16)
  | invalidKind (i : UInt16)
  | missingCode
  | forbiddenCode
  | unsupportedOpcode (op : UInt8) (pc : Nat)
  | truncatedInstruction (pc : Nat)
  | badJumpTarget (pc : Nat) (target : Int)
  | badOperand (pc : Nat) (index : UInt16)
  | badRange (entry : Nat)
  | badCatchType (entry : Nat)
  | returnMismatch (expected found : UInt8)
  | fallsOffEnd
  | variableOutOfRange (slot maxLocals : Nat)
deriving DecidableEq, Repr

/-- A number with the given hexadecimal digits at least. -/
def hexText (digits n : Nat) : String :=
  let text := Nat.toDigits 16 n
  "0x" ++ String.ofList (List.replicate (digits - text.length) '0' ++ text)

/-- The mnemonic of a return. -/
def Opcode.returnName (op : UInt8) : String :=
  if op == lreturn then "lreturn"
  else if op == freturn then "freturn"
  else if op == dreturn then "dreturn"
  else if op == areturn then "areturn"
  else if op == vreturn then "return"
  else "ireturn"

/-- The text that is reported for a flaw in a method. -/
def CodeFlaw.message : CodeFlaw → String
  | invalidIndex i => s!"Invalid constant pool index {i}"
  | invalidKind i => s!"Invalid constant pool index type {i}"
  | missingCode => "Method must have Code attribute unless abstract or native"
  | forbiddenCode => "Abstract or native method must not have Code attribute"
  | unsupportedOpcode op pc => s!"Unknown or unsupported opcode {hexText 2 op.toNat} at {pc}"
  | truncatedInstruction pc => s!"Instruction at {pc} runs past the end of the code array"
  | badJumpTarget pc target =>
    s!"Jump at {pc} targets {target}, which is not an instruction boundary"
  | badOperand pc index =>
    s!"Operand of instruction at {pc} refers to constant {index} of the wrong kind"
  | badRange entry => s!"Exception table entry {entry} has an invalid range"
  | badCatchType entry => s!"Exception table entry {entry} catches a non-class constant"
  | returnMismatch expected found =>
    let name := Opcode.returnName expected
    s!"Return opcode does not match descriptor: expected {name}, found {hexText 2 found.toNat}"
  | fallsOffEnd => "Last instruction falls off the end of the code array"
  | variableOutOfRange slot maxLocals => s!"Local slot {slot} exceeds max_locals {maxLocals}"

/-! ### Constants that instructions name -/

namespace Constant

/-- An entry that is pushed as one value of one slot. -/
def isLoadable : Constant → Bool
  | integer _ | float _ | string _ | classRef _ => true
  | _ => false

/-- Whether the constant names a field. -/
def isFieldRef : Constant → Bool
  | fieldRef _ _ => true
  | _ => false

/-- Whether the constant names a method of a class. -/
def isMethodRef : Constant → Bool
  | methodRef _ _ => true
  | _ => false

/-- Whether the constant names a method of an interface. -/
def isInterfaceMethodRef : Constant → Bool
  | interfaceMethodRef _ _ => true
  | _ => false

end Constant

namespace Instruction

/-- The constant that an instruction names, and the kind that it needs. -/
def constant? : Instruction → Option (UInt16 × (Constant → Bool))
  | byte op i => if op == Opcode.ldc then some (i.toUInt16, Constant.isLoadable) else none
  | word op i =>
    if op == Opcode.ldcW then some (i, Constant.isLoadable)
    else if op == Opcode.ldc2W then some (i, Constant.isWide)
    else if op == Opcode.getstatic || op == Opcode.getfield || op == Opcode.putfield then
      some (i, Constant.isFieldRef)
    else if op == Opcode.invokevirtual || op == Opcode.invokespecial ||
        op == Opcode.invokestatic then
      some (i, Constant.isMethodRef)
    else if op == Opcode.sipush then none
    else some (i, Constant.isClass)
  | interfaceCall i _ => some (i, Constant.isInterfaceMethodRef)
  | _ => none

/-- The slot of a load or store in a short form, and whether the next slot belongs to
    the variable. -/
def shortLocal (op : UInt8) : Nat × Bool :=
  let form := if Opcode.istore0 ≤ op then op - Opcode.istore0 else op - Opcode.iload0
  (form.toNat % 4, form / 4 == 1 || form / 4 == 3)

/-- Loads and stores of variables with two slots. -/
def isWideLocal (op : UInt8) : Bool :=
  op == Opcode.lload || op == Opcode.dload || op == Opcode.lstore || op == Opcode.dstore

/-- The highest slot that the method must have for an instruction; of a slot in two
    bytes, only the first is looked at. -/
def highestSlot? : Instruction → Option Nat
  | plain op =>
    if Opcode.isShortLocal op then
      let (slot, isWide) := shortLocal op
      some (slot + if isWide then 1 else 0)
    else none
  | byte op slot =>
    if Opcode.isLocal op then some (slot.toNat + if isWideLocal op then 1 else 0) else none
  | wide _ slot => some slot.toNat
  | _ => none

end Instruction

/-! ### Code -/

namespace CodeAttribute

/-- The return for a method's descriptor; what follows the last parenthesis is the
    result. -/
def returnFor (descriptor : String) : UInt8 :=
  match (descriptor.toList.reverse.takeWhile (· ≠ ')')).getLast? with
  | some 'V' => Opcode.vreturn
  | some 'J' => Opcode.lreturn
  | some 'F' => Opcode.freturn
  | some 'D' => Opcode.dreturn
  | some 'L' | some '[' => Opcode.areturn
  | _ => Opcode.ireturn

/-- The flaw that a fault of decoding shows. -/
def flawOf : Instruction.Fault → CodeFlaw
  | .truncated pc => .truncatedInstruction pc
  | .unsupported op pc => .unsupportedOpcode op pc
  | .badInterfaceCall pc index => .badOperand pc index

/-- Checks an instruction apart from where it jumps. -/
def verifyInstruction (p : Pool) (maxLocals : Nat) (returnOp : UInt8) (pc : Nat)
    (i : Instruction) : Except CodeFlaw Unit := do
  if Opcode.isReturn i.opcode ∧ i.opcode ≠ returnOp then
    throw (.returnMismatch returnOp i.opcode)
  if let some (index, isKind) := i.constant? then
    unless (p.get? index).any isKind do throw (.badOperand pc index)
  if let some slot := i.highestSlot? then
    unless slot < maxLocals do throw (.variableOutOfRange slot maxLocals)

/-- Checks that jumps lead to instructions. -/
def verifyJumps (starts : Std.HashSet Nat) (pc : Nat) : List Int → Except CodeFlaw Unit
  | [] => .ok ()
  | target :: rest =>
    if target < 0 ∨ !starts.contains target.toNat then .error (.badJumpTarget pc target)
    else verifyJumps starts pc rest

/-- Checks the entries of an exception table from entry `n` on. -/
def verifyTable (p : Pool) (starts : Std.HashSet Nat) (size : Nat) :
    (n : Nat) → List ExceptionEntry → Except CodeFlaw Unit
  | _, [] => .ok ()
  | n, entry :: rest => do
    unless entry.start < entry.stop && starts.contains entry.start.toNat &&
        (entry.stop.toNat == size || starts.contains entry.stop.toNat) &&
        starts.contains entry.handler.toNat do
      throw (.badRange n)
    unless entry.catchType == 0 || (p.get? entry.catchType).any Constant.isClass do
      throw (.badCatchType n)
    verifyTable p starts size (n + 1) rest

/-- Checks the code of a method with the given descriptor. -/
def verify (c : CodeAttribute) (p : Pool) (descriptor : String) : Except CodeFlaw Unit := do
  let listing := Listing.ofCode c.code
  let returnOp := returnFor descriptor
  listing.instructions.forM fun (pc, i) =>
    verifyInstruction p c.maxLocals.toNat returnOp pc i
  -- A flaw of an instruction before the fault counts first.
  if let some fault := listing.fault then throw (flawOf fault)
  let starts := Std.HashSet.ofList (listing.instructions.map (·.1))
  listing.instructions.forM fun (pc, i) => verifyJumps starts pc (i.targets pc)
  unless listing.instructions.getLast?.any fun (_, i) => Opcode.isTerminal i.opcode do
    throw .fallsOffEnd
  verifyTable p starts c.code.length 0 c.table

end CodeAttribute

/-! ### Methods -/

namespace Member

/-- Checks the kind of an entry that a method names. -/
def expectKind (p : Pool) (i : UInt16) (isKind : Constant → Bool) : Except CodeFlaw Unit :=
  match p.get? i with
  | none => .error (.invalidIndex i)
  | some c => if isKind c then .ok () else .error (.invalidKind i)

/-- Whether the method has no code. -/
def isBodiless (m : Member) : Bool :=
  m.access &&& (Modifiers.abstractBit ||| Modifiers.nativeBit) != 0

/-- Checks a method. -/
def verify (m : Member) (p : Pool) : Except CodeFlaw Unit := do
  expectKind p m.name Constant.isUtf8
  expectKind p m.descriptor Constant.isUtf8
  (m.declaredFailures p).forM fun i => expectKind p i Constant.isClass
  match m.isBodiless, m.code? p with
  | true, none => return ()
  | true, some _ => throw .forbiddenCode
  | false, none => throw .missingCode
  | false, some code => code.verify p ((p.utf8? m.descriptor).getD "")

end Member

end ComponentViews
