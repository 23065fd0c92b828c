import ComponentViews.ClassFile.Basic
import ComponentViews.ClassFile.Instruction

/-!
# Assembling code

A code array grows instruction by instruction. On the way the assembly follows the
depth of the operand stack, whether the next instruction can be reached, and which
jumps lead to which *label*. A label may be used before it is placed: its jumps are
filled in when the code is finished.

All jumps to a label must come with the same stack depth. Where a label is placed
behind an instruction that control does not go on from, the depth is that of its jumps.
-/

namespace ComponentViews

/-- A place in the code that jumps lead to. -/
structure Label where
  id : Nat
deriving DecidableEq, Repr

/-- What is known of a label. -/
structure LabelState where
  /-- The offset, once the label is placed. -/
  pc : Option Nat := none
  /-- The stack depth, once a jump leads there. -/
  depth : Option Nat := none
deriving DecidableEq, Repr, Inhabited

/-- An offset to be filled in. -/
structure Fixup where
  /-- The offset of the jump, to which it is relative. -/
  jumpPc : Nat
  /-- Where it goes. -/
  operandPc : Nat
  /-- It takes four bytes, and not two. -/
  isWide : Bool
  label : Label
deriving DecidableEq, Repr

/-- A code array under construction. -/
structure Assembly where
  code : Array UInt8 := #[]
  depth : Nat := 0
  maxDepth : Nat := 0
  maxLocals : Nat := 0
  table : Array ExceptionEntry := #[]
  /-- The next instruction can be reached. -/
  alive : Bool := true
  labels : Array LabelState := #[]
  fixups : Array Fixup := #[]

/-- Why code cannot be assembled. -/
inductive AssemblyFault where
  | stackUnderflow (depth : Nat) (delta : Int)
  | depthMismatch (first second : Nat)
  | emptyCode
  | codeTooLarge (size : Nat)
  | unplacedLabel
  | branchOutOfRange (offset : Int)
  | unknownLabel
deriving DecidableEq, Repr

/-- A number with its sign. -/
def signedText (n : Int) : String := if 0 ≤ n then s!"+{n}" else s!"{n}"

/-- The text that is reported for a fault. -/
def AssemblyFault.message : AssemblyFault → String
  | stackUnderflow depth delta => s!"operand stack underflow ({depth} {signedText delta})"
  | depthMismatch first second =>
    s!"inconsistent stack depth at jump target ({first} vs {second})"
  | emptyCode => "empty code array"
  | codeTooLarge size => s!"code array of {size} bytes is too large"
  | unplacedLabel => "jump to a label that was never placed"
  | branchOutOfRange offset => s!"branch offset {offset} out of range"
  | unknownLabel => "unknown label"

/-- A step of assembling. The assembly keeps what a step that fails has done. -/
abbrev Assemble (α : Type) := ExceptT AssemblyFault (StateM Assembly) α

namespace Assembly

/-- The bytes that code may have. -/
def maxSize : Nat := 65535

/-- The offset of the next instruction. -/
def pc (a : Assembly) : Nat := a.code.size

/-- Appends bytes to the code. -/
def appendBytes (a : Assembly) (bytes : List UInt8) : Assembly :=
  { a with code := bytes.foldl Array.push a.code }

/-- The same with the stack deeper by `delta`; the depth is a 16-bit word. -/
def adjust (delta : Int) : Assemble Unit := do
  let a ← get
  let next := (a.depth : Int) + delta
  if next < 0 then throw (.stackUnderflow a.depth delta)
  let depth := next.toNat % 65536
  modify fun a => { a with depth, maxDepth := max a.maxDepth depth }

/-- Goes on behind an instruction that control does not go on from. -/
def kill : Assemble Unit := modify fun a => { a with alive := false, depth := 0 }

/-- The assembly in which the next instruction cannot be reached. -/
def markUnreachable (a : Assembly) : Assembly := { a with alive := false }

/-- Appends an instruction whose effect on the stack is `delta`. -/
def emit (i : Instruction) (delta : Int) : Assemble Unit := do
  modify fun a => a.appendBytes (i.encode a.pc)
  adjust delta
  if Opcode.isTerminal i.opcode then kill

/-- A load or store of a slot, in the shortest form. -/
def localAccess (op shortOp : UInt8) (slot : Nat) : Instruction :=
  if slot ≤ 3 then .plain (shortOp + UInt8.ofNat slot)
  else if slot ≤ 255 then .byte op (UInt8.ofNat slot)
  else .wide op (UInt16.ofNat slot)

/-! ### Labels -/

/-- A new label, which is not placed yet. -/
def newLabel : Assemble Label := do
  let label := ⟨(← get).labels.size⟩
  modify fun a => { a with labels := a.labels.push {} }
  return label

/-- Checks that a jump to a label comes with the depth of those before, or notes it. -/
def noteDepth (label : Label) : Assemble Unit := do
  let a ← get
  match a.labels[label.id]? with
  | none => throw .unknownLabel
  | some state =>
    match state.depth with
    | some depth => if depth ≠ a.depth then throw (.depthMismatch depth a.depth)
    | none =>
      let state := { state with depth := some a.depth }
      modify fun a => { a with labels := a.labels.setIfInBounds label.id state }

/-- Remembers that the next bytes are an offset from a jump to a label, to be filled in at the end.
    -/
def addFixup (jumpPc : Nat) (isWide : Bool) (label : Label) : Assemble Unit :=
  modify fun a => { a with fixups := a.fixups.push ⟨jumpPc, a.pc, isWide, label⟩ }

/-- Appends a jump to a label. -/
def branch (op : UInt8) (label : Label) (delta : Int) : Assemble Unit := do
  let jumpPc := (← get).pc
  modify (·.appendBytes [op])
  -- The jump is taken after the operands are gone.
  adjust delta
  noteDepth label
  addFixup jumpPc false label
  modify (·.appendBytes [0, 0])
  if op == Opcode.goto then kill

/-- Appends the cases of a switch at `jumpPc`. -/
def switchCases (jumpPc : Nat) : List (Int32 × Label) → Assemble Unit
  | [] => return ()
  | (key, label) :: rest => do
    modify (·.appendBytes (Word.bytes32 key.toUInt32))
    noteDepth label
    addFixup jumpPc true label
    modify (·.appendBytes [0, 0, 0, 0])
    switchCases jumpPc rest

/-- Appends a switch on the number on the stack. The cases go in the order of their
    keys. -/
def switch (otherwise : Label) (cases : List (Int32 × Label)) : Assemble Unit := do
  let jumpPc := (← get).pc
  let padding := List.replicate (Instruction.switchPadding jumpPc) 0
  modify (·.appendBytes (Opcode.lookupswitch :: padding))
  adjust (-1)
  noteDepth otherwise
  addFixup jumpPc true otherwise
  modify (·.appendBytes ([0, 0, 0, 0] ++ Word.bytes32 (UInt32.ofNat cases.length)))
  switchCases jumpPc (cases.mergeSort fun a b => a.1 ≤ b.1)
  kill

/-- Places a label here. -/
def place (label : Label) : Assemble Unit := do
  let a ← get
  match a.labels[label.id]? with
  | none => throw .unknownLabel
  | some state =>
    let labels := a.labels.setIfInBounds label.id { state with pc := some a.pc }
    match state.depth with
    | none => modify fun a => { a with labels }
    | some depth =>
      -- Where control comes here by jumps alone, the depth is theirs.
      modify fun a => { a with labels, alive := true, depth := if a.alive then a.depth else depth }

/-! ### Handlers -/

/-- Goes on as the start of a handler, with `depth` values on the stack. -/
def enterHandler (depth : Nat) : Assemble Unit := do
  modify fun a => { a with alive := true, depth := 0 }
  adjust depth

/-- Adds a handler for a range of code; an empty range needs none. -/
def addCatch (start stop handler : Nat) (catchType : UInt16) (a : Assembly) : Assembly :=
  if start < stop then
    let entry := ⟨UInt16.ofNat start, UInt16.ofNat stop, UInt16.ofNat handler, catchType⟩
    { a with table := a.table.push entry }
  else a

/-! ### Finishing -/

/-- Overwrites bytes from an offset on. -/
def patch (code : Array UInt8) : (offset : Nat) → List UInt8 → Array UInt8
  | _, [] => code
  | offset, b :: rest => patch (code.setIfInBounds offset b) (offset + 1) rest

/-- The bytes of an offset to be filled in. -/
def offsetBytes (isWide : Bool) (offset : Int) : Except AssemblyFault (List UInt8) :=
  if isWide then .ok (Word.bytes32 (Int32.ofInt offset).toUInt32)
  else if -32768 ≤ offset ∧ offset ≤ 32767 then
    .ok (Word.bytes16 (Int16.ofInt offset).toUInt16)
  else .error (.branchOutOfRange offset)

/-- Fills in the offset of a jump. -/
def applyFixup (f : Fixup) : Assemble Unit := do
  match (← get).labels[f.label.id]?.bind (·.pc) with
  | none => throw .unplacedLabel
  | some target =>
    -- Offsets count from the jump itself, not from its operand.
    let bytes ← ExceptT.mk (pure (offsetBytes f.isWide ((target : Int) - f.jumpPc)))
    modify fun a => { a with code := patch a.code f.operandPc bytes }

/-- Fills in the offsets of all jumps. -/
def finish : Assemble Unit := do
  let a ← get
  if a.pc = 0 then throw .emptyCode
  if maxSize < a.pc then throw (.codeTooLarge a.pc)
  let fixups := a.fixups.toList
  modify fun a => { a with fixups := #[] }
  fixups.forM applyFixup

end Assembly

end ComponentViews
