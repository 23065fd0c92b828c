import ComponentViews.Blueprint.Syntax
import ComponentViews.Code.Assembly
import ComponentViews.Code.Range

/-!
# Drafts

While the body of a method is turned into code there is a *draft*: the code so far, the
constant pool of the class, the slots given away, and for each region around the place
that is worked on the gaps in the ranges that its handlers cover.
-/

namespace ComponentViews

/-- Why a body cannot be turned into code. -/
inductive LoweringFault where
  | poolOverflow
  | assembly (fault : AssemblyFault)
  /-- Control comes to the end of a method that has a result. -/
  | completesNormally
  | undeclaredVariable (i : Nat)
  | thisInStatic
  | argumentOutOfRange (i : Nat)
  /-- Item `i` of an array is a primitive value, which has to be boxed. -/
  | primitiveItem (i : Nat)
  | badCast (source target : Ty)
  | missingReceiver (name : String)
  | receiverOfStatic (name : String)
deriving DecidableEq, Repr

/-- What is told of a fault. -/
def LoweringFault.message : LoweringFault → String
  | poolOverflow => "constant pool overflow"
  | assembly fault => fault.message
  | completesNormally => "control reaches the end of a non-void method"
  | undeclaredVariable i => s!"local #{i} is not declared"
  | thisInStatic => "'this' used in static method"
  | argumentOutOfRange i => s!"argument #{i} out of range"
  | primitiveItem i => s!"array element #{i} must be boxed"
  | badCast source target => s!"cannot cast {source} to {target}"
  | missingReceiver name => s!"call to {name} needs a receiver"
  | receiverOfStatic name => s!"static call to {name} has a receiver"

/-- Code of a method under way. -/
structure Draft where
  asm : Assembly
  pool : Pool
  /-- The slot that is given away next. -/
  nextSlot : Nat
  /-- The gaps of the regions around, the innermost first. -/
  gaps : List (List CodeRange) := []

/-- A step of turning a body into code. -/
abbrev Lower (α : Type) := StateT Draft (Except LoweringFault) α

/-- The slot behind a variable that takes `n` slots; slots are counted in a 16-bit word, which
    nobody keeps from running over. -/
def slotBehind (slot n : Nat) : Nat := (slot + n) % 65536

namespace Draft

variable {α : Type}

/-- A step of the assembly. -/
def assemble (step : Assemble α) : Lower α
  | ⟨asm, pool, nextSlot, gaps⟩ =>
    match step.run.run asm with
    | (.ok a, asm) => .ok (a, ⟨asm, pool, nextSlot, gaps⟩)
    | (.error fault, _) => .error (.assembly fault)

/-- Adds a constant to the pool, and answers its index. -/
def addConstant (add : Pool.Add) : Lower UInt16
  | ⟨asm, pool, nextSlot, gaps⟩ =>
    match add.run.run pool with
    | (.ok i, pool) => .ok (i, ⟨asm, pool, nextSlot, gaps⟩)
    | (.error _, _) => .error .poolOverflow

/-- Appends an instruction whose effect on the stack is `delta`. -/
def emit (i : Instruction) (delta : Int) : Lower Unit := assemble (Assembly.emit i delta)

/-- The offset of the next instruction. -/
def pc : Lower Nat := return (← get).asm.pc

/-- Whether the next instruction can be reached. -/
def isAlive : Lower Bool := return (← get).asm.alive

/-- A label that has no place yet. -/
def newLabel : Lower Label := assemble Assembly.newLabel

/-- Appends a jump to a label. -/
def branch (op : UInt8) (label : Label) (delta : Int) : Lower Unit :=
  assemble (Assembly.branch op label delta)

/-- Places a label here. -/
def place (label : Label) : Lower Unit := assemble (Assembly.place label)

/-- Jumps to a label, if control comes here. -/
def leaveTo (label : Label) : Lower Unit := do
  if ← isAlive then branch Opcode.goto label 0

/-- Adds handlers for ranges of code. -/
def addCatches (ranges : List CodeRange) (handler : Nat) (catchType : UInt16) : Lower Unit :=
  ranges.forM fun r =>
    assemble (modify (Assembly.addCatch r.start r.stop handler catchType))

/-- Takes slots for a variable that the body does not name. -/
def newSlot (ty : Ty) : Lower Nat := do
  let slot := (← get).nextSlot
  modify fun d => { d with nextSlot := slotBehind slot (max ty.slots 1) }
  return slot

/-! ### Gaps -/

/-- Enters a region. -/
def enterRegion (gaps : List CodeRange) : Lower Unit :=
  modify fun d => { d with gaps := gaps :: d.gaps }

/-- Leaves the innermost `n` regions, and answers their gaps. -/
def leaveRegions (n : Nat) : Lower (List (List CodeRange)) := do
  let d ← get
  set { d with gaps := d.gaps.drop n }
  return d.gaps.take n

/-- Leaves the innermost region, and answers its gaps. -/
def leaveRegion : Lower (List CodeRange) := return (← leaveRegions 1).flatten

/-- Enters regions again, each with a further gap. -/
def reenterRegions (inner : List (List CodeRange)) (gap : CodeRange) : Lower Unit :=
  modify fun d => { d with gaps := inner.map (gap :: ·) ++ d.gaps }

/-! ### Instructions by type -/

/-- The kind of variable that holds a value of a type. -/
def kindOf (ty : Ty) : SlotKind := ty.slotKind?.getD .reference

/-- The load of a kind of variable, and its short form. -/
def loadOps : SlotKind → UInt8 × UInt8
  | .int => (Opcode.iload, Opcode.iload0)
  | .long => (Opcode.lload, Opcode.lload0)
  | .float => (Opcode.fload, Opcode.fload0)
  | .double => (Opcode.dload, Opcode.dload0)
  | .reference => (Opcode.aload, Opcode.aload0)

/-- The store of a kind of variable, and its short form. -/
def storeOps : SlotKind → UInt8 × UInt8
  | .int => (Opcode.istore, Opcode.istore0)
  | .long => (Opcode.lstore, Opcode.lstore0)
  | .float => (Opcode.fstore, Opcode.fstore0)
  | .double => (Opcode.dstore, Opcode.dstore0)
  | .reference => (Opcode.astore, Opcode.astore0)

/-- The return of a value of a type. -/
def returnOp (ty : Ty) : UInt8 :=
  if ty.isVoid then Opcode.vreturn
  else
    match kindOf ty with
    | .int => Opcode.ireturn
    | .long => Opcode.lreturn
    | .float => Opcode.freturn
    | .double => Opcode.dreturn
    | .reference => Opcode.areturn

/-- Pushes the value in a slot. -/
def load (ty : Ty) (slot : Nat) : Lower Unit :=
  let (op, shortOp) := loadOps (kindOf ty)
  emit (Assembly.localAccess op shortOp slot) ty.slots

/-- Takes a value from the stack into a slot. -/
def store (ty : Ty) (slot : Nat) : Lower Unit :=
  let (op, shortOp) := storeOps (kindOf ty)
  emit (Assembly.localAccess op shortOp slot) (-(ty.slots : Int))

/-- Stores a reference. -/
def storeReference (slot : Nat) : Lower Unit := store .object slot

/-- Pushes the reference in a slot. -/
def loadReference (slot : Nat) : Lower Unit := load .object slot

/-! ### Constants -/

/-- Pushes a constant that takes one slot. -/
def pushConstant (i : UInt16) : Lower Unit :=
  emit (if i ≤ 255 then .byte Opcode.ldc i.toUInt8 else .word Opcode.ldcW i) 1

/-- Pushes a constant that takes two slots. -/
def pushWide (i : UInt16) : Lower Unit := emit (.word Opcode.ldc2W i) 2

/-- Pushes a number, by the shortest instruction that can. -/
def pushInt (n : Int32) : Lower Unit := do
  if -1 ≤ n ∧ n ≤ 5 then emit (.plain (Opcode.iconst0 + n.toUInt32.toUInt8)) 1
  else if -128 ≤ n ∧ n ≤ 127 then emit (.byte Opcode.bipush n.toUInt32.toUInt8) 1
  else if -32768 ≤ n ∧ n ≤ 32767 then emit (.word Opcode.sipush n.toUInt32.toUInt16) 1
  else pushConstant (← addConstant (Pool.addInteger n))

/-- The bits of the floats that have instructions of their own, in order: 0, 1 and 2. -/
def shortFloats : List UInt32 := [0, 0x3f800000, 0x40000000]

/-- The bits of the doubles that have instructions of their own, in order: 0 and 1. -/
def shortDoubles : List UInt64 := [0, 0x3ff0000000000000]

/-- Pushes a literal. Numbers are told by their bits, so that minus zero is not taken for
    zero, which has an instruction of its own. -/
def pushLiteral : Literal → Lower Unit
  | .null => emit (.plain Opcode.aconstNull) 1
  | .bool b => pushInt (if b then 1 else 0)
  | .int n => pushInt n
  | .long n =>
    if n = 0 ∨ n = 1 then emit (.plain (Opcode.lconst0 + n.toUInt64.toUInt8)) 2
    else do pushWide (← addConstant (Pool.addLong n))
  | .float bits =>
    match shortFloats.idxOf? bits with
    | some i => emit (.plain (Opcode.fconst0 + UInt8.ofNat i)) 1
    | none => do pushConstant (← addConstant (Pool.addFloat bits))
  | .double bits =>
    match shortDoubles.idxOf? bits with
    | some i => emit (.plain (Opcode.dconst0 + UInt8.ofNat i)) 2
    | none => do pushWide (← addConstant (Pool.addDouble bits))
  | .string s => do pushConstant (← addConstant (Pool.addString s))

end Draft

end ComponentViews
