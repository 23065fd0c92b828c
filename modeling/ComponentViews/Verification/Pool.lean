import ComponentViews.ClassFile.Pool
import ComponentViews.Ty.DescriptorGrammar

/-!
# Verification of constant pools

Every index in a pool names an entry of the kind that is expected there, the
descriptors of fields and methods are well formed, and unusable entries stand only
behind entries that take two slots.
-/

namespace ComponentViews

/-- What is wrong with a constant pool. The index is that of the entry at fault. -/
inductive PoolFlaw where
  | invalidIndex (i : UInt16)
  | invalidKind (i : UInt16)
  | strayUnusable (i : UInt16)
  | malformedDescriptor (i : UInt16) (isField : Bool) (descriptor : String)
deriving DecidableEq, Repr

/-- The text that is reported for a flaw in the pool. -/
def PoolFlaw.message : PoolFlaw → String
  | invalidIndex i => s!"Invalid constant pool index {i}"
  | invalidKind i => s!"Invalid constant pool index type {i}"
  | strayUnusable i => s!"Unusable slot at {i} does not follow a long or double"
  | malformedDescriptor i isField descriptor =>
    let kind := if isField then "field" else "method"
    s!"Malformed {kind} descriptor '{descriptor}' at {i}"

namespace Pool

/-- The entries with their indices. -/
def indexed (p : Pool) : List (UInt16 × Constant) :=
  p.toList.zipIdx.map fun (c, i) => (UInt16.ofNat (i + 1), c)

/-- Checks that unusable entries follow wide ones; the entry before is wide or not. -/
def verifySlots : (afterWide : Bool) → List (UInt16 × Constant) → Except PoolFlaw Unit
  | _, [] => .ok ()
  | afterWide, (i, c) :: rest =>
    if c = .unusable ∧ !afterWide then .error (.strayUnusable i) else verifySlots c.isWide rest

variable (p : Pool)

/-- Checks the kind of the entry that entry `i` names. -/
def expect (i target : UInt16) (isKind : Constant → Bool) : Except PoolFlaw Unit :=
  match p.get? target with
  | none => .error (.invalidIndex i)
  | some c => if isKind c then .ok () else .error (.invalidKind i)

/-- The descriptor in the name and type at an index; empty, if there is none. -/
def descriptorAt (nameAndType : UInt16) : String :=
  match p.get? nameAndType with
  | some (.nameAndType _ descriptor) => (p.utf8? descriptor).getD ""
  | _ => ""

/-- Checks the entry of a field or method. -/
def verifyMember (i owner nameAndType : UInt16) (isField : Bool) : Except PoolFlaw Unit := do
  p.expect i owner Constant.isClass
  p.expect i nameAndType Constant.isNameAndType
  let descriptor := p.descriptorAt nameAndType
  let isValid := if isField then Descriptor.isField else Descriptor.isMethod
  unless isValid descriptor.toList do throw (.malformedDescriptor i isField descriptor)

/-- Checks what an entry names. -/
def verifyEntry (i : UInt16) : Constant → Except PoolFlaw Unit
  | .classRef name | .string name => p.expect i name Constant.isUtf8
  | .fieldRef owner nameAndType => p.verifyMember i owner nameAndType true
  | .methodRef owner nameAndType | .interfaceMethodRef owner nameAndType =>
    p.verifyMember i owner nameAndType false
  | .nameAndType name descriptor => do
    p.expect i name Constant.isUtf8
    p.expect i descriptor Constant.isUtf8
  | _ => .ok ()

/-- Checks all entries. -/
def verify : Except PoolFlaw Unit := do
  verifySlots false p.indexed
  p.indexed.forM fun (i, c) => p.verifyEntry i c

end Pool

end ComponentViews
