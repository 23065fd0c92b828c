import ComponentViews.ClassFile.Basic

/-!
# Reading class files

A class file is read from its bytes in one pass. Only the kinds of constant that are
generated here are known. The reader notes its place, for faults to tell.
-/

namespace ComponentViews

namespace ClassFile

/-- Why bytes are no class file. -/
inductive ReadFault where
  | truncated (offset : Nat)
  | badMagic (found : UInt32)
  | malformedUtf8 (offset : Nat)
  | unknownTag (tag : UInt8) (offset : Nat)
  | trailingBytes (count : Nat)
  /-- The pool's number of slots is zero, or ends between the two of an entry. -/
  | poolOverrun
deriving DecidableEq, Repr

/-- What is left to read, and the place where it begins. -/
structure Cursor where
  offset : Nat
  rest : List UInt8

/-- Something that reads from bytes. -/
abbrev Read (α : Type) := StateT Cursor (Except ReadFault) α

namespace Read

/-- The next `n` bytes. -/
def take (n : Nat) : Read (List UInt8) := fun c =>
  let (taken, rest) := c.rest.splitAt n
  if taken.length = n then .ok (taken, ⟨c.offset + n, rest⟩) else .error (.truncated c.offset)

/-- Reads a byte. -/
def byte : Read UInt8 := fun c =>
  match c.rest with
  | b :: rest => .ok (b, ⟨c.offset + 1, rest⟩)
  | [] => .error (.truncated c.offset)

/-- Reads two bytes as a word. -/
def word16 : Read UInt16 := fun c =>
  match c.rest with
  | a :: b :: rest => .ok (Word.of16 a b, ⟨c.offset + 2, rest⟩)
  | _ => .error (.truncated c.offset)

/-- Reads four bytes as a word. -/
def word32 : Read UInt32 := fun c =>
  match c.rest with
  | a :: b :: d :: e :: rest => .ok (Word.of32 a b d e, ⟨c.offset + 4, rest⟩)
  | _ => .error (.truncated c.offset)

/-- Reads eight bytes as a word. -/
def word64 : Read UInt64 := do
  let high ← word32
  return Word.of64 high (← word32)

/-- Reads `n` items after those in `items`, which are reversed. -/
def repeatRead {α : Type} (read : Read α) : (n : Nat) → (items : List α) → Read (List α)
  | 0, items => pure items.reverse
  | n + 1, items => do
    let a ← read
    repeatRead read n (a :: items)

/-- Reads a list after its length. -/
def list {α : Type} (read : Read α) : Read (List α) := do
  let n ← word16
  repeatRead read n.toNat []

/-- Reads an attribute, whose contents are not looked at. -/
def attr : Read Attribute := do
  let name ← word16
  let size ← word32
  return ⟨name, ← take size.toNat⟩

/-- Reads a field or a method. -/
def member : Read Member := do
  let access ← word16
  let name ← word16
  let descriptor ← word16
  return { access, name, descriptor, attributes := ← list attr }

/-- Reads two words. -/
def pair (make : UInt16 → UInt16 → Constant) : Read Constant := do
  let a ← word16
  return make a (← word16)

/-- Reads a constant. A fault in it is reported at the offset of its tag. -/
def constant : Read Constant := do
  let offset := (← get).offset
  let tag ← byte
  match tag with
  | 1 =>
    let size ← word16
    match ModifiedUtf8.decode? (← take size.toNat) with
    | some s => return .utf8 s
    | none => throw (.malformedUtf8 offset)
  | 3 => return .integer (← word32)
  | 4 => return .float (← word32)
  | 5 => return .long (← word64)
  | 6 => return .double (← word64)
  | 7 => return .classRef (← word16)
  | 8 => return .string (← word16)
  | 9 => pair .fieldRef
  | 10 => pair .methodRef
  | 11 => pair .interfaceMethodRef
  | 12 => pair .nameAndType
  | tag => throw (.unknownTag tag offset)

/-- Reads entries until they fill `slots` slots, after those in `entries`, which are
    reversed. -/
def constants : (slots : Nat) → (entries : List Constant) → Read (List Constant)
  | 0, entries => pure entries.reverse
  | 1, entries => do
    let c ← constant
    if c.isWide then throw .poolOverrun else return (c :: entries).reverse
  | slots + 2, entries => do
    let c ← constant
    if c.isWide then constants slots (.unusable :: c :: entries)
    else constants (slots + 1) (c :: entries)

/-- Reads a constant pool after its number of slots and one. -/
def pool : Read Pool := do
  match (← word16).toNat with
  | 0 => throw .poolOverrun
  | slots + 1 => return .ofList (← constants slots [])

/-- Reads a class file up to its last attribute. -/
def classFile : Read ClassFile := do
  let magic ← word32
  unless magic = ClassFile.magic do throw (.badMagic magic)
  let minor ← word16
  let major ← word16
  let pool ← pool
  let access ← word16
  let thisClass ← word16
  let superClass ← word16
  let interfaces ← list word16
  let fields ← list member
  let methods ← list member
  let attributes ← list attr
  return { minor, major, pool, access, thisClass, superClass, interfaces, fields, methods,
           attributes }

end Read

/-- Reads a class file. -/
def ofBytes (bytes : List UInt8) : Except ReadFault ClassFile := do
  let (c, cursor) ← Read.classFile ⟨0, bytes⟩
  match cursor.rest with
  | [] => return c
  | rest => throw (.trailingBytes rest.length)

end ClassFile

/-! ### Code -/

namespace CodeAttribute

open ClassFile (Read)

/-- Reads an entry of an exception table. -/
def readEntry : Read ExceptionEntry := do
  let start ← Read.word16
  let stop ← Read.word16
  let handler ← Read.word16
  return { start, stop, handler, catchType := ← Read.word16 }

/-- Reads the contents of a code attribute. -/
def read : Read CodeAttribute := do
  let maxStack ← Read.word16
  let maxLocals ← Read.word16
  let size ← Read.word32
  let code ← Read.take size.toNat
  let table ← Read.list readEntry
  return { maxStack, maxLocals, code, table, attributes := ← Read.list Read.attr }

/-- Reads the contents of an attribute as code; whatever follows is left unread. -/
def ofBytes? (bytes : List UInt8) : Option CodeAttribute :=
  match read ⟨0, bytes⟩ with
  | .ok (c, _) => some c
  | .error _ => none

end CodeAttribute

namespace Member

/-- The first attribute of a name. -/
def attribute? (m : Member) (p : Pool) (name : String) : Option Attribute :=
  m.attributes.find? fun a => p.utf8? a.name == some name

/-- The code of a method, if its attribute can be read. -/
def code? (m : Member) (p : Pool) : Option CodeAttribute :=
  (m.attribute? p ClassFile.codeName).bind fun a => CodeAttribute.ofBytes? a.info

/-- The words in bytes; an odd byte at the end is left out. -/
def wordsOf : List UInt8 → List UInt16
  | a :: b :: rest => Word.of16 a b :: wordsOf rest
  | _ => []

/-- The classes of the failures that a method declares. -/
def declaredFailures (m : Member) (p : Pool) : List UInt16 :=
  match m.attribute? p ClassFile.exceptionsName with
  | some a => wordsOf (a.info.drop 2)
  | none => []

end Member

end ComponentViews
