import ComponentViews.ClassFile.Pool

/-!
# Class files

A class file holds the constant pool, the class itself with its interfaces, and its
fields and methods, each with attributes. The code of a method is an attribute with a
form of its own.
-/

namespace ComponentViews

/-- An attribute: the index of its name, and its contents. -/
structure Attribute where
  name : UInt16
  info : List UInt8
deriving DecidableEq, Repr

/-- An entry of an exception table. Positions are offsets into the code. -/
structure ExceptionEntry where
  start : UInt16
  stop : UInt16
  handler : UInt16
  /-- The class that is caught, or 0 for every failure. -/
  catchType : UInt16
deriving DecidableEq, Repr

/-- The code of a method. -/
structure CodeAttribute where
  maxStack : UInt16
  maxLocals : UInt16
  code : List UInt8
  table : List ExceptionEntry := []
  attributes : List Attribute := []
deriving DecidableEq, Repr

/-- A field or a method. -/
structure Member where
  access : UInt16
  name : UInt16
  descriptor : UInt16
  attributes : List Attribute := []
deriving DecidableEq, Repr

/-- A class file. -/
structure ClassFile where
  minor : UInt16 := 0
  major : UInt16
  pool : Pool
  access : UInt16
  thisClass : UInt16
  superClass : UInt16
  interfaces : List UInt16
  fields : List Member
  methods : List Member
  attributes : List Attribute := []

namespace ClassFile

/-- The word that every class file begins with. -/
def magic : UInt32 := 0xCAFEBABE

/-- The highest version whose code needs no frames. -/
def maxMajor : UInt16 := 49

/-- The lowest version that is generated. -/
def minMajor : UInt16 := 45

/-- The name of the attribute that holds code. -/
def codeName : String := "Code"

/-- The name of the attribute that lists declared failures. -/
def exceptionsName : String := "Exceptions"

/-! ### Bytes -/

/-- A list as its length and its items. -/
def encodeList {α : Type} (encode : α → List UInt8) (l : List α) : List UInt8 :=
  Word.bytes16 (Constant.lengthWord l) ++ l.flatMap encode

end ClassFile

/-- An attribute with its length in front of its contents. -/
def Attribute.encode (a : Attribute) : List UInt8 :=
  Word.bytes16 a.name ++ Word.bytes32 (UInt32.ofNat a.info.length) ++ a.info

/-- The four words of an entry. -/
def ExceptionEntry.encode (e : ExceptionEntry) : List UInt8 :=
  Word.bytes16 e.start ++ Word.bytes16 e.stop ++ Word.bytes16 e.handler ++
    Word.bytes16 e.catchType

/-- The contents of a code attribute; the number of bytes of code has 32 bits. -/
def CodeAttribute.encode (c : CodeAttribute) : List UInt8 :=
  Word.bytes16 c.maxStack ++ Word.bytes16 c.maxLocals ++
    Word.bytes32 (UInt32.ofNat c.code.length) ++ c.code ++
    ClassFile.encodeList ExceptionEntry.encode c.table ++
    ClassFile.encodeList Attribute.encode c.attributes

/-- A field or a method. -/
def Member.encode (m : Member) : List UInt8 :=
  Word.bytes16 m.access ++ Word.bytes16 m.name ++ Word.bytes16 m.descriptor ++
    ClassFile.encodeList Attribute.encode m.attributes

namespace ClassFile

/-- The bytes of a class file. -/
def encode (c : ClassFile) : List UInt8 :=
  Word.bytes32 magic ++ Word.bytes16 c.minor ++ Word.bytes16 c.major ++ c.pool.encode ++
    Word.bytes16 c.access ++ Word.bytes16 c.thisClass ++ Word.bytes16 c.superClass ++
    encodeList Word.bytes16 c.interfaces ++ encodeList Member.encode c.fields ++
    encodeList Member.encode c.methods ++ encodeList Attribute.encode c.attributes

/-- The slashed name of the class. -/
def name? (c : ClassFile) : Option String := c.pool.className? c.thisClass

/-- The name of the superclass. -/
def superName? (c : ClassFile) : Option String := c.pool.className? c.superClass

/-- The names of the interfaces, without those that the pool has no name for. -/
def interfaceNames (c : ClassFile) : List String := c.interfaces.filterMap c.pool.className?

end ClassFile

end ComponentViews
