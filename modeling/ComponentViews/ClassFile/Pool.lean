import ComponentViews.ClassFile.Constant
import ComponentViews.Text.Dotted

/-!
# Constant pools

A pool numbers its entries from 1. While a class is built, equal constants share an
entry, so adding a constant answers the index that it has from then on. An entry that
takes two slots is followed by an unusable one. A pool has at most 65534 slots; an
addition that needs more fails, but keeps the parts that it could add.
-/

namespace ComponentViews

/-- The entries of a class file. -/
structure Pool where
  entries : Array Constant := #[]
  /-- The index of each constant that was added. -/
  index : Std.TreeMap Constant UInt16 := ∅

namespace Pool

/-- The slots a pool can have. -/
def maxSize : Nat := 65534

/-- A pool that does not share entries, as it is read. -/
def ofList (entries : List Constant) : Pool where
  entries := entries.toArray

/-- The slots that are taken. -/
def size (p : Pool) : Nat := p.entries.size

/-- The entries in the order of their indices. -/
def toList (p : Pool) : List Constant := p.entries.toList

/-- The entry at an index. -/
def get? (p : Pool) (i : UInt16) : Option Constant :=
  if i = 0 then none else p.entries[i.toNat - 1]?

/-- The text at an index. -/
def utf8? (p : Pool) (i : UInt16) : Option String :=
  match p.get? i with
  | some (.utf8 s) => some s
  | _ => none

/-- The slashed name of the class at an index. -/
def className? (p : Pool) (i : UInt16) : Option String :=
  match p.get? i with
  | some (.classRef name) => p.utf8? name
  | _ => none

/-- The bytes of a pool, after its number of slots and one. -/
def encode (p : Pool) : List UInt8 :=
  Word.bytes16 (UInt16.ofNat (p.size + 1)) ++ p.toList.flatMap Constant.encode

/-! ### Adding constants -/

/-- The pool is full. -/
structure Overflow where
deriving DecidableEq, Repr

/-- Something that adds to a pool and answers an index. -/
abbrev Add := ExceptT Overflow (StateM Pool) UInt16

/-- Adds an entry, or finds the one that is there. -/
def intern (c : Constant) : Add :=
  ExceptT.mk fun p =>
    match p.index[c]? with
    | some i => (.ok i, p)
    | none =>
      -- The unusable slot behind a wide entry counts too.
      if maxSize < p.size + (if c.isWide then 2 else 1) then (.error {}, p)
      else
        let i := UInt16.ofNat (p.size + 1)
        let entries := p.entries.push c
        (.ok i,
          { entries := if c.isWide then entries.push .unusable else entries
            index := p.index.insert c i })

/-- Adds a text. -/
def addUtf8 (s : String) : Add := intern (.utf8 s)

/-- Adds the class of a dotted or slashed name. -/
def addClass (name : String) : Add := do intern (.classRef (← addUtf8 (Dotted.slashed name)))

/-- Adds a constant that is a string. -/
def addString (s : String) : Add := do intern (.string (← addUtf8 s))

/-- Adds the name and type of a member. -/
def addNameAndType (name descriptor : String) : Add := do
  let name ← addUtf8 name
  intern (.nameAndType name (← addUtf8 descriptor))

/-- Adds a member of a class. -/
def addMember (make : UInt16 → UInt16 → Constant) (owner name descriptor : String) : Add := do
  let owner ← addClass owner
  intern (make owner (← addNameAndType name descriptor))

/-- Adds a field of a class. -/
def addField (owner name descriptor : String) : Add :=
  addMember .fieldRef owner name descriptor

/-- Adds a method of a class. -/
def addMethod (owner name descriptor : String) : Add :=
  addMember .methodRef owner name descriptor

/-- Adds a method of an interface. -/
def addInterfaceMethod (owner name descriptor : String) : Add :=
  addMember .interfaceMethodRef owner name descriptor

/-- Adds a number of 32 bits. -/
def addInteger (n : Int32) : Add := intern (.integer n.toUInt32)

/-- Adds a float, by its bits. -/
def addFloat (bits : UInt32) : Add := intern (.float bits)

/-- Adds a number of 64 bits. -/
def addLong (n : Int64) : Add := intern (.long n.toUInt64)

/-- Adds a double, by its bits. -/
def addDouble (bits : UInt64) : Add := intern (.double bits)

end Pool

end ComponentViews
