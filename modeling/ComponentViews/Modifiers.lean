/-!
# Modifiers

The modifiers of a method, as the flag word of a class file has them, and the
words that spell them.
-/

namespace ComponentViews

/-- The modifiers of a method: a flag word. -/
structure Modifiers where
  bits : UInt16
deriving DecidableEq, Repr

namespace Modifiers

/-! ### Flags -/

def publicBit : UInt16 := 0x0001
def privateBit : UInt16 := 0x0002
def protectedBit : UInt16 := 0x0004
def staticBit : UInt16 := 0x0008
def finalBit : UInt16 := 0x0010
def synchronizedBit : UInt16 := 0x0020
def nativeBit : UInt16 := 0x0100
def abstractBit : UInt16 := 0x0400

/-- The words for the flags, in the order in which they are listed. -/
def wordTable : List (String × UInt16) :=
  [("public", publicBit), ("private", privateBit), ("protected", protectedBit),
    ("static", staticBit), ("final", finalBit), ("synchronized", synchronizedBit),
    ("native", nativeBit), ("abstract", abstractBit)]

/-- Methods of an interface are public and abstract. -/
def interfaceMethod : Modifiers := ⟨publicBit ||| abstractBit⟩

/-- Whether the flag is set. -/
def has (m : Modifiers) (flag : UInt16) : Bool := m.bits &&& flag != 0

def isPublic (m : Modifiers) : Bool := m.has publicBit
def isPrivate (m : Modifiers) : Bool := m.has privateBit
def isStatic (m : Modifiers) : Bool := m.has staticBit
def isFinal (m : Modifiers) : Bool := m.has finalBit

/-! ### Words -/

/-- A word that is no modifier. -/
structure UnknownWord where
  word : String
deriving DecidableEq, Repr

/-- The text that is reported for a word that is no modifier. -/
def UnknownWord.message (u : UnknownWord) : String := s!"unknown modifier '{u.word}'"

/-- The words for the flags that are set; other flags have none. -/
def words (m : Modifiers) : List String :=
  (wordTable.filter fun e => m.has e.2).map (·.1)

/-- The modifiers that the words spell, whatever their order. -/
def ofWords (words : List String) : Except UnknownWord Modifiers := do
  let flags ← words.mapM fun word =>
    match wordTable.lookup word with
    | some flag => .ok flag
    | none => .error ⟨word⟩
  return ⟨flags.foldl (· ||| ·) 0⟩

end Modifiers

end ComponentViews
