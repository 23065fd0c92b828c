/-!
# Words

The words of a class file, high byte first.
-/

namespace ComponentViews.Word

/-- The two bytes of a word, the higher one first. -/
def bytes16 (w : UInt16) : List UInt8 := [(w >>> 8).toUInt8, w.toUInt8]

/-- The four bytes of a word, the highest one first. -/
def bytes32 (w : UInt32) : List UInt8 :=
  [(w >>> 24).toUInt8, (w >>> 16).toUInt8, (w >>> 8).toUInt8, w.toUInt8]

/-- The eight bytes of a word, the highest one first. -/
def bytes64 (w : UInt64) : List UInt8 :=
  bytes32 (w >>> 32).toUInt32 ++ bytes32 w.toUInt32

/-- The word of two bytes. -/
def of16 (a b : UInt8) : UInt16 := (a.toUInt16 <<< 8) ||| b.toUInt16

/-- The word of four bytes. -/
def of32 (a b c d : UInt8) : UInt32 :=
  (a.toUInt32 <<< 24) ||| (b.toUInt32 <<< 16) ||| (c.toUInt32 <<< 8) ||| d.toUInt32

/-- The word of two shorter ones. -/
def of64 (high low : UInt32) : UInt64 := (high.toUInt64 <<< 32) ||| low.toUInt64

end ComponentViews.Word
