import ComponentViews.ClassFile.Word
import ComponentViews.Json.Basic
import ComponentViews.Text.Hex

/-!
# Numbers of fixed width in JSON

Words of 16 bits and integers of 32 are JSON numbers. Integers of 64 bits are strings of
decimal digits, and floating-point numbers strings of the hexadecimal digits of their bits,
so that no reader rounds them. Bytes are strings of hexadecimal digits.
-/

namespace ComponentViews.Json

/-- A word as a number. -/
def ofWord16 (w : UInt16) : Json := ofNat w.toNat

/-- Words as a list of numbers. -/
def ofWords (words : List UInt16) : Json := ofList (words.map ofWord16)

/-- Reads a word; of a number that is too large, its last sixteen bits. -/
def readWord16 : Reader UInt16 := fun j => UInt16.ofNat <$> readNat j

/-- An integer of 32 bits as a number. -/
def ofInt32 (n : Int32) : Json := ofInt n.toInt

/-- Reads an integer of 32 bits; of another number, its last 32 bits. -/
def readInt32 : Reader Int32 := fun j => Int32.ofInt <$> readInt j

/-- An integer of 64 bits as a text, as numbers are not all exact. -/
def ofInt64 (n : Int64) : Json := string n.toInt.repr

/-- Reads an integer of 64 bits from a text. -/
def readInt64 : Reader Int64 := fun j => Int64.ofInt <$> readSpelled String.toInt? j

/-- Bytes as a text of two hexadecimal digits each. -/
def ofBytes (bytes : List UInt8) : Json := string (Text.Hex.encode bytes)

/-- The 32 bits of a floating-point number as a text. -/
def ofBits32 (bits : UInt32) : Json := ofBytes (Word.bytes32 bits)

/-- The 64 bits of a floating-point number as a text. -/
def ofBits64 (bits : UInt64) : Json := ofBytes (Word.bytes64 bits)

/-- Reads the bits of a floating-point number. -/
def readBits : Reader Nat := readSpelled Text.Hex.number?

end ComponentViews.Json
