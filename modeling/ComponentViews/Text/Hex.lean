/-!
# Hexadecimal digits

Numbers and bytes in hexadecimal digits: written in lower case, read in either case.
-/

namespace ComponentViews.Text.Hex

/-- The value of a digit. -/
def digit? (c : Char) : Option Nat :=
  let n := c.toNat
  if 0x30 ≤ n ∧ n ≤ 0x39 then some (n - 0x30)
  else if 0x41 ≤ n ∧ n ≤ 0x46 then some (n - 0x37)
  else if 0x61 ≤ n ∧ n ≤ 0x66 then some (n - 0x57)
  else none

/-- The digit of a value below 16. -/
def digitChar (n : Nat) : Char := Char.ofNat (if n < 10 then 0x30 + n else 0x57 + n)

/-- A byte in two digits. -/
def encodeByte (b : UInt8) : List Char := [digitChar (b.toNat / 16), digitChar (b.toNat % 16)]

/-- Bytes in two digits each. -/
def encode (bytes : List UInt8) : String := String.ofList (bytes.flatMap encodeByte)

/-- The number that digits spell. -/
def number? (text : String) : Option Nat :=
  text.toList.foldlM (fun n c => return n * 16 + (← digit? c)) 0

/-- The bytes that pairs of digits spell, after those in `bytes`, which are reversed. -/
def decodeChars? : (bytes : List UInt8) → List Char → Option (List UInt8)
  | bytes, [] => some bytes.reverse
  | bytes, a :: b :: rest => do
    let byte := UInt8.ofNat ((← digit? a) * 16 + (← digit? b))
    decodeChars? (byte :: bytes) rest
  | _, [_] => none

/-- The bytes that pairs of digits spell. -/
def decode? (text : String) : Option (List UInt8) := decodeChars? [] text.toList

end ComponentViews.Text.Hex
