import ComponentViews.Text.Utf16

/-!
# Modified UTF-8

Class files spell strings unit by unit of UTF-16: a unit takes one byte from 1 to
0x7F, two bytes up to 0x7FF and for 0, and three bytes otherwise. So surrogates are
spelled one by one, and no byte is zero.
-/

namespace ComponentViews.ModifiedUtf8

/-- The bytes of a unit. -/
def encodeUnit (u : Nat) : List UInt8 :=
  if u ≠ 0 ∧ u < 0x80 then [UInt8.ofNat u]
  else if u < 0x800 then [UInt8.ofNat (0xC0 + u / 0x40), UInt8.ofNat (0x80 + u % 0x40)]
  else
    [UInt8.ofNat (0xE0 + u / 0x1000), UInt8.ofNat (0x80 + u / 0x40 % 0x40),
      UInt8.ofNat (0x80 + u % 0x40)]

/-- The bytes of a text. -/
def encode (text : String) : List UInt8 := (Utf16.ofText text.toList).flatMap encodeUnit

/-- The units that bytes spell after those in `units`, which are reversed. The bytes
    after the first of a unit count for their last six bits only. -/
def decodeUnits? : (units : List Nat) → List UInt8 → Option (List Nat)
  | units, [] => some units.reverse
  | units, b :: rest =>
    let n := b.toNat
    if n ≠ 0 ∧ n < 0x80 then decodeUnits? (n :: units) rest
    else if n / 0x20 = 6 then
      match rest with
      | b2 :: rest =>
        let unit := n % 0x20 * 0x40 + b2.toNat % 0x40
        decodeUnits? (unit :: units) rest
      | [] => none
    else if n / 0x10 = 14 then
      match rest with
      | b2 :: b3 :: rest =>
        let unit := n % 0x10 * 0x1000 + b2.toNat % 0x40 * 0x40 + b3.toNat % 0x40
        decodeUnits? (unit :: units) rest
      | _ => none
    else none

/-- The text that bytes spell, if each surrogate has its partner. -/
def decode? (bytes : List UInt8) : Option String := do
  let units ← decodeUnits? [] bytes
  return String.ofList (← Utf16.toText? [] units)

end ComponentViews.ModifiedUtf8
