/-!
# UTF-16 code units

A character is one unit or a pair of surrogates. String hashes, identifier
escapes and the strings of a class file are all defined on units.
-/

namespace ComponentViews.Utf16

/-- The units of a character. -/
def units (c : Char) : List Nat :=
  if c.toNat < 0x10000 then [c.toNat]
  else [0xD800 + (c.toNat - 0x10000) / 0x400, 0xDC00 + (c.toNat - 0x10000) % 0x400]

theorem units_lt {c : Char} {u : Nat} (h : u ∈ units c) : u < 0x10000 := by
  have hc : c.toNat < 0x110000 := by
    have := c.valid
    simp only [UInt32.isValidChar, Nat.isValidChar] at this
    show c.val.toNat < 0x110000
    omega
  simp only [units] at h
  split at h
  · simp only [List.mem_singleton] at h; omega
  · simp only [List.mem_cons, List.not_mem_nil, or_false] at h
    omega

/-- The units of a text. -/
def ofText (text : List Char) : List Nat := text.flatMap units

/-- The characters of units after those in `text`, which are reversed; a surrogate
    without its partner is none. -/
def toText? : (text : List Char) → List Nat → Option (List Char)
  | text, [] => some text.reverse
  | text, u :: rest =>
    if u < 0xD800 ∨ 0xDFFF < u then toText? (Char.ofNat u :: text) rest
    else if 0xDBFF < u then none
    else
      match rest with
      | low :: rest =>
        if 0xDC00 ≤ low ∧ low ≤ 0xDFFF then
          toText? (Char.ofNat (0x10000 + (u - 0xD800) * 0x400 + (low - 0xDC00)) :: text) rest
        else none
      | [] => none

/-- The 32-bit hash of a text: `31` times the hash of the units before the last,
    plus the last, with the carry lost. -/
def hash (text : String) : Int32 :=
  (ofText text.toList).foldl (fun h u => h * 31 + Int32.ofNat u) 0

end ComponentViews.Utf16
