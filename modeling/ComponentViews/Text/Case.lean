import ComponentViews.Text.Case.Tables

/-!
# Letter case

Upper-case letters, and texts in lower case or with a capital, for all of Unicode.
Two characters do not map one to one to lower case: the dotted capital `I` becomes
an `i` and a combining dot, and a capital sigma becomes the final form at the end of
a word.
-/

namespace ComponentViews.Text

/-- Whether the code point lies in one of the closed ranges. -/
def inRanges (ranges : List (Nat × Nat)) (n : Nat) : Bool :=
  ranges.any fun (lo, hi) => lo ≤ n && n ≤ hi

/-- The characters with the property `Uppercase`. -/
def isUppercase (c : Char) : Bool :=
  if c.toNat < 0x80 then c.isUpper else Case.uppercase.any (·.contains c.toNat)

/-- The characters with the property `Cased`. -/
def isCased (c : Char) : Bool :=
  if c.toNat < 0x80 then c.isAlpha else inRanges Case.cased c.toNat

/-- The characters with the property `Case_Ignorable`. -/
def isCaseIgnorable (c : Char) : Bool :=
  if c.toNat < 0x80 then [0x27, 0x2E, 0x3A, 0x5E, 0x60].contains c.toNat
  else inRanges Case.caseIgnorable c.toNat

/-- The lower-case form of a character on its own. -/
def lowerChar (c : Char) : List Char :=
  if c.toNat < 0x80 then [c.toLower]
  else if c.toNat = 0x130 then ['i', Char.ofNat 0x307]
  else
    match Case.lowerOffsets.find? (·.1.contains c.toNat) with
    | some (_, offset) => [Char.ofNat ((c.toNat : Int) + offset).toNat]
    | none => [c]

/-- The upper-case form of a character. -/
def upperChar (c : Char) : List Char :=
  if c.toNat < 0x80 then [c.toUpper]
  else
    match Case.upperExpansions.lookup c.toNat with
    | some form => form.map Char.ofNat
    | none =>
      match Case.upperOffsets.find? (·.1.contains c.toNat) with
      | some (_, offset) => [Char.ofNat ((c.toNat : Int) + offset).toNat]
      | none => [c]

/-- The text with its first character in upper case. -/
def capitalize (text : String) : String :=
  match text.toList with
  | [] => ""
  | c :: rest => String.ofList (upperChar c ++ rest)

/-- Whether the first character that does not go unnoticed by letter case is cased. -/
def beginsCased (cs : List Char) : Bool :=
  match cs.dropWhile isCaseIgnorable with
  | [] => false
  | c :: _ => isCased c

/-- The lower-case form of a text. A capital sigma with a cased letter before it
    and none after it takes its final form. -/
def lowercaseChars (cs : List Char) : List Char :=
  go [] cs
where
  /-- The lower-case form of what follows the text whose reversal is `before`. -/
  go (before : List Char) : List Char → List Char
    | [] => []
    | c :: rest =>
      (if c.toNat = 0x3A3 then
        [Char.ofNat (if beginsCased before && !beginsCased rest then 0x3C2 else 0x3C3)]
      else lowerChar c) ++ go (c :: before) rest

/-- The lower-case form of a text. -/
def lowercase (text : String) : String := String.ofList (lowercaseChars text.toList)

end ComponentViews.Text
