import ComponentViews.Text.Case
import ComponentViews.Text.Quoted.Tables

/-!
# Quoted strings

Messages show a string between double quotes, with the quote, the backslash and
the usual controls escaped by a letter, and every other character that would not
stand for itself on paper spelled by its number.
-/

namespace ComponentViews.Text.Quoted

/-- Whether a character shows as itself: it has a mark, and does not attach to
    the character before it. -/
def isPlain (c : Char) : Bool :=
  if c.toNat < 0x7F then 0x20 ≤ c.toNat
  else !inRanges graphemeExtend c.toNat && !inRanges unprintable c.toNat

/-- A character within quotes. -/
def encodeChar (c : Char) : List Char :=
  match c with
  | '\x00' => ['\\', '0']
  | '\t' => ['\\', 't']
  | '\r' => ['\\', 'r']
  | '\n' => ['\\', 'n']
  | '\\' => ['\\', '\\']
  | '"' => ['\\', '"']
  | c =>
    if isPlain c then [c]
    else ['\\', 'u', '\x7b'] ++ Nat.toDigits 16 c.toNat ++ ['\x7d']

/-- A text in quotes. -/
def encode (text : String) : String :=
  String.ofList ('"' :: text.toList.flatMap encodeChar ++ ['"'])

/-- A list of texts in quotes, in brackets. -/
def encodeAll (texts : List String) : String :=
  "[" ++ ", ".intercalate (texts.map encode) ++ "]"

end ComponentViews.Text.Quoted
