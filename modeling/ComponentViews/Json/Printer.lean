import ComponentViews.Json.Basic
import ComponentViews.Text.Hex

/-!
# Writing JSON text

`Json.compact` writes a value on one line, without blanks and with the entries of objects
in their order. Of the characters in strings only quotes, backslashes and controls are
escaped.
-/

namespace ComponentViews.Json

/-- A character within quotes. -/
def escapeChar (c : Char) : List Char :=
  match c with
  | '"' => ['\\', '"']
  | '\\' => ['\\', '\\']
  | '\x08' => ['\\', 'b']
  | '\x0c' => ['\\', 'f']
  | '\n' => ['\\', 'n']
  | '\r' => ['\\', 'r']
  | '\t' => ['\\', 't']
  | c =>
    if c.toNat < 0x20 then ['\\', 'u', '0', '0'] ++ Text.Hex.encodeByte (UInt8.ofNat c.toNat)
    else [c]

/-- A string in quotes. -/
def quote (s : String) : List Char := '"' :: s.toList.flatMap escapeChar ++ ['"']

mutual

/-- The characters of a value. What broke off in reading is written as far as it goes, and
    what could not be read as `null`. -/
def write : Json → List Char
  | .null | .number none | .faulty _ _ => ['n', 'u', 'l', 'l']
  | .bool true => ['t', 'r', 'u', 'e']
  | .bool false => ['f', 'a', 'l', 's', 'e']
  | .number (some n) => n.repr.toList
  | .string s => quote s
  | .array items _ => '[' :: writeItems items ++ [']']
  | .object entries _ => '\x7b' :: writeEntries entries ++ ['\x7d']

/-- Writes values with commas between them. -/
def writeItems : List Json → List Char
  | [] => []
  | [j] => write j
  | j :: rest => write j ++ ',' :: writeItems rest

/-- Writes entries with commas between them. -/
def writeEntries : List (Option String × Json) → List Char
  | [] => []
  | [(key, j)] => quote (key.getD "") ++ ':' :: write j
  | (key, j) :: rest => quote (key.getD "") ++ ':' :: write j ++ ',' :: writeEntries rest

end

/-- The text of a value. -/
def compact (j : Json) : String := String.ofList (write j)

end ComponentViews.Json
