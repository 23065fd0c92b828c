import ComponentViews.Text.Hex

/-!
# TOML values

Scanners for the keys and values of TOML texts. A scanner takes what it is for off the
start of a text and gives it with the rest, or refuses the text; no reason is given.

Strings, integers and truth values are kept. The values of other sorts are checked, but
what they are does not matter here.
-/

namespace ComponentViews

/-- A value of a TOML text. -/
inductive Toml where
  | string (s : String)
  | integer (n : Int)
  | boolean (b : Bool)
  /-- A number with a fraction or exponent, a date or time, an array, or a table. -/
  | other
deriving DecidableEq, Repr

namespace Toml

/-- Takes something off the start of a text. -/
abbrev Scan (α : Type) := List Char → Option (α × List Char)

/-! ### Blanks, comments and the ends of lines -/

/-- The blanks within a line. -/
def isSpace (c : Char) : Bool := c == ' ' || c == '\t'

/-- The text behind the blanks at its beginning. -/
def skipSpace (cs : List Char) : List Char := cs.dropWhile isSpace

/-- The characters that strings and comments may hold as they are. -/
def isText (c : Char) : Bool := c == '\t' || (0x20 ≤ c.toNat && c != '\x7f')

/-- What follows blanks and a comment. -/
def skipComment (cs : List Char) : List Char :=
  match skipSpace cs with
  | '#' :: rest => rest.dropWhile isText
  | rest => rest

/-- What follows the end of a line. -/
def afterNewline? : List Char → Option (List Char)
  | '\n' :: rest => some rest
  | '\r' :: '\n' :: rest => some rest
  | _ => none

/-- What follows blanks, comments and ends of lines. -/
def skipLines : (fuel : Nat) → List Char → List Char
  | 0, cs => cs
  | fuel + 1, cs =>
    let rest := skipComment cs
    match afterNewline? rest with
    | some rest => skipLines fuel rest
    | none => rest

/-! ### Strings -/

/-- The character of a simple escape. -/
def escaped? : Char → Option Char
  | '"' => some '"'
  | '\\' => some '\\'
  | 'b' => some '\x08'
  | 't' => some '\t'
  | 'n' => some '\n'
  | 'f' => some '\x0c'
  | 'r' => some '\r'
  | _ => none

/-- The character of so many hexadecimal digits. -/
def scanCodePoint (digits : Nat) : Scan Char := fun cs => do
  let n ← Text.Hex.number? (String.ofList (cs.take digits))
  if (cs.take digits).length = digits ∧ n.isValidChar then
    return (Char.ofNat n, cs.drop digits)
  else none

/-- The character of an escape, after its backslash. -/
def scanEscape : Scan Char
  | 'u' :: rest => scanCodePoint 4 rest
  | 'U' :: rest => scanCodePoint 8 rest
  | c :: rest => do return (← escaped? c, rest)
  | [] => none

/-- A string in quotes after those characters in `done`, which are reversed. Only in
    double quotes are there escapes. -/
def scanLine (quote : Char) : (fuel : Nat) → (done : List Char) → Scan String
  | 0, _, _ => none
  | _ + 1, _, [] => none
  | fuel + 1, done, c :: rest =>
    if c = quote then some (String.ofList done.reverse, rest)
    else if c = '\\' ∧ quote = '"' then do
      let (c, rest) ← scanEscape rest
      scanLine quote fuel (c :: done) rest
    else if isText c then scanLine quote fuel (c :: done) rest
    else none

/-- Whether blanks and the end of a line follow. -/
def endsLine (cs : List Char) : Bool := (afterNewline? (skipSpace cs)).isSome

/-- A string of several lines, which three quotes end; two more may stand before them. A
    backslash at the end of a line passes over blanks and ends of lines. -/
def scanLines (quote : Char) : (fuel : Nat) → (done : List Char) → Scan String
  | 0, _, _ => none
  | _ + 1, _, [] => none
  | fuel + 1, done, c :: rest =>
    if c = quote then
      let quotes := min 5 ((c :: rest).takeWhile (· == quote)).length
      let rest := (c :: rest).drop quotes
      if quotes < 3 then scanLines quote fuel (List.replicate quotes quote ++ done) rest
      else some (String.ofList (List.replicate (quotes - 3) quote ++ done).reverse, rest)
    else if c = '\\' ∧ quote = '"' then
      if endsLine rest then
        let isBlank (c : Char) := isSpace c || c == '\n' || c == '\r'
        scanLines quote fuel done (rest.dropWhile isBlank)
      else do
        let (c, rest) ← scanEscape rest
        scanLines quote fuel (c :: done) rest
    else
      match afterNewline? (c :: rest) with
      | some rest => scanLines quote fuel ('\n' :: done) rest
      | none => if isText c then scanLines quote fuel (c :: done) rest else none

/-- A string after its first quote. -/
def scanString (quote : Char) : Scan String
  | a :: b :: rest =>
    if a = quote ∧ b = quote then
      scanLines quote (rest.length + 1) [] ((afterNewline? rest).getD rest)
    else scanLine quote (rest.length + 3) [] (a :: b :: rest)
  | cs => scanLine quote (cs.length + 1) [] cs

/-! ### Keys -/

/-- The characters of keys without quotation marks. -/
def isBareKeyChar (c : Char) : Bool := c.isAlphanum || c == '_' || c == '-'

/-- One part of a key. -/
def scanSimpleKey : Scan String
  | '"' :: rest => scanLine '"' (rest.length + 1) [] rest
  | '\'' :: rest => scanLine '\'' (rest.length + 1) [] rest
  | cs =>
    match cs.span isBareKeyChar with
    | ([], _) => none
    | (key, rest) => some (String.ofList key, rest)

/-- A key: one part or more, with dots between them. -/
def scanKey : (fuel : Nat) → Scan (List String)
  | 0, _ => none
  | fuel + 1, cs => do
    let (key, rest) ← scanSimpleKey (skipSpace cs)
    match skipSpace rest with
    | '.' :: rest =>
      let (keys, rest) ← scanKey fuel rest
      return (key :: keys, rest)
    | rest => return ([key], rest)

/-! ### Numbers -/

/-- The digits of a number, with single underscores between them left out. -/
def scanDigits (isDigit : Char → Bool) (cs : List Char) : Option (List Char × List Char) :=
  let (digits, rest) := cs.span fun c => isDigit c || c == '_'
  let parts := separated digits
  if parts.all (!·.isEmpty) then some (parts.flatten, rest) else none
where
  /-- The runs of digits between underscores. -/
  separated : List Char → List (List Char)
    | [] => [[]]
    | c :: cs =>
      match separated cs with
      | [] => []
      | part :: parts => if c = '_' then [] :: part :: parts else (c :: part) :: parts

/-- The number of digits in a base. -/
def digitsValue (base : Nat) (digits : List Char) : Nat :=
  digits.foldl (fun n c => n * base + (Text.Hex.digit? c).getD 0) 0

/-- The integers of 64 bits, which are all that there are. -/
def inRange (n : Int) : Bool := -0x8000000000000000 ≤ n && n < 0x8000000000000000

/-- An integer in a base other than ten, after the letter for the base. -/
def scanBased (base : Nat) (cs : List Char) : Option (Toml × List Char) := do
  let isDigit (c : Char) := (Text.Hex.digit? c).any (· < base)
  let (digits, rest) ← scanDigits isDigit cs
  let n : Int := digitsValue base digits
  if inRange n then return (integer n, rest) else none

/-- Whether a number is negative, and what follows its sign. -/
def scanSign : List Char → Bool × List Char
  | '+' :: rest => (false, rest)
  | '-' :: rest => (true, rest)
  | cs => (false, cs)

/-- What follows the fraction and the exponent of a number, if it has one of them. -/
def afterFloat? (cs : List Char) : Option (List Char) := do
  let afterExponent? (cs : List Char) : Option (List Char) :=
    match cs with
    | 'e' :: rest | 'E' :: rest => do
      let (_, rest) ← scanDigits Char.isDigit (scanSign rest).2
      return rest
    | _ => none
  match cs with
  | '.' :: rest =>
    let (_, rest) ← scanDigits Char.isDigit rest
    match rest with
    | 'e' :: _ | 'E' :: _ => afterExponent? rest
    | rest => return rest
  | cs => afterExponent? cs

/-- A number in base ten, after its sign. -/
def scanDecimal (isNegative : Bool) (cs : List Char) : Option (Toml × List Char) := do
  let (digits, rest) ← scanDigits Char.isDigit cs
  if digits.head? = some '0' ∧ 1 < digits.length then none
  else
    match rest with
    | '.' :: _ | 'e' :: _ | 'E' :: _ => return (other, ← afterFloat? rest)
    | rest =>
      let size : Int := digitsValue 10 digits
      let n := if isNegative then -size else size
      if inRange n then return (integer n, rest) else none

/-! ### Dates and times -/

/-- So many digits, and the number that they spell, which lies between two others. -/
def scanFixed (count low high : Nat) (cs : List Char) : Option (Nat × List Char) :=
  let digits := cs.take count
  let n := digitsValue 10 digits
  if digits.length = count ∧ digits.all Char.isDigit ∧ low ≤ n ∧ n ≤ high then
    some (n, cs.drop count)
  else none

/-- What follows a character that has to stand here. -/
def afterChar? (c : Char) : List Char → Option (List Char)
  | d :: rest => if d = c then some rest else none
  | [] => none

/-- The days of a month. -/
def daysOf (year month : Nat) : Nat :=
  if month = 2 then
    if year % 4 = 0 ∧ (year % 100 ≠ 0 ∨ year % 400 = 0) then 29 else 28
  else if month ∈ [4, 6, 9, 11] then 30
  else 31

/-- What follows a date. -/
def afterDate? (cs : List Char) : Option (List Char) := do
  let (year, rest) ← scanFixed 4 0 9999 cs
  let (month, rest) ← scanFixed 2 1 12 (← afterChar? '-' rest)
  let (_, rest) ← scanFixed 2 1 (daysOf year month) (← afterChar? '-' rest)
  return rest

/-- What follows a time of day. -/
def afterTime? (cs : List Char) : Option (List Char) := do
  let (_, rest) ← scanFixed 2 0 23 cs
  let (_, rest) ← scanFixed 2 0 59 (← afterChar? ':' rest)
  let (_, rest) ← scanFixed 2 0 60 (← afterChar? ':' rest)
  match rest with
  | '.' :: c :: rest => if c.isDigit then return rest.dropWhile Char.isDigit else none
  | rest => return rest

/-- What follows the distance from universal time, if one is given. -/
def afterOffset? (cs : List Char) : Option (List Char) :=
  match cs with
  | 'Z' :: rest | 'z' :: rest => some rest
  | '+' :: rest | '-' :: rest => do
    let (_, rest) ← scanFixed 2 0 23 rest
    let (_, rest) ← scanFixed 2 0 59 (← afterChar? ':' rest)
    return rest
  | rest => some rest

/-- What follows a date, a time, or a date with a time. -/
def afterMoment? (cs : List Char) : Option (List Char) :=
  match afterDate? cs with
  | none => afterTime? cs
  | some (c :: rest) =>
    if c = 'T' ∨ c = 't' then (afterTime? rest).bind afterOffset?
    else if c = ' ' ∧ rest.head?.any Char.isDigit then (afterTime? rest).bind afterOffset?
    else some (c :: rest)
  | some [] => some []

/-- A number or a moment. -/
def scanNumber (cs : List Char) : Option (Toml × List Char) :=
  match afterMoment? cs with
  | some rest => some (other, rest)
  | none =>
    match cs with
    | '0' :: 'x' :: rest => scanBased 16 rest
    | '0' :: 'o' :: rest => scanBased 8 rest
    | '0' :: 'b' :: rest => scanBased 2 rest
    | cs =>
      let (isNegative, digits) := scanSign cs
      match digits with
      | 'i' :: 'n' :: 'f' :: rest | 'n' :: 'a' :: 'n' :: rest => some (other, rest)
      | digits => scanDecimal isNegative digits

/-! ### Arrays, tables and all values -/

/-- Whether one key runs into another: they are the same, or the one is the start of the
    other where only one of the two may stand. -/
def clashes (a b : List String) : Bool := a.isPrefixOf b || b.isPrefixOf a

mutual

/-- A value. -/
def scanValue : (fuel : Nat) → Scan Toml
  | 0, _ => none
  | fuel + 1, cs =>
    match cs with
    | '"' :: rest => do
      let (s, rest) ← scanString '"' rest
      return (string s, rest)
    | '\'' :: rest => do
      let (s, rest) ← scanString '\'' rest
      return (string s, rest)
    | 't' :: 'r' :: 'u' :: 'e' :: rest => some (boolean true, rest)
    | 'f' :: 'a' :: 'l' :: 's' :: 'e' :: rest => some (boolean false, rest)
    | '[' :: rest => scanItems fuel (skipLines rest.length rest)
    | '\x7b' :: rest =>
      match skipSpace rest with
      | '\x7d' :: rest => some (other, rest)
      | rest => scanPairs fuel [] rest
    | cs => scanNumber cs

/-- The items of an array, up to its end. -/
def scanItems : (fuel : Nat) → Scan Toml
  | 0, _ => none
  | fuel + 1, cs =>
    match cs with
    | ']' :: rest => some (other, rest)
    | cs => do
      let (_, rest) ← scanValue fuel cs
      match skipLines rest.length rest with
      | ',' :: rest => scanItems fuel (skipLines rest.length rest)
      | ']' :: rest => return (other, rest)
      | _ => none

/-- The pairs of a table in braces after those with the given keys, up to its end. -/
def scanPairs : (fuel : Nat) → (keys : List (List String)) → Scan Toml
  | 0, _, _ => none
  | fuel + 1, keys, cs => do
    let (key, rest) ← scanKey cs.length cs
    let rest ← afterChar? '=' rest
    let (_, rest) ← scanValue fuel (skipSpace rest)
    if keys.any (clashes key) then none
    else
      match skipSpace rest with
      | ',' :: rest => scanPairs fuel (key :: keys) rest
      | '\x7d' :: rest => return (other, rest)
      | _ => none

end

end Toml

end ComponentViews
