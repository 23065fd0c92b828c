import ComponentViews.Json.Basic
import ComponentViews.Text.Hex

/-!
# Reading JSON text

`Json.ofText` takes a text apart without knowing what type is wanted. It stops at
the first fault, which then ends every array and object around it.

Two faults are only faults when the value is read: half a surrogate pair, and a
number beyond the range of doubles.
-/

namespace ComponentViews.Json

/-- The blank characters of JSON. -/
def isSpace (c : Char) : Bool := c == ' ' || c == '\n' || c == '\t' || c == '\r'

/-- The text behind the blanks at its beginning. -/
def skipSpace (cs : List Char) : List Char := cs.dropWhile isSpace

/-! ### Strings -/

/-- The number of four hexadecimal digits, and what follows them. The text has to go
    on for four bytes before the digits are looked at. -/
def hexUnit (cs : List Char) : Except Fault (Nat × List Char) :=
  if (cs.take 4).foldr (fun c n => c.utf8Size + n) 0 < 4 then .error .ended
  else
    match cs with
    | a :: b :: c :: d :: rest =>
      match Text.Hex.digit? a, Text.Hex.digit? b, Text.Hex.digit? c, Text.Hex.digit? d with
      | some a, some b, some c, some d => .ok (((a * 16 + b) * 16 + c) * 16 + d, rest)
      | _, _, _, _ => .error .grammar
    | _ => .error .grammar

/-- The text of a string: its characters, or `none` where half a surrogate pair stands
    in it, and what follows the closing quote; or whether half a pair came before the
    fault, and the fault. -/
abbrev Scanned := Except (Bool × Fault) (Option (List Char) × List Char)

/-- The character of a simple escape. -/
def escaped? : Char → Option Char
  | '"' => some '"'
  | '\\' => some '\\'
  | '/' => some '/'
  | 'b' => some '\x08'
  | 'f' => some '\x0c'
  | 'n' => some '\n'
  | 'r' => some '\r'
  | 't' => some '\t'
  | _ => none

/-- Scans a string after its opening quote. `text` holds the characters so far,
    reversed, or `none` after half a surrogate pair. -/
def scanString : (fuel : Nat) → (text : Option (List Char)) → List Char → Scanned
  | 0, text, _ => .error (text.isNone, .ended)
  | _ + 1, text, [] => .error (text.isNone, .ended)
  | _ + 1, text, '"' :: rest => .ok (text.map List.reverse, rest)
  | _ + 1, text, ['\\'] => .error (text.isNone, .ended)
  | fuel + 1, text, '\\' :: 'u' :: rest =>
    match hexUnit rest with
    | .error fault => .error (text.isNone, fault)
    | .ok (high, rest) =>
      if high < 0xD800 ∨ 0xDFFF < high then
        scanString fuel (text.map (Char.ofNat high :: ·)) rest
      else if 0xDBFF < high then scanString fuel none rest
      else
        match rest with
        | '\\' :: 'u' :: rest' =>
          match hexUnit rest' with
          | .error fault => .error (text.isNone, fault)
          | .ok (low, rest') =>
            if 0xDC00 ≤ low ∧ low ≤ 0xDFFF then
              let c := Char.ofNat (0x10000 + (high - 0xD800) * 0x400 + (low - 0xDC00))
              scanString fuel (text.map (c :: ·)) rest'
            else scanString fuel none rest'
        | [] | ['\\'] => .error (text.isNone, .ended)
        | rest => scanString fuel none rest
  | fuel + 1, text, '\\' :: e :: rest =>
    match escaped? e with
    | some c => scanString fuel (text.map (c :: ·)) rest
    | none => .error (text.isNone, .grammar)
  | fuel + 1, text, c :: rest =>
    if c.toNat < 0x20 then .error (text.isNone, .grammar)
    else scanString fuel (text.map (c :: ·)) rest

/-- The fault of reading a string that could not be scanned. -/
def readFault : Bool × Fault → Fault
  | (true, _) => .grammar
  | (false, fault) => fault

/-! ### Numbers and words -/

/-- The digits at the start of a text, and what follows them. -/
def takeDigits (cs : List Char) : List Char × List Char := cs.span Char.isDigit

/-- The digits that a number must have at this point. -/
def someDigits (cs : List Char) : Except Fault (List Char × List Char) :=
  match takeDigits cs with
  | ([], []) => .error .ended
  | ([], _) => .error .grammar
  | found => .ok found

/-- The number that digits stand for. -/
def digitsValue (digits : List Char) : Nat :=
  digits.foldl (fun n c => n * 10 + (c.toNat - '0'.toNat)) 0

/-- Whether `digits · 10 ^ exponent` lies beyond the largest double and half a unit in
    its last place. -/
def beyondDoubles (digits : List Char) (exponent : Int) : Bool :=
  let digits := digits.dropWhile (· == '0')
  let size := (digits.length : Int) + exponent
  if digits.isEmpty || size < 309 then false
  else if 310 < size then true
  else
    let limit := Nat.pow 2 1024 - Nat.pow 2 970
    if 0 ≤ exponent then limit ≤ digitsValue digits * Nat.pow 10 exponent.toNat
    else limit * Nat.pow 10 (-exponent).toNat ≤ digitsValue digits

/-- The exponent of a number after its `e`. -/
def takeExponent (cs : List Char) : Except Fault (Int × List Char) := do
  let (negative, cs) :=
    match cs with
    | '+' :: rest => (false, rest)
    | '-' :: rest => (true, rest)
    | cs => (false, cs)
  let (digits, rest) ← someDigits cs
  -- Past six digits every exponent acts alike.
  let digits := digits.dropWhile (· == '0')
  let size := if 6 < digits.length then 1000000000 else digitsValue digits
  return (if negative then -(size : Int) else size, rest)

/-- What a number without its sign comes to. -/
inductive Magnitude where
  | integer (n : Nat)
  /-- A number with a fraction or an exponent, or one that is longer than a machine word. -/
  | decimal
  | beyondDoubles

/-- The magnitude of `whole`, a point and `fraction`, times `10 ^ exponent`. -/
def Magnitude.ofParts (whole fraction : List Char) (exponent : Option Int) : Magnitude :=
  let isBeyond := Json.beyondDoubles (whole ++ fraction) (exponent.getD 0 - fraction.length)
  if isBeyond then beyondDoubles
  else if fraction.isEmpty ∧ exponent.isNone ∧ whole.length < 20 then integer (digitsValue whole)
  else decimal

/-- Reads a number after its sign. -/
def takeNumber (cs : List Char) : Except Fault (Magnitude × List Char) := do
  let (whole, rest) ← someDigits cs
  if whole.head? = some '0' ∧ 1 < whole.length then throw .grammar
  let (fraction, rest) ←
    match rest with
    | '.' :: rest => someDigits rest
    | rest => pure ([], rest)
  let (exponent, rest) ←
    match rest with
    | 'e' :: rest | 'E' :: rest => do
      let (exponent, rest) ← takeExponent rest
      pure (some exponent, rest)
    | rest => pure (none, rest)
  return (.ofParts whole fraction exponent, rest)

/-- What follows a word that has to be spelled out here. -/
def takeWord : (word text : List Char) → Except Fault (List Char)
  | [], text => .ok text
  | _ :: _, [] => .error .ended
  | w :: word, c :: text => if w = c then takeWord word text else .error .grammar

/-! ### Values -/

/-- A value, and the text after it unless a fault ended it. -/
abbrev Parsed := Json × Option (List Char)

/-- What a fault leaves in the place of a value. -/
def brokenAt (fault : Fault) : Parsed := (faulty fault (some fault), none)

/-- A scalar whose text has been passed over. -/
def scalar (j : Json) : Except Fault (List Char) → Parsed
  | .ok rest => (j, some rest)
  | .error fault => brokenAt fault

/-- Reads a number after its sign. -/
def parseNumber (isNegative : Bool) (cs : List Char) : Parsed :=
  match takeNumber cs with
  | .ok (.integer n, rest) => (ofInt (if isNegative then -n else n), some rest)
  | .ok (.decimal, rest) => (number none, some rest)
  | .ok (.beyondDoubles, rest) => (faulty .grammar none, some rest)
  | .error fault => brokenAt fault

/-- Reads a string behind its first quotation mark. -/
def parseString (cs : List Char) : Parsed :=
  match scanString (cs.length + 1) (some []) cs with
  | .ok (some text, rest) => (string (String.ofList text), some rest)
  | .ok (none, rest) => (faulty .grammar none, some rest)
  | .error fault => (faulty (readFault fault) (some fault.2), none)

mutual

/-- Reads a value. -/
def parseValue : (fuel : Nat) → List Char → Parsed
  | 0, _ => brokenAt .ended
  | fuel + 1, cs =>
    match skipSpace cs with
    | [] => brokenAt .ended
    | '[' :: rest => parseItems fuel [] rest
    | '\x7b' :: rest => parseEntries fuel [] rest
    | '"' :: rest => parseString rest
    | 'n' :: rest => scalar null (takeWord ['u', 'l', 'l'] rest)
    | 't' :: rest => scalar (bool true) (takeWord ['r', 'u', 'e'] rest)
    | 'f' :: rest => scalar (bool false) (takeWord ['a', 'l', 's', 'e'] rest)
    | '-' :: rest => parseNumber true rest
    | c :: rest => if c.isDigit then parseNumber false (c :: rest) else brokenAt .grammar

/-- Reads the items of an array after those in `items`, which are reversed. -/
def parseItems : (fuel : Nat) → (items : List Json) → List Char → Parsed
  | 0, items, _ => (array items.reverse (some .ended), none)
  | fuel + 1, items, cs =>
    match skipSpace cs with
    | [] => (array items.reverse (some .ended), none)
    | ']' :: rest => (array items.reverse none, some rest)
    | c :: rest =>
      if items.isEmpty then parseItem fuel items (c :: rest)
      else if c = ',' then parseItem fuel items rest
      else (array items.reverse (some .grammar), none)

/-- Reads the next item of an array and then the others. -/
def parseItem : (fuel : Nat) → (items : List Json) → List Char → Parsed
  | 0, items, _ => (array items.reverse (some .ended), none)
  | fuel + 1, items, cs =>
    match parseValue fuel cs with
    | (item, some rest) => parseItems fuel (item :: items) rest
    | (item, none) => (array (item :: items).reverse item.breach, none)

/-- Reads the entries of an object after those in `entries`, which are reversed. -/
def parseEntries : (fuel : Nat) → (entries : List (Option String × Json)) → List Char → Parsed
  | 0, entries, _ => (object entries.reverse (some .ended), none)
  | fuel + 1, entries, cs =>
    match skipSpace cs with
    | [] => (object entries.reverse (some .ended), none)
    | '\x7d' :: rest => (object entries.reverse none, some rest)
    | c :: rest =>
      if entries.isEmpty then parseEntry fuel entries (c :: rest)
      else if c = ',' then parseEntry fuel entries (skipSpace rest)
      else (object entries.reverse (some .grammar), none)

/-- Reads the next entry of an object and then the others. -/
def parseEntry : (fuel : Nat) → (entries : List (Option String × Json)) → List Char → Parsed
  | 0, entries, _ => (object entries.reverse (some .ended), none)
  | _ + 1, entries, [] => (object entries.reverse (some .ended), none)
  | fuel + 1, entries, '"' :: rest =>
    match scanString (rest.length + 1) (some []) rest with
    | .error fault =>
      if fault.1 then (object ((none, null) :: entries).reverse (some fault.2), none)
      else (object entries.reverse (some fault.2), none)
    | .ok (key, rest) =>
      let key := key.map String.ofList
      match skipSpace rest with
      | ':' :: rest =>
        match parseValue fuel rest with
        | (value, some rest) => parseEntries fuel ((key, value) :: entries) rest
        | (value, none) => (object ((key, value) :: entries).reverse value.breach, none)
      | [] => (object ((key, faulty .ended (some .ended)) :: entries).reverse (some .ended), none)
      | _ =>
        let value := faulty .grammar (some .grammar)
        (object ((key, value) :: entries).reverse (some .grammar), none)
  | _ + 1, entries, _ :: _ => (object entries.reverse (some .grammar), none)

end

/-- Reads a text that holds one value, by a reader for its type. What follows the value
    is looked at last. -/
def readText {α : Type} (read : Reader α) (text : String) : Except Fault α := do
  let cs := text.toList
  let (value, rest) := parseValue (3 * cs.length + 4) cs
  let a ← read value
  if ((rest.getD []).dropWhile isSpace).isEmpty then .ok a else .error .grammar

end ComponentViews.Json
