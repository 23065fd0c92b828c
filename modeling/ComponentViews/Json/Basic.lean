/-!
# JSON values and typed reading

A text is read against the type it is meant for, from left to right, and the first
fault met decides the answer. Whether something is a fault can depend on whether it
is read or passed over: a string that ends in half a surrogate pair cannot be read,
but can be skipped as the value of a field that nobody knows. So a `Json` value
keeps what there is to read, and where the text breaks off it keeps the fault.

A `Reader` turns a value into data or says what is wrong. Records are read from
objects, field by field in the order of the text, or from arrays by position.
-/

namespace ComponentViews

namespace Json

/-- Why a text cannot be read as the type it is meant for. -/
inductive Fault where
  /-- The text is no JSON. -/
  | grammar
  /-- The text ends too early. -/
  | ended
  /-- A value is not of the type wanted: of another sort, out of range, unknown, missing
      or there twice. -/
  | data
deriving DecidableEq, Repr

end Json

/-- A JSON value, as far as its text goes. -/
inductive Json where
  | null
  | bool (b : Bool)
  /-- A number, with its value if it is written as an integer of machine size. -/
  | number (whole : Option Int)
  | string (s : String)
  /-- An array, with the fault that breaks it off. -/
  | array (items : List Json) (broken : Option Json.Fault)
  /-- An object, with the fault that breaks it off. A key is missing where it holds half
      a surrogate pair. -/
  | object (entries : List (Option String × Json)) (broken : Option Json.Fault)
  /-- What stands here is no value when read; and when skipped, maybe not either. -/
  | faulty (read : Json.Fault) (skipped : Option Json.Fault)

namespace Json

instance : Inhabited Json := ⟨null⟩

/-- Reads a value of a type. -/
abbrev Reader (α : Type) := Json → Except Fault α

/-- The fault of finding this value where one of another sort is wanted. -/
def mismatch : Json → Fault
  | faulty read _ => read
  | _ => .data

/-- The fault that passing over a value meets. -/
def breach : Json → Option Fault
  | array _ broken | object _ broken => broken
  | faulty _ skipped => skipped
  | _ => none

/-- Goes on where no fault breaks the text off. -/
def unbroken : Option Fault → Except Fault Unit
  | some fault => .error fault
  | none => .ok ()

/-! ### Scalars, options and lists -/

/-- Reads a truth value. -/
def readBool : Reader Bool
  | bool b => .ok b
  | j => .error j.mismatch

/-- Reads a text. -/
def readString : Reader String
  | string s => .ok s
  | j => .error j.mismatch

/-- Reads an integer; numbers that are none are of the wrong sort. -/
def readInt : Reader Int
  | number (some n) => .ok n
  | j => .error j.mismatch

/-- Reads an integer that is not negative. -/
def readNat : Reader Nat := fun j => do
  match ← readInt j with
  | .ofNat n => .ok n
  | .negSucc _ => .error .data

/-- Reads a string that spells a value. -/
def readSpelled {α : Type} (ofText? : String → Option α) : Reader α := fun j => do
  match ofText? (← readString j) with
  | some a => .ok a
  | none => .error .data

/-- Reads a word of an enumeration, given by itself or as the only key of an object
    whose value is `null`. -/
def readWord {α : Type} (ofWord? : String → Option α) : Reader α
  | string s =>
    match ofWord? s with
    | some a => .ok a
    | none => .error .data
  | object ((some key, value) :: more) broken =>
    match ofWord? key with
    | none => .error .data
    | some a =>
      match value with
      | null => if more.isEmpty then do unbroken broken; .ok a else .error .grammar
      | j => .error j.mismatch
  | object [] (some fault) => .error fault
  | faulty read _ => .error read
  | _ => .error .grammar

/-- Reads a value that may be `null`. -/
def readOption {α : Type} (read : Reader α) : Reader (Option α)
  | null => .ok none
  | j => some <$> read j

/-- Reads a list. That it breaks off is noticed after its values have been read. -/
def readList {α : Type} (read : Reader α) : Reader (List α)
  | array items broken => do
    let values ← items.mapM read
    unbroken broken
    .ok values
  | j => .error j.mismatch

/-- Reads a value that has a default where it is `null`. -/
def readOr {α : Type} (fallback : α) (read : Reader α) : Reader α
  | null => .ok fallback
  | j => read j

/-- Reads a list that is empty where it is `null`. -/
def readListOr {α : Type} (read : Reader α) : Reader (List α) := readOr [] (readList read)

/-- Reads an object whose keys are data. -/
def readEntries {α : Type} (read : Reader α) : Reader (List (String × α))
  | object entries broken => do
    let pairs ← entries.mapM fun
      | (some key, value) => return (key, ← read value)
      | (none, _) => .error .grammar
    unbroken broken
    .ok pairs
  | j => .error j.mismatch

/-! ### Records -/

/-- A field of records of type `ρ`. -/
structure Field (ρ : Type) where
  name : String
  /-- A record without the field is no record. -/
  required : Bool
  /-- Reads the field and says how it changes the record read so far. -/
  read : Reader (ρ → ρ)

namespace Field

variable {ρ α : Type}

/-- A field that must be there. -/
def mandatory (name : String) (read : Reader α) (set : α → ρ → ρ) : Field ρ :=
  ⟨name, true, fun j => set <$> read j⟩

/-- A field that keeps its default where it is missing. -/
def optional (name : String) (read : Reader α) (set : α → ρ → ρ) : Field ρ :=
  ⟨name, false, fun j => set <$> read j⟩

end Field

/-- Takes the next entry of an object into a record: the record so far and the names
    of the fields found. -/
def readEntry {ρ : Type} (fields : List (Field ρ)) :
    ρ × List String → Option String × Json → Except Fault (ρ × List String)
  | _, (none, _) => .error .grammar
  | (record, found), (some key, value) =>
    match fields.find? (·.name == key) with
    | none => do
      unbroken value.breach
      .ok (record, found)
    | some field =>
      if found.contains key then .error .data
      else do
        let change ← field.read value
        .ok (change record, key :: found)

/-- Takes the items of an array into a record, by position. -/
def readItems {ρ : Type} (broken : Option Fault) :
    List (Field ρ) → List Json → ρ → Except Fault ρ
  | [], [], record => do
    unbroken broken
    .ok record
  | [], _ :: _, _ => .error .grammar
  | field :: fields, [], record => do
    unbroken broken
    if field.required then .error .data else readItems broken fields [] record
  | field :: fields, item :: items, record => do
    let change ← field.read item
    readItems broken fields items (change record)

/-- Reads a record, starting from `blank`. Fields that are not known are skipped, and
    one that is there twice is a fault. -/
def readRecord {ρ : Type} (blank : ρ) (fields : List (Field ρ)) : Reader ρ
  | object entries broken => do
    let (record, found) ← entries.foldlM (readEntry fields) (blank, [])
    unbroken broken
    if fields.all fun f => !f.required || found.contains f.name then .ok record
    else .error .data
  | array items broken => readItems broken fields items blank
  | j => .error j.mismatch

/-- The value of a key, or `null` where it is missing. -/
def getEntry (j : Json) (key : String) : Json :=
  match j with
  | object entries _ => (entries.lookup (some key)).getD null
  | _ => null

/-! ### Building values -/

/-- The object of the given entries. -/
def ofEntries (entries : List (String × Json)) : Json :=
  object (entries.map fun (key, value) => (some key, value)) none

/-- The array of the given items. -/
def ofList (items : List Json) : Json := array items none

/-- Texts as a list. -/
def ofStrings (texts : List String) : Json := ofList (texts.map string)

/-- An array that begins with a word. -/
def tagged (word : String) (items : List Json) : Json := ofList (string word :: items)

/-- An integer as a number. -/
def ofInt (n : Int) : Json := number (some n)

/-- A natural number as a number. -/
def ofNat (n : Nat) : Json := ofInt n

/-- The value, or `null`. -/
def ofOption {α : Type} (write : α → Json) : Option α → Json
  | none => null
  | some a => write a

end Json

end ComponentViews
