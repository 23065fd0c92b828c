import ComponentViews.Table
import ComponentViews.Text.Affix
import ComponentViews.Text.Case
import ComponentViews.WireName.Basic

/-!
# Properties

A method `getX` or `isX` without parameters reads the property `x`, and `setX` with
one parameter writes it. Each property has one reader; of several spelled alike,
`isX` comes first. A method only writes a property that has a reader of the same
spelling whose result is the type of the parameter.
-/

namespace ComponentViews

/-- The property of a capitalised word. A word that begins with two capitals is an
    abbreviation and stays as it is. -/
def propertyName (word : String) : String :=
  match word.toList with
  | [] => ""
  | [c] => String.ofList (Text.lowerChar c)
  | c :: d :: rest =>
    if Text.isUppercase c && Text.isUppercase d then word
    else String.ofList (Text.lowerChar c ++ d :: rest)

/-- A method that could read a property. -/
structure PropertyReader where
  op : Operation
  /-- The method is called `isX`. -/
  asks : Bool
  /-- What follows `get` or `is` in the name. -/
  word : String
deriving DecidableEq, Repr

namespace PropertyReader

/-- What follows `lead` in the name of the operation, if anything does. -/
def wordAfter? (lead : String) (op : Operation) : Option String :=
  (Text.dropStart? lead op.name).filter (!·.isEmpty)

/-- The operation as a reader: it has a result and no parameters, and declares no
    failures but the protocol's. -/
def ofOperation? (h : Hierarchy) (op : Operation) : Option PropertyReader :=
  if !op.params.isEmpty || op.result.isVoid ||
      !op.throws.all (fun e => !e.isArray && h.isProtocolFailure e.name) then none
  else
    match wordAfter? "get" op with
    | some word => some ⟨op, false, word⟩
    | none =>
      if op.result.isBoolean then (wordAfter? "is" op).map fun word => ⟨op, true, word⟩
      else none

/-- The name of the property that is read. -/
def property (r : PropertyReader) : String := propertyName r.word

/-- The reader of a property among those that could be: all have to be spelled alike. -/
def choose (property : String) (first : PropertyReader) (others : List PropertyReader) :
    Except NamingConflict PropertyReader :=
  match others.find? (·.word != first.word) with
  | some odd => .error (.propertyCase first.op odd.op property)
  | none => .ok (((first :: others).find? (·.asks)).getD first)

end PropertyReader

/-- What follows `set` in the name of a method that could write a property: it has one
    parameter and no result. -/
def writerWord? (op : Operation) : Option String :=
  match op.params with
  | [_] => if op.result.isVoid then PropertyReader.wordAfter? "set" op else none
  | _ => none

namespace NameCandidate

/-- The methods that could read each property, in the order of the candidates: the
    first of them, and the others. -/
def readersByProperty (h : Hierarchy) (cands : List NameCandidate) :
    Table (PropertyReader × List PropertyReader) :=
  (cands.filterMap fun c => PropertyReader.ofOperation? h c.op).foldl
    (fun t r => t.alter r.property fun
      | none => (r, [])
      | some (first, others) => (first, others ++ [r])) ∅

/-- The reader of each property. -/
def propertyReaders (h : Hierarchy) (cands : List NameCandidate) :
    Except NamingConflict (List (String × PropertyReader)) :=
  (readersByProperty h cands).entries.mapM fun (property, first, others) =>
    return (property, ← first.choose property others)

/-- The property that the operation writes, given the reader of each. -/
def writtenProperty? (readers : List (String × PropertyReader)) (op : Operation) :
    Option String :=
  match writerWord? op with
  | none => none
  | some word =>
    match readers.lookup (propertyName word) with
    | none => none
    | some r =>
      if r.word == word && op.params == [r.op.result] then some (propertyName word) else none

/-- The candidate as the reader or the writer of a property, if it is one. -/
def foldProperty (readers : List (String × PropertyReader)) (c : NameCandidate) :
    NameCandidate :=
  match readers.find? (·.2.op.signatureKey == c.key) with
  | some (property, _) => { c with name := property, role := .getter, property := some property }
  | none =>
    match writtenProperty? readers c.op with
    | some property =>
      { c with name := property, role := .setter, property := some property }
    | none => c

/-- Names readers and writers for their property. -/
def foldProperties (h : Hierarchy) (cands : List NameCandidate) :
    Except NamingConflict (List NameCandidate) := do
  let readers ← propertyReaders h cands
  return cands.map (foldProperty readers)

end NameCandidate

end ComponentViews
