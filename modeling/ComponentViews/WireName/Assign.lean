import ComponentViews.WireName.Idl
import ComponentViews.WireName.Property

/-!
# Assigning wire names

Wire names are told apart without regard to letter case, so that the names of an
interface have to be worked out together:

* readers and writers of a property are named for it;
* names that differ only by letter case get the places of their capitals appended;
* what is no identifier is escaped;
* overloads get their parameter types appended;
* a name that is also the owner's gets an underscore, or keeps its own and gets the
  corrected one as an alias where compatibility asks for that;
* readers and writers get the word of their role in front.

The operations are taken in the order of their signatures, one of each, so that the
outcome depends on the set of operations and not on how they are listed.
-/

namespace ComponentViews

namespace NameCandidate

/-! ### Letter case -/

/-- The places of the capitals in a text, counted from `i`. -/
def capitalPlaces : (i : Nat) → List Char → List Nat
  | _, [] => []
  | i, c :: cs =>
    if Text.isUppercase c then i :: capitalPlaces (i + 1) cs else capitalPlaces (i + 1) cs

/-- A name with an underscore and the places of its capitals appended. -/
def caseMangle (name : String) : String :=
  name ++ "_" ++ "_".intercalate ((capitalPlaces 0 name.toList).map Nat.repr)

/-- Tells apart the names that differ only by letter case. -/
def foldCase (cands : List NameCandidate) : List NameCandidate :=
  let spellings := cands.map fun c => (Text.lowercase c.name, c.name)
  cands.map fun c =>
    let lower := Text.lowercase c.name
    if spellings.any fun (l, name) => l == lower && name != c.name then
      { c with name := caseMangle c.name }
    else c

/-! ### Identifiers and overloads -/

/-- Writes the characters of the name that identifiers cannot have in another way. -/
def escapeName (c : NameCandidate) : NameCandidate :=
  { c with name := Idl.escapeIdentifier c.name }

/-- A name with the parameter types appended. -/
def overloadName (name : String) (params : List Ty) : String :=
  name ++ "__" ++ "__".intercalate (params.map Idl.typeName)

/-- Whether two candidates would go by the same name as things stand. -/
def sameSpelling (c d : NameCandidate) : Bool := c.role == d.role && c.name == d.name

/-- Tells apart operations of the same name by their parameters. -/
def disambiguateOverloads (cands : List NameCandidate) : List NameCandidate :=
  cands.map fun c =>
    if 1 < cands.countP (sameSpelling c) then
      { c with name := overloadName c.name c.op.params }
    else c

/-! ### The owner's name -/

/-- What a name comes to on the wire, as far as it tells names apart. -/
def foldedWith (c : NameCandidate) (name : String) : String := Text.lowercase (c.withLead name)

/-- The candidates after those in `done` with names that are not `owner`, a name in
    lower case. -/
def avoidOwnerName (owner : String) (compat : Bool) :
    (done rest : List NameCandidate) → Except NamingConflict (List NameCandidate)
  | done, [] => .ok done
  | done, c :: rest =>
    if c.foldedWith c.name != owner then avoidOwnerName owner compat (done ++ [c]) rest
    else
      let corrected := c.name ++ "_"
      -- Names before it are corrected already, those behind it are not yet.
      match (done ++ rest).find? fun o => o.foldedWith o.name == c.foldedWith corrected with
      | none => avoidOwnerName owner compat (done ++ [{ c with name := corrected }]) rest
      | some o =>
        if compat then
          avoidOwnerName owner compat (done ++ [{ c with altName := some corrected }]) rest
        else .error (.ownerName c.op o.op c.name corrected)

/-- Renames what is called like the owner's last segment. -/
def avoidOwner (owner : Option String) (compat : Bool) (cands : List NameCandidate) :
    Except NamingConflict (List NameCandidate) :=
  match owner with
  | none => .ok cands
  | some owner => avoidOwnerName (Text.lowercase (Dotted.simpleName owner)) compat [] cands

/-! ### Final names -/

/-- Puts the word of the role in front of the name, and of its alias. -/
def leadName (c : NameCandidate) : NameCandidate :=
  { c with name := c.withLead c.name, altName := c.altName.map c.withLead }

/-- Checks that no two names are equal but for letter case; `seen` holds the names
    before. -/
def checkDistinct : (seen : List (String × Operation)) → List NameCandidate →
    Except NamingConflict Unit
  | _, [] => .ok ()
  | seen, c :: rest =>
    match seen.lookup (Text.lowercase c.name) with
    | some first => .error (.sameName first c.op c.name)
    | none => checkDistinct ((Text.lowercase c.name, c.op) :: seen) rest

/-- What remains of a candidate once its name is settled. -/
def wireName (c : NameCandidate) : WireName where
  name := c.name
  altName := c.altName
  property := c.property

/-- One candidate for each signature, in the order of the signatures; the first
    operation of a signature stands for it. -/
def ofOperations (ops : List Operation) : List NameCandidate :=
  (ops.foldl (fun t op => t.insertIfNew op.signatureKey (ofOperation op)) (∅ : Table _)).values

/-- The candidates with their final names. -/
def settle (h : Hierarchy) (owner : Option String) (compat : Bool)
    (cands : List NameCandidate) : Except NamingConflict (List NameCandidate) := do
  let cands ← foldProperties h cands
  let cands ← avoidOwner owner compat (disambiguateOverloads ((foldCase cands).map escapeName))
  let cands := cands.map leadName
  checkDistinct [] cands
  return cands

end NameCandidate

namespace WireName

/-- The wire names of operations, in their order; operations of one signature share
    one. With `compat`, a corrected name that is taken becomes an alias. -/
def assign (h : Hierarchy) (owner : Option String) (compat : Bool) (ops : List Operation) :
    Except NamingConflict (List WireName) := do
  let settled ← NameCandidate.settle h owner compat (NameCandidate.ofOperations ops)
  let names := settled.map fun c => (c.key, c.wireName)
  return ops.map fun op => (names.lookup op.signatureKey).getD { name := op.name }

end WireName

end ComponentViews
