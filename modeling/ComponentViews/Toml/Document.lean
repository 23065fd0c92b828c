import ComponentViews.Toml.Value

/-!
# TOML documents

A document is a sequence of lines: pairs of a key and a value, and headers, which open the
table that the pairs after them belong to. `Document.ofText?` gives the pairs with their
whole paths, or refuses the text.

No key may be set twice, and no table opened twice. A table may come to be without being
opened: as the table around one that is opened, or as the table of a dotted key.
-/

namespace ComponentViews.Toml

/-- A line that is not blank. -/
inductive Line where
  | pair (key : List String) (value : Toml)
  /-- The header of a table. -/
  | header (key : List String)
  /-- The header of the next table in an array. -/
  | item (key : List String)

/-- Reads what stands on a line. -/
def scanExpression : Scan Line
  | '[' :: '[' :: rest => do
    let (key, rest) ← scanKey rest.length rest
    let rest ← afterChar? ']' rest
    return (.item key, ← afterChar? ']' rest)
  | '[' :: rest => do
    let (key, rest) ← scanKey rest.length rest
    return (.header key, ← afterChar? ']' rest)
  | cs => do
    let (key, rest) ← scanKey cs.length cs
    let rest := skipSpace (← afterChar? '=' rest)
    let (value, rest) ← scanValue (2 * rest.length + 1) rest
    return (.pair key value, rest)

/-- Reads the lines after those in `done`, which are reversed. -/
def scanDocument : (fuel : Nat) → (done : List Line) → List Char → Option (List Line)
  | 0, _, _ => none
  | fuel + 1, done, cs =>
    match skipLines cs.length cs with
    | [] => some done.reverse
    | c :: rest => do
      let (line, rest) ← scanExpression (skipSpace (c :: rest))
      match skipComment rest with
      | [] => return (line :: done).reverse
      | rest => scanDocument fuel (line :: done) (← afterNewline? rest)

/-! ### Paths -/

/-- A step from a table to something in it. -/
inductive Step where
  | key (name : String)
  /-- To an item of an array of tables. -/
  | place (i : Nat)
deriving DecidableEq, Repr

/-- A way from the document to something in it. -/
abbrev Path := List Step

/-- What is known of a document. -/
structure Document where
  values : List (Path × Toml) := []
  /-- The tables that headers opened. -/
  opened : List Path := []
  /-- The tables of dotted keys. -/
  dotted : List Path := []
  /-- The arrays of tables, with their lengths. -/
  arrays : List (Path × Nat) := []
  /-- The table to which pairs belong. -/
  current : Path := []

namespace Document

/-- Whether there is a value at a path. -/
def isValue (d : Document) (p : Path) : Bool := d.values.any (·.1 == p)

/-- How many tables there are in the array at a path, if it is one. -/
def arrayLength? (d : Document) (p : Path) : Option Nat := d.arrays.lookup p

/-- Whether a path is that of a table around an opened one. -/
def isAround (d : Document) (p : Path) : Bool :=
  (d.opened ++ d.arrays.map (·.1)).any fun q => p != q && p.isPrefixOf q

/-- Whether what is at a path has been set or opened there. -/
def isDefined (d : Document) (p : Path) : Bool :=
  d.isValue p || d.opened.contains p || d.dotted.contains p || (d.arrayLength? p).isSome

/-- Whether anything is at a path. -/
def isTaken (d : Document) (p : Path) : Bool := d.isDefined p || d.isAround p

/-- Whether the document has anything under a key. -/
def has (d : Document) (key : String) : Bool :=
  (d.values.map (·.1) ++ d.opened ++ d.arrays.map (·.1)).any (·.head? == some (.key key))

/-- The path of a table around an opened one. Of an array it is that of the last item. -/
def outerPath? (d : Document) : Path → List String → Option Path
  | p, [] => some p
  | p, key :: keys =>
    let p := p ++ [.key key]
    if d.isValue p then none
    else
      match d.arrayLength? p with
      | some n => outerPath? d (p ++ [.place (n - 1)]) keys
      | none => outerPath? d p keys

/-- The tables of a dotted key, the outermost first. -/
def dottedPaths (p : Path) : List String → List Path
  | [] => []
  | key :: keys => (p ++ [.key key]) :: dottedPaths (p ++ [.key key]) keys

/-- Adds a pair to the current table. The innermost table of a dotted key comes from
    dotted keys alone; those outside it may lie around an opened one. -/
def addPair (d : Document) (key : List String) (value : Toml) : Option Document :=
  let path := d.current ++ key.map .key
  let tables := dottedPaths d.current key.dropLast
  let isOpen (p : Path) := d.dotted.contains p || !d.isDefined p
  let isOwn (p : Path) := d.dotted.contains p || !d.isTaken p
  if d.isTaken path || !tables.all isOpen || !tables.getLast?.all isOwn then none
  else
    let new := tables.filter fun p => !d.isTaken p
    some { d with values := d.values ++ [(path, value)], dotted := d.dotted ++ new }

/-- Adds what stands on a line. -/
def addLine (d : Document) : Line → Option Document
  | .pair key value => d.addPair key value
  | .header key => do
    let path := (← d.outerPath? [] key.dropLast) ++ key.getLast?.toList.map .key
    if d.isDefined path then none
    else return { d with opened := d.opened ++ [path], current := path }
  | .item key => do
    let path := (← d.outerPath? [] key.dropLast) ++ key.getLast?.toList.map .key
    match d.arrayLength? path with
    | some n =>
      let arrays := d.arrays.map fun (q, m) => if q == path then (q, m + 1) else (q, m)
      return { d with arrays, current := path ++ [.place n] }
    | none =>
      if d.isTaken path then none
      else return { d with arrays := d.arrays ++ [(path, 1)], current := path ++ [.place 0] }

/-- Reads a document. -/
def ofText? (text : String) : Option Document := do
  let cs := text.toList
  let cs := if cs.head? = some '\uFEFF' then cs.drop 1 else cs
  (← scanDocument (cs.length + 1) [] cs).foldlM addLine {}

/-- The value of a key outside all tables. -/
def value? (d : Document) (key : String) : Option Toml := d.values.lookup [.key key]

end Document

end ComponentViews.Toml
