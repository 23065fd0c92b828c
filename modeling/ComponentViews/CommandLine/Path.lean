import ComponentViews.Text.Dotted

/-!
# Paths

A path is kept as its text. What it leads through are its *steps*: the parts between the
slashes, without those that are empty or a single dot.
-/

namespace ComponentViews.Path

/-- The names that a path leads through. -/
def steps (path : String) : List String :=
  ((Text.splitAt '/' path.toList).map String.ofList).filter fun s => s != "" && s != "."

/-- A path continued by another. -/
def join (path next : String) : String :=
  if next.startsWith "/" || path.isEmpty then next
  else if path.endsWith "/" then path ++ next
  else path ++ "/" ++ next

/-- The path of the directory that something lies in. -/
def parent (path : String) : String :=
  "/".intercalate (((Text.splitAt '/' path.toList).map String.ofList).dropLast)

/-- The order of paths by their steps. -/
def precedes (a b : String) : Bool := go (steps a) (steps b)
where
  /-- The order of lists of steps. -/
  go : List String → List String → Bool
    | [], _ => true
    | _ :: _, [] => false
    | a :: as, b :: bs => decide (a < b) || (a == b && go as bs)

/-- Whether a name has the given extension: what comes behind its last dot, unless that dot
    comes first. -/
def hasExtension (extension name : String) : Bool :=
  match (Text.splitAt '.' name.toList).reverse with
  | last :: stem :: more =>
    last == extension.toList && !(stem.isEmpty && more.isEmpty)
  | _ => false

/-- Whether a path leads to something whose name has the extension for requests. -/
def isRequest (path : String) : Bool := (steps path).getLast?.any (hasExtension "json")

/-- The path of the class file of a class, below the directory for class files. -/
def ofClass (directory className : String) : String :=
  join directory (Dotted.slashed className ++ ".class")

end ComponentViews.Path
