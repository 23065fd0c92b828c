import ComponentViews.CommandLine.Host
import ComponentViews.CommandLine.Path

/-!
# Files in memory

A host whose files are a value: commands run on it leave behind what they printed and the
files as they are afterwards. Directories are there as far as files lie in them. All paths
start from the one directory that holds everything; what lies outside is not found.
-/

namespace ComponentViews

/-- Files, by the names on the way to each. -/
structure FileTree where
  files : List (List String × ByteArray) := []

namespace FileTree

/-- The contents of the file at the end of some steps. -/
def file? (t : FileTree) (steps : List String) : Option ByteArray := t.files.lookup steps

/-- Whether some steps lead to a directory. The root is one, and so is all that has a file below it.
    -/
def isDirectory (t : FileTree) (steps : List String) : Bool :=
  steps.isEmpty || t.files.any fun (other, _) => steps != other && steps.isPrefixOf other

/-- Follows steps from a place. Every place on the way has to be a directory. -/
def follow (t : FileTree) : (place : List String) → List String →
    Except FileFault (List String)
  | place, [] => .ok place
  | place, step :: steps =>
    if (t.file? place).isSome then .error .notDirectory
    else if !t.isDirectory place then .error .notFound
    else follow t (if step = ".." then place.dropLast else place ++ [step]) steps

/-- The place that a path leads to. A slash at the end asks for a directory. -/
def locate (t : FileTree) (path : String) : Except FileFault (List String) := do
  if path.isEmpty || path.startsWith "/" then throw .notFound
  let place ← t.follow [] (Path.steps path)
  let wantsDirectory := path.endsWith "/" || path.endsWith "/."
  if wantsDirectory && (t.file? place).isSome then throw .notDirectory
  return place

/-- Reads the text of a file. -/
def readText (t : FileTree) (path : String) : Except FileFault String := do
  let place ← t.locate path
  match t.file? place with
  | some bytes =>
    match String.fromUTF8? bytes with
    | some text => return text
    | none => throw .notText
  | none => throw (if t.isDirectory place then .isDirectory else .notFound)

/-- Whether a path leads to a file. -/
def isFile (t : FileTree) (path : String) : Bool :=
  match t.locate path with
  | .ok place => (t.file? place).isSome
  | .error _ => false

/-- The paths of all files below a directory, at any depth. -/
def filesBelow (t : FileTree) (path : String) : List String :=
  match t.locate path with
  | .ok place => t.files.filterMap fun (steps, _) =>
    if place != steps && place.isPrefixOf steps then
      some (Path.join path ("/".intercalate (steps.drop place.length)))
    else none
  | .error _ => []

/-- The place that a path leads to, where directories on the way may be missing. -/
def destination (path : String) : List String :=
  (Path.steps path).foldl (fun place s => if s = ".." then place.dropLast else place ++ [s]) []

/-- Whether a directory can be made at a path: nothing on the way is a file. -/
def makeDirectory (t : FileTree) (path : String) : Except FileFault Unit :=
  let place := destination path
  if (t.file? place).isSome then .error .exists
  else if t.files.any fun (steps, _) => steps.isPrefixOf place then .error .notDirectory
  else .ok ()

/-- Writes a file, in place of the one that is there. -/
def writeBytes (t : FileTree) (path : String) (bytes : List UInt8) :
    Except FileFault FileTree :=
  let place := destination path
  if t.isDirectory place then .error .isDirectory
  else
    let others := t.files.filter (·.1 != place)
    .ok ⟨(place, ⟨bytes.toArray⟩) :: others⟩

end FileTree

/-- A run of a command on files in memory. -/
structure MemoryRun where
  tree : FileTree
  /-- The lines printed, the latest first. -/
  printedReversed : List String := []
  warnedReversed : List String := []

namespace MemoryRun

/-- The lines that have been printed, the first one first. -/
def printed (r : MemoryRun) : List String := r.printedReversed.reverse

/-- The warnings, the first one first. -/
def warned (r : MemoryRun) : List String := r.warnedReversed.reverse

/-- The host whose files are in memory. -/
def host : Host (StateM MemoryRun) where
  readText path := return (← get).tree.readText path
  isFile path := return (← get).tree.isFile path
  filesBelow path := return (← get).tree.filesBelow path
  makeDirectory path := return (← get).tree.makeDirectory path
  writeBytes path bytes := do
    let r ← get
    match r.tree.writeBytes path bytes with
    | .ok tree =>
      set { r with tree }
      return .ok ()
    | .error fault => return .error fault
  printLine line := modify fun r => { r with printedReversed := line :: r.printedReversed }
  warnLine line := modify fun r => { r with warnedReversed := line :: r.warnedReversed }

end MemoryRun

end ComponentViews
