import ComponentViews.CommandLine.Program

/-!
# The executable

The program on the machine that it is started on.
-/

namespace ComponentViews.Machine

/-- What is wrong with a file, by the number that the operating system gives it. -/
def faultOf (e : IO.Error) : FileFault :=
  match e with
  | .noFileOrDirectory _ _ _ | .noSuchThing _ _ _ => .notFound
  | .alreadyExists _ _ _ => .exists
  | .inappropriateType _ 20 _ => .notDirectory
  | .inappropriateType _ 21 _ => .isDirectory
  | e => .other (toString e)

/-- Something done to files, with what went wrong. -/
def attempt {α : Type} (action : IO α) : IO (Except FileFault α) := do
  try
    return .ok (← action)
  catch e => return .error (faultOf e)

/-- The files below a directory. -/
partial def filesBelow (path : String) : IO (List String) := do
  let place := (← IO.currentDir) / path
  unless ← place.isDir do return []
  let entries ← place.readDir
  let lists ← entries.toList.mapM fun entry => do
    let next := Path.join path entry.fileName
    match (← entry.path.symlinkMetadata).type with
    | .dir => filesBelow next
    | .file => return [next]
    | _ => return []
  return lists.flatten

/-- The machine that the program runs on. -/
def host : Host IO where
  readText path := attempt do
    match String.fromUTF8? (← IO.FS.readBinFile path) with
    | some text => return text
    | none => throw (IO.userError FileFault.notText.message)
  isFile path := do
    let place := (← IO.currentDir) / path
    return (← place.pathExists) && (← place.metadata).type == .file
  filesBelow path := try filesBelow path catch _ => return []
  makeDirectory path := do
    let place := (← IO.currentDir) / path
    match ← attempt (unless path.isEmpty do IO.FS.createDirAll place) with
    | .error .exists => return .error (if ← place.pathExists then .exists else .notDirectory)
    | result => return result
  writeBytes path bytes := attempt (IO.FS.writeBinFile path ⟨bytes.toArray⟩)
  printLine line := IO.println line
  warnLine line := IO.eprintln line

end ComponentViews.Machine

/-- Runs the program. -/
def main (args : List String) : IO UInt32 := do
  return UInt32.ofNat (← ComponentViews.Program.run ComponentViews.Machine.host args)
