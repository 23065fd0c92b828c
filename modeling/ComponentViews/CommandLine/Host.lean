import ComponentViews.CommandLine.Report

/-!
# The host of a command

What a command needs of the machine that it runs on: reading and writing files, and two
streams of lines. Commands are written for any host, so that what they do can be seen
without touching a disk.
-/

namespace ComponentViews

/-- Why a file cannot be read or written. -/
inductive FileFault where
  | notFound
  | exists
  | notDirectory
  | isDirectory
  /-- The file is no text. -/
  | notText
  | other (message : String)
deriving DecidableEq, Repr

/-- The text that the host has for a fault. -/
def FileFault.message : FileFault → String
  | notFound => "No such file or directory (os error 2)"
  | .exists => "File exists (os error 17)"
  | notDirectory => "Not a directory (os error 20)"
  | isDirectory => "Is a directory (os error 21)"
  | notText => "stream did not contain valid UTF-8"
  | other message => message

/-- A machine that runs commands. -/
structure Host (m : Type → Type) where
  readText : (path : String) → m (Except FileFault String)
  isFile : (path : String) → m Bool
  /-- The paths of the files below a directory, each beginning with the path given. -/
  filesBelow : (path : String) → m (List String)
  /-- Makes a directory and those that it lies in. -/
  makeDirectory : (path : String) → m (Except FileFault Unit)
  writeBytes : (path : String) → List UInt8 → m (Except FileFault Unit)
  printLine : String → m Unit
  /-- Prints a line for warnings and errors. -/
  warnLine : String → m Unit

/-- A command at work: it may fail with a report. -/
abbrev Work (m : Type → Type) (α : Type) := ExceptT Report m α

namespace Work

variable {m : Type → Type} [Monad m] {α : Type}

/-- Something that the host does, and what a fault of it is reported as. -/
def attempt (action : m (Except FileFault α)) (report : String → Report) : Work m α := do
  match ← ExceptT.lift action with
  | .ok a => return a
  | .error fault => throw (report fault.message)

/-- Goes on with a result, or fails with its report. -/
def ofResult {ε : Type} (result : Except ε α) (report : ε → Report) : Work m α :=
  ExceptT.mk (pure (result.mapError report))

end Work

end ComponentViews
