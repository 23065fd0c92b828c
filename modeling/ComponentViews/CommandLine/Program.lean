import ComponentViews.CommandLine.Arguments
import ComponentViews.CommandLine.Host
import ComponentViews.CommandLine.Path
import ComponentViews.Execution.Recorder
import ComponentViews.Execution.Interpreter
import ComponentViews.Failures.Json
import ComponentViews.Generation
import ComponentViews.Json.Printer
import ComponentViews.Request.Json
import ComponentViews.Settings.Toml

/-!
# The program

`Program.run` carries out a command line on a host: it reads the settings, then what the
command works on, and prints or writes what comes of it. The first failure ends it; what
was printed and written before stays.
-/

namespace ComponentViews

/-! ### Showing values -/

namespace Value

/-- The digits of a floating-point number. Traced methods start from zero values and do not
    calculate, so that only zero is ever shown as a number; any other shows its bits. -/
def floatText (isZero : Bool) (bits : List UInt8) : String :=
  if isZero then "0.0" else "0x" ++ Text.Hex.encode bits

mutual

/-- A value as traces show it. -/
def traceText : Value → String
  | .void => "Void"
  | .null => "Null"
  | .bool b => s!"Bool({b})"
  | .int n => s!"Int({n})"
  | .long n => s!"Long({n})"
  | .float bits => "Float(" ++ floatText (bits == 0) (Word.bytes32 bits) ++ ")"
  | .double bits => "Double(" ++ floatText (bits == 0) (Word.bytes64 bits) ++ ")"
  | .string s => "Str(" ++ Text.Quoted.encode s ++ ")"
  | .object o =>
    s!"Object(ObjectRef \x7b id: {o.id}, class: " ++ Text.Quoted.encode o.className ++ " \x7d)"
  | .array items => "Array([" ++ ", ".intercalate (traceTexts items) ++ "])"
  | .classOf ty => s!"Class({ty})"

/-- The texts of values, one after another. -/
def traceTexts : List Value → List String
  | [] => []
  | v :: rest => traceText v :: traceTexts rest

end

end Value

/-! ### Failures of requests -/

/-- The report of a text that is no request. -/
def Json.Fault.report (fault : Json.Fault) : Report :=
  let cause := match fault with
    | .grammar => "the text is no JSON"
    | .ended => "the text ends too early"
    | .data => "the text describes no request"
  { message := "JSON error: " ++ cause, causes := [cause] }

/-- What is reported of a fault in generating the classes of a request. -/
def GenerationFault.report (r : Request) (fault : GenerationFault) : Report :=
  { message := fault.message r.component }

/-- The report of a naming conflict that is found outside generation. -/
def NamingConflict.report (c : NamingConflict) : Report :=
  { message := s!"naming conflict between '{c.first}' and '{c.second}': {c.reason}" }

namespace Program

variable {m : Type → Type} [Monad m] (host : Host m)

/-- Prints a line. -/
def print (line : String) : Work m Unit := ExceptT.lift (host.printLine line)

/-- Prints a line where warnings go. -/
def warn (line : String) : Work m Unit := ExceptT.lift (host.warnLine line)

/-- Reads the settings, which have defaults where no file is named. -/
def readSettings : Option String → Work m Settings
  | none => return {}
  | some path => do
    let loading (r : Report) : Report := r.within s!"loading {path}"
    let text ← Work.attempt (host.readText path) fun cause =>
      loading ⟨s!"IO error: {cause}", [cause]⟩
    Work.ofResult (Settings.ofToml text) fun fault => loading { message := fault.message }

/-- Reads the request in a file. -/
def readRequest (path : String) : Work m Request := do
  let text ← Work.attempt (host.readText path) fun cause => ⟨s!"reading {path}", [cause]⟩
  Work.ofResult (Request.ofText text) fun fault => fault.report.within s!"parsing {path}"

/-! ### Generating class files -/

/-- The requests that a path leads to: the file itself, or the files below a directory. -/
def requestFiles (path : String) : Work m (List String) := do
  if ← ExceptT.lift (host.isFile path) then return [path]
  let files ← ExceptT.lift (host.filesBelow path)
  return (files.filter Path.isRequest).mergeSort Path.precedes

/-- Writes a class file and prints its path. -/
def writeClass (directory : String) (c : GeneratedClass) : Work m Unit := do
  let path := Path.ofClass directory c.name
  Work.attempt (host.makeDirectory (Path.parent path)) fun cause => { message := cause }
  Work.attempt (host.writeBytes path c.bytes) fun cause => ⟨s!"writing {path}", [cause]⟩
  print host path

/-- Generates the classes of the request in a file; warnings come before the first class is written.
    -/
def generateFile (s : Settings) (directory path : String) : Work m Unit := do
  let r ← readRequest host path
  let generation ← Work.ofResult (r.generate s) fun fault =>
    (fault.report r).within s!"generating {path}"
  generation.synthesis.warnings.forM fun warning => warn host ("warning: " ++ warning)
  generation.classes.forM (writeClass host directory)

/-- Generates the classes of all requests below a path, into the directory that is asked for, else
    the one of the settings, else the current one. -/
def generate (s : Settings) (path : String) (output : Option String) : Work m Unit := do
  let files ← requestFiles host path
  if files.isEmpty then throw { message := s!"no requests found under {path}" }
  files.forM (generateFile host s ((output.or s.dumpDir).getD "."))

/-! ### Showing names and failures -/

/-- The line about the wire name of an operation. -/
def nameLine (op : Operation) (wire : WireName) : String :=
  let more := match wire.altName with
    | some name => s!" (alias {name})"
    | none => ""
  s!"  {op.signatureKey} -> {wire.name}" ++ more

/-- Prints the names on the wire of the operations of each interface. -/
def names (s : Settings) (path : String) (owner : Option String) : Work m Unit := do
  let r ← readRequest host path
  let h := r.hierarchy
  r.interfaces.forM fun i => do
    let owner := owner.getD (Dotted.simpleName i.name)
    let names ← Work.ofResult
      (WireName.assign h (some owner) (r.keepsLegacyNames s) i.ownedMethods)
      NamingConflict.report
    print host i.name
    (i.ownedMethods.zip names).forM fun (op, wire) => print host (nameLine op wire)

/-- How the failures of an operation are sorted. -/
def failuresOf (s : Settings) (r : Request) (owner : String) (throws : List Ty) : Failures :=
  r.hierarchy.classify s.failures throws (r.hierarchy.isRemoteStyle r.kind owner)

/-- Prints how the failures of each operation are classified. -/
def classify (s : Settings) (path : String) : Work m Unit := do
  let r ← readRequest host path
  (r.interfaces.flatMap (·.ownedMethods)).forM fun op =>
    print host (op.text ++ " " ++ (failuresOf s r op.owner op.throws).toJson.compact)

/-! ### Tracing -/

/-- The class of the failure that the bean method ends with. -/
def tracedFailure (s : Settings) (r : Request) (method : Method) :
    TracedFailure → Except Report (Option String)
  | .none => .ok none
  | .system => .ok (some Known.runtimeException)
  | .protocol => .ok (some Known.remoteException)
  | .application =>
    let ops := r.interfaces.flatMap (·.ownedMethods)
    let owner := ((ops.find? (·.name == method.name)).map (·.owner)).getD ""
    match (failuresOf s r owner method.throws).application with
    | first :: _ => .ok (some first.name)
    | [] => .error { message := s!"{method.name} declares no application failure" }

/-- The last line of a trace. -/
def outcomeLine : Except ObjectRef Value → String
  | .ok .void => "=> returned"
  | .ok v => "=> returned " ++ v.traceText
  | .error o => "=> threw " ++ o.className

/-- The lines of a trace: the calls that a method makes, and how it ends. -/
def traceLines (script : Script) (b : Blueprint) (method : Method) : List String :=
  let (this, heap) := ({} : Heap).allocate b.name
  let run := b.run (Recorder.environment script) this method (method.params.map .zero)
  let (outcome, recorder) := run.run.run { heap }
  recorder.calls.map (fun c => c.owner ++ "." ++ c.name) ++ [outcomeLine outcome]

/-- Runs a method of the wrapper of a request, and prints what it calls on the way. -/
def trace (s : Settings) (path name : String) (failure : TracedFailure) : Work m Unit := do
  let r ← readRequest host path
  let synthesis ← Work.ofResult (r.blueprints s) (GenerationFault.report r)
  match synthesis.blueprints.find? (·.name == r.wrapperName) with
  | none => throw { message := s!"no wrapper unit {r.wrapperName}" }
  | some b =>
    match (b.findNamed? name).filter (·.body.isSome) with
    | none => throw { message := s!"{r.wrapperName} has no method {name}" }
    | some method =>
      let failure ← Work.ofResult (tracedFailure s r method failure) id
      let script : Script :=
        { hierarchy := r.hierarchy, failures := failure.toList.map fun c => (name, c) }
      (traceLines script b method).forM (print host)

/-! ### Running a command line -/

/-- What a command does; generation takes the old spelling of names if either the settings or the
    command say so. -/
def perform (s : Settings) : Command → Work m Unit
  | .generate path output compat =>
    generate host (if compat then { s with nameCompat := true } else s) path output
  | .names path owner => names host s path owner
  | .classify path => classify host s path
  | .trace path method failure => trace host s path method failure

/-- How the program is called. -/
def usageLines : List String :=
  ["Generates wrappers, factories, stubs and skeletons for component views.", "",
    "  generate PATH [-o DIR] [--compat]", "  names FILE [--owner NAME]", "  classify FILE",
    "  trace FILE --method NAME [--fail application|system|protocol|none]", "",
    "Common switches: --config FILE, -v, -h"]

/-- The answer to being asked for the version. -/
def versionLine : String := "component-views 0.1.0"

/-- Runs a command line, and gives the exit code. -/
def run (args : List String) : m Nat := do
  match Invocation.ofArguments args with
  | .error .usage => do
    usageLines.forM host.warnLine
    return 2
  | .error .help => do
    usageLines.forM host.printLine
    return 0
  | .error .version => do
    host.printLine versionLine
    return 0
  | .ok invocation => do
    let work := do perform host (← readSettings host invocation.settings) invocation.command
    match ← work.run with
    | .ok () => return 0
    | .error report => do
      report.lines.forM host.warnLine
      return 1

end Program

end ComponentViews
