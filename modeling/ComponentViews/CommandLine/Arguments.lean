/-!
# Arguments of the command line

A command line names a command, the path that it works on, and switches. Some switches are
common to all commands and may stand before the name of the command too; there, those after
the name count for more.

A switch is given by its long name after two dashes or by a letter after one. Letters can be
joined, and a value follows as the next argument, behind an equals sign, or right behind the
letter. Behind two dashes alone there are no more switches.
-/

namespace ComponentViews

/-- Which failure the bean method ends with when a wrapper is traced. -/
inductive TracedFailure where
  /-- The first failure that is the application's. -/
  | application
  | system
  | protocol
  | none
deriving DecidableEq, Repr

namespace TracedFailure

/-- The word for a failure that is traced. -/
def word : TracedFailure → String
  | application => "application"
  | system => "system"
  | protocol => "protocol"
  | none => "none"

/-- The failure that a word stands for. -/
def ofWord? (text : String) : Option TracedFailure :=
  [application, system, protocol, none].find? (·.word == text)

end TracedFailure

/-- What to do. -/
inductive Command where
  /-- Writes the class files for a request, or for each request below a directory. -/
  | generate (input : String) (output : Option String) (compat : Bool)
  /-- Prints the wire names of the operations of a request. -/
  | names (input : String) (owner : Option String)
  /-- Prints how the failures of each operation are sorted. -/
  | classify (input : String)
  /-- Runs a method of the wrapper and prints the calls that it makes. -/
  | trace (input method : String) (failure : TracedFailure)
deriving DecidableEq, Repr

/-- A command and the file with the settings. -/
structure Invocation where
  settings : Option String
  command : Command
deriving DecidableEq, Repr

/-- Why no command is carried out. -/
inductive Refusal where
  /-- The arguments make no sense. -/
  | usage
  /-- Help is asked for. -/
  | help
  /-- The version is asked for. -/
  | version
deriving DecidableEq, Repr

/-! ### Switches -/

/-- A switch. -/
inductive Switch where
  | help
  | version
  | verbose
  | config
  | output
  | compat
  | owner
  | method
  | fail
deriving DecidableEq, Repr

namespace Switch

/-- The name of a switch behind two dashes. -/
def long : Switch → String
  | help => "help"
  | version => "version"
  | verbose => "verbose"
  | config => "config"
  | output => "output"
  | compat => "compat"
  | owner => "owner"
  | method => "method"
  | fail => "fail"

/-- The letter of a switch behind one dash, if it has one. -/
def letter? : Switch → Option Char
  | help => some 'h'
  | version => some 'V'
  | verbose => some 'v'
  | output => some 'o'
  | _ => none

/-- Whether a switch comes with a value. -/
def takesValue : Switch → Bool
  | config | output | owner | method | fail => true
  | _ => false

/-- Whether the value will do. A path is not empty. -/
def accepts (s : Switch) (value : String) : Bool :=
  match s with
  | config | output => !value.isEmpty
  | fail => (TracedFailure.ofWord? value).isSome
  | _ => true

/-- The switches that every command has. -/
def common : List Switch := [help, verbose, config]

/-- The switches that may stand before the name of the command. -/
def leading : List Switch := version :: common

end Switch

/-- The switches given so far with their values, the latest first. -/
abbrev Given := List (Switch × String)

namespace Given

/-- Adds a switch. Only the level of detail may be given again. -/
def add (given : Given) (s : Switch) (value : String) : Except Refusal Given :=
  match s with
  | .help => .error .help
  | .version => .error .version
  | .verbose => .ok given
  | s =>
    if (given.lookup s).isSome || !s.accepts value then .error .usage
    else .ok ((s, value) :: given)

end Given

/-! ### Reading arguments -/

/-- An argument, by its form. -/
inductive Argument where
  | word (text : String)
  | long (name : String) (value : Option String)
  | letters (cs : List Char)
  /-- Two dashes alone. -/
  | escape

namespace Argument

/-- What a word of the command line is, by the dashes that it begins with; one dash alone is a word.
    -/
def ofText (text : String) : Argument :=
  match text.toList with
  | ['-', '-'] => escape
  | '-' :: '-' :: cs =>
    match cs.span (· != '=') with
    | (name, '=' :: value) => long (String.ofList name) (some (String.ofList value))
    | (name, _) => long (String.ofList name) none
  | ['-'] => word text
  | '-' :: cs => letters cs
  | _ => word text

end Argument

/-- What comes behind switches. -/
inductive Remainder where
  | done
  | word (text : String) (args : List String)
  /-- Two dashes came, and then arguments that are no switches whatever their form. -/
  | escaped (args : List String)

/-- Reads joined letters; the last may want a value that is still to come. -/
def readLetters (known : List Switch) (given : Given) :
    List Char → Except Refusal (Given × Option Switch)
  | [] => .ok (given, none)
  | c :: rest =>
    match known.find? (·.letter? == some c) with
    | none => .error .usage
    | some s =>
      if s.takesValue then
        match rest with
        | [] => .ok (given, some s)
        | '=' :: value => do return (← given.add s (String.ofList value), none)
        | value => do return (← given.add s (String.ofList value), none)
      else do
        let given ← given.add s ""
        readLetters known given rest

/-- Reads switches up to the first word; `pending` is the switch whose value comes next. -/
def readSwitches (known : List Switch) :
    (pending : Option Switch) → Given → List String → Except Refusal (Given × Remainder)
  | none, given, [] => .ok (given, .done)
  | some _, _, [] => .error .usage
  | some s, given, arg :: args =>
    match Argument.ofText arg with
    | .word value => do readSwitches known none (← given.add s value) args
    | _ => .error .usage
  | none, given, arg :: args =>
    match Argument.ofText arg with
    | .word text => .ok (given, .word text args)
    | .escape => .ok (given, .escaped args)
    | .letters cs => do
      let (given, pending) ← readLetters known given cs
      readSwitches known pending given args
    | .long name value =>
      match known.find? (·.long == name), value with
      | none, _ => .error .usage
      | some s, some value =>
        if s.takesValue then do readSwitches known none (← given.add s value) args
        else .error .usage
      | some s, none =>
        if s.takesValue then readSwitches known (some s) given args
        else do readSwitches known none (← given.add s "") args

/-- Reads the arguments of a command: its switches and the path. -/
def readOperands (known : List Switch) (args : List String) :
    Except Refusal (Given × String) := do
  let (given, rest) ← readSwitches known none [] args
  match rest with
  | .escaped [path] => return (given, ← nonempty path)
  | .word path rest =>
    let (given, rest) ← readSwitches known none given rest
    match rest with
    | .done | .escaped [] => return (given, ← nonempty path)
    | _ => throw .usage
  | _ => throw .usage
where
  /-- A path is not empty. -/
  nonempty (path : String) : Except Refusal String :=
    if path.isEmpty then .error .usage else .ok path

/-! ### Commands -/

namespace Command

/-- The words for commands. -/
def words : List String := ["generate", "names", "classify", "trace"]

/-- The switches of a command of its own. -/
def switches : (word : String) → List Switch
  | "generate" => [.output, .compat]
  | "names" => [.owner]
  | "trace" => [.method, .fail]
  | _ => []

/-- The command of a word, with its path and switches. -/
def ofOperands (word path : String) (given : Given) : Except Refusal Command :=
  match word with
  | "generate" => .ok (generate path (given.lookup .output) (given.lookup .compat).isSome)
  | "names" => .ok (names path (given.lookup .owner))
  | "classify" => .ok (classify path)
  | "trace" =>
    match given.lookup .method with
    | none => .error .usage
    | some method =>
      let failure := (given.lookup .fail).bind TracedFailure.ofWord?
      .ok (trace path method (failure.getD .none))
  | _ => .error .usage

end Command

namespace Invocation

/-- What asking for help by a word comes to: help on all commands or on one. -/
def helpOn : List String → Refusal
  | [] => .help
  | [word] => if word ∈ "help" :: Command.words then .help else .usage
  | _ => .usage

/-- Reads a command line. -/
def ofArguments (args : List String) : Except Refusal Invocation := do
  let (leading, rest) ← readSwitches Switch.leading none [] args
  match rest with
  | .word "help" words => throw (helpOn words)
  | .word word args =>
    if word ∉ Command.words then throw .usage
    let (given, path) ← readOperands (Switch.common ++ Command.switches word) args
    return { settings := (given.lookup .config).or (leading.lookup .config)
             command := ← Command.ofOperands word path given }
  | _ => throw .usage

end Invocation

end ComponentViews
