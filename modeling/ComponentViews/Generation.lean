import ComponentViews.Blueprint.Check
import ComponentViews.Code.Emission
import ComponentViews.Synthesis.Basic
import ComponentViews.Verification.Basic

/-!
# Generation

From a request to class files: the settings and the rules are checked, the classes are
synthesized, the structure of their bodies is checked, and the class files are built and
verified. The first fault on this way counts, and then nothing is generated.
-/

namespace ComponentViews

/-- Why nothing is generated. -/
inductive GenerationFault where
  | settings (fault : UnsupportedMajor)
  | violation (v : Violation)
  | missingFromTable (key : String)
  | naming (conflict : NamingConflict)
  /-- A body of a class has a flaw. -/
  | structure (unit : String) (flaw : MethodFlaw)
  /-- A class cannot be written as a class file. -/
  | emission (unit : String) (fault : EmissionFault)
  /-- A class file does not pass verification. -/
  | verification (unit : String) (flaw : ClassFlaw)
deriving DecidableEq, Repr

namespace GenerationFault

/-- A fault in synthesizing is one in generating. -/
def ofSynthesis : SynthesisFault → GenerationFault
  | .missingFromTable key => missingFromTable key
  | .naming conflict => naming conflict

/-- The rule that the request breaks, if that is the fault. -/
def rule? : GenerationFault → Option String
  | violation v => some v.rule
  | missingFromTable _ => some "method-table"
  | _ => none

/-- What stands for a method where a class as a whole is at fault. -/
def wholeClass : String := "<class>"

/-- The message about a fault, for a request about the given component. -/
def message (fault : GenerationFault) (component : String) : String :=
  let broken (rule text : String) := s!"Configuration error in {component} ({rule}): {text}"
  let misbuilt (unit method text : String) :=
    s!"Structural encoding error in {unit}.{method}: {text}"
  match fault with
  | settings fault => fault.message
  | violation v => broken v.rule v.message
  | missingFromTable key => broken "method-table" (DispatchTable.missingMessage key)
  | naming c => s!"Naming conflict between '{c.first}' and '{c.second}': {c.reason}"
  | .structure unit flaw => misbuilt unit flaw.method flaw.flaw.message
  | emission unit fault => misbuilt unit (fault.method?.getD wholeClass) fault.message
  | verification unit flaw => misbuilt unit wholeClass flaw.message

end GenerationFault

namespace Request

/-- The classes for a request, checked. The warnings begin with those about failures that
    the request does not describe. -/
def blueprints (r : Request) (s : Settings) : Except GenerationFault Synthesis := do
  s.check.mapError .settings
  let h := r.hierarchy
  (checkRules h r).mapError .violation
  let synthesis ← (r.synthesize s h).mapError .ofSynthesis
  synthesis.blueprints.forM fun b => (b.check h).mapError (.structure b.name)
  return { synthesis with warnings := r.assumptionWarnings ++ synthesis.warnings }

end Request

/-- A class file with the dotted name of its class. -/
structure GeneratedClass where
  name : String
  bytes : List UInt8

/-- What is generated for a request. -/
structure Generation where
  synthesis : Synthesis
  classes : List GeneratedClass

/-- The class file of a blueprint. -/
def Blueprint.generate (b : Blueprint) (s : Settings) : Except GenerationFault GeneratedClass := do
  let file ← (b.classFile s.major).mapError (.emission b.name)
  return ⟨b.name, file.encode⟩

/-- Verifies a class file. -/
def GeneratedClass.verify (c : GeneratedClass) : Except GenerationFault Unit := do
  let _ ← (ClassFile.ofVerifiedBytes c.bytes).mapError (.verification c.name)

/-- The class files for a request. -/
def Request.generate (r : Request) (s : Settings) : Except GenerationFault Generation := do
  let synthesis ← r.blueprints s
  let classes ← synthesis.blueprints.mapM (·.generate s)
  if s.verifyOutput then classes.forM (·.verify)
  return ⟨synthesis, classes⟩

end ComponentViews
