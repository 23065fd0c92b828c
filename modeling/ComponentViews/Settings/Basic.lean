import ComponentViews.ClassFile.Basic
import ComponentViews.Failures

/-!
# Settings

What can be set for all requests: the version of the class files, how declared failures
are sorted, and whether what is generated is verified.
-/

namespace ComponentViews

/-- The settings of the generator. -/
structure Settings where
  /-- The major version of the class files. -/
  major : UInt16 := ClassFile.maxMajor
  /-- Keep a legacy wire name beside a corrected one, where a request does not say. -/
  nameCompat : Bool := false
  failures : FailurePolicy := {}
  /-- Verify the class files. -/
  verifyOutput : Bool := true
  /-- Where the command line puts class files, unless told otherwise. -/
  dumpDir : Option String := none
deriving DecidableEq, Repr

/-- The settings ask for class files of a version that is not generated. -/
structure UnsupportedMajor where
  major : UInt16
deriving DecidableEq, Repr

/-- The text that is reported for a version that is not supported. -/
def UnsupportedMajor.message (u : UnsupportedMajor) : String :=
  let (lowest, highest) := (ClassFile.minMajor, ClassFile.maxMajor)
  s!"Invalid configuration: class_file_major {u.major} outside supported range " ++
    s!"{lowest}..={highest}"

/-- Checks the version of the class files. -/
def Settings.check (s : Settings) : Except UnsupportedMajor Unit :=
  if ClassFile.minMajor ≤ s.major ∧ s.major ≤ ClassFile.maxMajor then .ok ()
  else .error ⟨s.major⟩

end ComponentViews
