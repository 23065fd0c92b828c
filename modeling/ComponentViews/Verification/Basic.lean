import ComponentViews.Verification.Code
import ComponentViews.Verification.Pool

/-!
# Verification of class files

A class file is verified as a whole: its version, its constant pool, the entries that
name the class, its superclass and interfaces, its fields and its methods. The first
flaw in this order counts.
-/

namespace ComponentViews

/-- What is wrong with a field. -/
inductive FieldFlaw where
  | noName (i : UInt16)
  | noDescriptor (name : String) (i : UInt16)
  | malformedDescriptor (name descriptor : String)
deriving DecidableEq, Repr

/-- The text that is reported for a flaw in a field. -/
def FieldFlaw.message : FieldFlaw → String
  | noName i => s!"name index {i}"
  | noDescriptor name i => s!"{name}: descriptor index {i}"
  | malformedDescriptor name descriptor => s!"{name}: malformed descriptor {descriptor}"

/-- Why bytes are no valid class file. -/
inductive ClassFlaw where
  | unreadable (fault : ClassFile.ReadFault)
  | unsupportedVersion (major : UInt16)
  | pool (flaw : PoolFlaw)
  | thisClass (i : UInt16)
  | superClass (i : UInt16)
  | interface (i : UInt16)
  | field (flaw : FieldFlaw)
  /-- A method, by its name and descriptor, has a flaw. -/
  | method (label : String) (flaw : CodeFlaw)
deriving DecidableEq, Repr

/-- The text that is reported for bytes that cannot be read. -/
def ClassFile.ReadFault.message : ClassFile.ReadFault → String
  | truncated offset => s!"Class file truncated at offset {offset}"
  | badMagic found => s!"Bad magic {hexText 8 found.toNat}"
  | malformedUtf8 offset => s!"Malformed modified UTF-8 at offset {offset}"
  | unknownTag tag offset => s!"Unknown constant tag {tag} at offset {offset}"
  | trailingBytes count => s!"{count} trailing bytes after the class file"
  | poolOverrun => "Internal verifier error: wide constant overruns the pool"

/-- The text that is reported for a flaw in a class file. -/
def ClassFlaw.message : ClassFlaw → String
  | unreadable fault => fault.message
  | unsupportedVersion major =>
    let newest := ClassFile.maxMajor
    s!"Unsupported class file version {major} (frames are not emitted past {newest})"
  | pool flaw => s!"Constant pool: {flaw.message}"
  | thisClass i => s!"Invalid this_class index {i}"
  | superClass i => s!"Invalid super_class index {i}"
  | interface i => s!"Invalid interface index {i}"
  | field flaw => s!"Invalid field: {flaw.message}"
  | method label flaw => s!"Method {label}: {flaw.message}"

namespace ClassFile

variable (c : ClassFile)

/-- Checks that an index names a class. -/
def verifyClass (i : UInt16) (flaw : ClassFlaw) : Except ClassFlaw Unit :=
  if (c.pool.get? i).any Constant.isClass then .ok () else .error flaw

/-- Verifies that a field has a name and a descriptor for one type. -/
def verifyField (f : Member) : Except FieldFlaw Unit :=
  match c.pool.utf8? f.name with
  | none => .error (.noName f.name)
  | some name =>
    match c.pool.utf8? f.descriptor with
    | none => .error (.noDescriptor name f.descriptor)
    | some descriptor =>
      if Descriptor.isField descriptor.toList then .ok ()
      else .error (.malformedDescriptor name descriptor)

/-- The name and descriptor of a method, as far as it has them. -/
def methodLabel (m : Member) : String :=
  (c.pool.utf8? m.name).getD "?" ++ (c.pool.utf8? m.descriptor).getD ""

/-- Verifies the version, the pool, the names of the class and those above it, the fields and then
    the methods. The first flaw is reported. -/
def verify : Except ClassFlaw Unit := do
  unless minMajor ≤ c.major && c.major ≤ maxMajor do throw (.unsupportedVersion c.major)
  c.pool.verify.mapError .pool
  c.verifyClass c.thisClass (.thisClass c.thisClass)
  c.verifyClass c.superClass (.superClass c.superClass)
  c.interfaces.forM fun i => c.verifyClass i (.interface i)
  c.fields.forM fun f => (c.verifyField f).mapError .field
  c.methods.forM fun m => (m.verify c.pool).mapError (.method (c.methodLabel m))

/-- Reads a class file, and verifies it. -/
def ofVerifiedBytes (bytes : List UInt8) : Except ClassFlaw ClassFile := do
  let c ← (ofBytes bytes).mapError .unreadable
  c.verify
  return c

end ClassFile

end ComponentViews
