import ComponentViews.Code.Lowering

/-!
# Class files of blueprints

`Blueprint.classFile` turns a blueprint into a class file of a given version. Constants
enter the pool in the order in which the parts of the class need them: the class, its
superclass and interfaces, the fields, and then each method with its code.
-/

namespace ComponentViews

/-- Why a method has no place in a class file. -/
inductive MethodFault where
  /-- Another method has the same name and descriptor. -/
  | repeated
  | lowering (fault : LoweringFault)
deriving DecidableEq, Repr

/-- The text that is reported for a fault in a method. -/
def MethodFault.message : MethodFault → String
  | repeated => "duplicate method"
  | lowering fault => fault.message

/-- Why a blueprint has no class file. -/
inductive EmissionFault where
  | poolOverflow
  | repeatedInterface (name : String)
  | repeatedField (name : String)
  /-- A method, by its name and descriptor, is at fault. -/
  | method (label : String) (fault : MethodFault)
deriving DecidableEq, Repr

namespace EmissionFault

/-- The name and descriptor of the method at fault. -/
def method? : EmissionFault → Option String
  | method label _ => some label
  | _ => none

/-- The text that is reported for a fault. -/
def message : EmissionFault → String
  | poolOverflow => LoweringFault.poolOverflow.message
  | repeatedInterface name => s!"interface {name} listed twice"
  | repeatedField name => s!"duplicate field {name}"
  | method _ fault => fault.message

/-- The whole message, about a class of the given name. -/
def text (fault : EmissionFault) (unit : String) : String :=
  let place := match fault.method? with
    | some label => s!"{unit}.{label}"
    | none => unit
  s!"cannot emit {place}: {fault.message}"

end EmissionFault

/-- A step of building a class file, on its constant pool. -/
abbrev Emit (α : Type) := StateT Pool (Except EmissionFault) α

namespace Emit

/-- Adds a constant; `overflow` is the fault of a full pool. -/
def constant (overflow : EmissionFault) (add : Pool.Add) : Emit UInt16 := fun pool =>
  match add.run.run pool with
  | (.ok i, pool) => .ok (i, pool)
  | (.error _, _) => .error overflow

/-- The interfaces after those in `seen`. -/
def interfaces (seen : List UInt16) : List String → Emit (List UInt16)
  | [] => return []
  | name :: rest => do
    let i ← constant .poolOverflow (Pool.addClass name)
    if i ∈ seen then throw (.repeatedInterface name)
    return i :: (← interfaces (i :: seen) rest)

/-- The fields after those in `seen`. -/
def fields (seen : List String) : List Field → Emit (List Member)
  | [] => return []
  | f :: rest => do
    if f.name ∈ seen then throw (.repeatedField f.name)
    let name ← constant .poolOverflow (Pool.addUtf8 f.name)
    let descriptor ← constant .poolOverflow (Pool.addUtf8 f.type.descriptor)
    return { access := f.access, name, descriptor } :: (← fields (f.name :: seen) rest)

end Emit

namespace Method

/-- The name and descriptor, which tell the methods of a class apart. -/
def label (m : Method) : String := m.name ++ m.descriptor

/-- A constant for the method. -/
def constant (m : Method) (add : Pool.Add) : Emit UInt16 :=
  Emit.constant (.method m.label (.lowering .poolOverflow)) add

/-- The attribute that holds the code of the method, if it has a body. -/
def codeAttributes (m : Method) (unit : String) (major : UInt16) : Emit (List Attribute) := do
  match m.body with
  | none => return []
  | some body =>
    let context : CodeContext := ⟨unit, m, body, 49 ≤ major⟩
    let code ← fun pool =>
      (context.lower pool).mapError fun fault => .method m.label (.lowering fault)
    return [⟨← m.constant (Pool.addUtf8 ClassFile.codeName), code.encode⟩]

/-- The classes that the method declares to throw, as constants. -/
def thrownClasses (m : Method) : List Ty → Emit (List UInt16)
  | [] => return []
  | ty :: rest => do
    let i ← m.constant (Pool.addClass ty.name)
    return i :: (← thrownClasses m rest)

/-- The attribute that lists what the method declares to throw, if anything. -/
def failureAttributes (m : Method) : Emit (List Attribute) := do
  if m.throws.isEmpty then return []
  let classes ← m.thrownClasses m.throws
  let name ← m.constant (Pool.addUtf8 ClassFile.exceptionsName)
  return [⟨name, ClassFile.encodeList Word.bytes16 classes⟩]

end Method

namespace Emit

/-- The methods after those in `seen`. -/
def methods (unit : String) (major : UInt16) (seen : List String) :
    List Method → Emit (List Member)
  | [] => return []
  | m :: rest => do
    if m.label ∈ seen then throw (.method m.label .repeated)
    let name ← m.constant (Pool.addUtf8 m.name)
    let descriptor ← m.constant (Pool.addUtf8 m.descriptor)
    let code ← m.codeAttributes unit major
    let failures ← m.failureAttributes
    let member : Member :=
      { access := m.access, name, descriptor, attributes := code ++ failures }
    return member :: (← methods unit major (m.label :: seen) rest)

end Emit

namespace Blueprint

/-- The steps that build the class file; its pool is the one that they leave. -/
def emit (b : Blueprint) (major : UInt16) : Emit ClassFile := do
  let thisClass ← Emit.constant .poolOverflow (Pool.addClass b.name)
  let superClass ← Emit.constant .poolOverflow (Pool.addClass b.ancestor)
  let interfaces ← Emit.interfaces [] b.interfaces
  let fields ← Emit.fields [] b.fields
  let methods ← Emit.methods b.name major [] b.methods
  return { major, pool := ← get, access := b.access, thisClass, superClass, interfaces, fields,
           methods }

/-- The class file of a blueprint, with the given major version. -/
def classFile (b : Blueprint) (major : UInt16) : Except EmissionFault ClassFile :=
  return (← (b.emit major).run {}).1

end Blueprint

end ComponentViews
