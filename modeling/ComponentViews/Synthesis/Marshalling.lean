import ComponentViews.Hierarchy.Basic
import ComponentViews.Synthesis.Parts

/-!
# Marshalling

How values cross the wire depends on their declared type: primitive values have
operations of their own on streams, remote objects go by reference, and everything else
by value. Stub and skeleton use the same rules, so that one reads what the other writes.
-/

namespace ComponentViews

/-- How the values of a type cross the wire. -/
inductive MarshalRule where
  | primitive (p : Primitive)
  /-- With a note of what it is: the declared type says too little. -/
  | any
  /-- By reference. -/
  | reference
  /-- By value. -/
  | value
deriving DecidableEq, Repr

namespace MarshalRule

/-- The rule for a type. -/
def ofType (h : Hierarchy) (ty : Ty) : MarshalRule :=
  match ty.primitive? with
  | some p => primitive p
  | none =>
    if ty.isArray then value
    else if ty.isNamed Known.object || ty.isNamed Known.serializable ||
        ty.isNamed Known.externalizable then
      any
    else if h.isSubtype ty.name Known.remote then reference
    else value

end MarshalRule

/-- Whether a value passed within one program has to be copied, so that the receiver
    sees what it would have read from the wire. Strings never change. -/
def Hierarchy.needsCopy (h : Hierarchy) (ty : Ty) : Bool :=
  match MarshalRule.ofType h ty with
  | .any | .value => !ty.isNamed Known.string
  | .primitive _ | .reference => false

namespace Marshalling

/-- The name of a primitive type in the operations of streams. -/
def streamName : Primitive → String
  | .boolean => "boolean"
  | .char => "wchar"
  | .byte => "octet"
  | .short => "short"
  | .int => "long"
  | .long => "longlong"
  | .float => "float"
  | .double => "double"

/-- Writes a value of a type to a stream. -/
def write (h : Hierarchy) (ty : Ty) (out value : Expr) : Expr :=
  let writeObject (name : String) := Expr.invokeStatic Known.protocolUtil name
    [.named Known.portableOutputStream, .object] .void [out, value]
  match MarshalRule.ofType h ty with
  | .primitive p =>
    .invoke .virtual out Known.portableOutputStream ("write_" ++ streamName p) [ty] .void [value]
  | .any => writeObject "writeAny"
  | .reference => writeObject "writeRemoteObject"
  | .value =>
    .invoke .virtual out Known.outputStream "write_value"
      [.named Known.serializable, .named Known.classClass] .void
      [.cast (.named Known.serializable) value, .classOf ty]

/-- Reads a value of a type from a stream. -/
def read (h : Hierarchy) (ty : Ty) (input : Expr) : Expr :=
  match MarshalRule.ofType h ty with
  | .primitive p =>
    .invoke .virtual input Known.portableInputStream ("read_" ++ streamName p) [] ty []
  | .any =>
    Expr.fromObject ty (.invokeStatic Known.protocolUtil "readAny"
      [.named Known.portableInputStream] .object [input])
  | .reference =>
    let read := Expr.invoke .virtual input Known.portableInputStream "read_Object" []
      (.named Known.corbaObject) []
    .cast ty (.invokeStatic Known.portableRemoteObject "narrow"
      [.object, .named Known.classClass] .object [read, .classOf ty])
  | .value =>
    .cast ty (.invoke .virtual input Known.inputStream "read_value" [.named Known.classClass]
      (.named Known.serializable) [.classOf ty])

/-- A call of a method that stubs and skeletons inherit. -/
def ofSelf (name : String) (params : List Ty) (result : Ty) (args : List Expr) : Expr :=
  .invoke .virtual .this Known.objectImpl name params result args

/-- The broker that a stub or skeleton is connected to. -/
def broker : Expr := ofSelf "_orb" [] (.named Known.orb) []

/-- A copy of an object. -/
def copyObject (value : Expr) : Expr :=
  .invokeStatic Known.protocolUtil "copyObject" [.object, .named Known.orb] .object
    [value, broker]

/-- Copies of the objects in an array. Objects that are the same stay the same. -/
def copyObjects (values : Expr) : Expr :=
  let objects := Ty.object.arrayOf
  .invokeStatic Known.protocolUtil "copyObjects" [objects, .named Known.orb] objects
    [values, broker]

/-- The method that tells the ids of the interfaces that a stub or skeleton serves. -/
def idsMethod (ids : List String) : Method :=
  .ofBody "_ids" [] Ty.string.arrayOf
    (.ofBlock [.ret (some (.array .string (ids.map Expr.string)))])

end Marshalling

end ComponentViews
