import ComponentViews.ClassFile.Reader
import ComponentViews.Json.Numbers

/-!
# Class files as JSON

What a class file holds, laid open: every entry of the constant pool, and the class, its
fields and its methods with the indices as they stand and the names that they lead to.
-/

namespace ComponentViews

/-- A constant with the word for its sort, and the indices that it has. -/
def Constant.toJson : Constant → Json
  | utf8 s => .tagged "utf8" [.string s]
  | integer n => .tagged "int" [.ofInt32 n.toInt32]
  | float bits => .tagged "float" [.ofBits32 bits]
  | long n => .tagged "long" [.ofInt64 n.toInt64]
  | double bits => .tagged "double" [.ofBits64 bits]
  | classRef name => .tagged "class" [.ofWord16 name]
  | string text => .tagged "string" [.ofWord16 text]
  | fieldRef owner nat => .tagged "field" [.ofWord16 owner, .ofWord16 nat]
  | methodRef owner nat => .tagged "method" [.ofWord16 owner, .ofWord16 nat]
  | interfaceMethodRef owner nat => .tagged "imethod" [.ofWord16 owner, .ofWord16 nat]
  | nameAndType name descriptor => .tagged "nat" [.ofWord16 name, .ofWord16 descriptor]
  | unusable => .tagged "unusable" []

/-- An attribute as an array of its name and its bytes. -/
def Attribute.toJson (a : Attribute) : Json := .ofList [.ofWord16 a.name, .ofBytes a.info]

/-- An entry as an array of its four words. -/
def ExceptionEntry.toJson (e : ExceptionEntry) : Json :=
  .ofWords [e.start, e.stop, e.handler, e.catchType]

/-- All that there is to a code attribute. -/
def CodeAttribute.toJson (c : CodeAttribute) : Json :=
  .ofEntries
    [("max_stack", .ofWord16 c.maxStack), ("max_locals", .ofWord16 c.maxLocals),
      ("code", .ofBytes c.code), ("table", .ofList (c.table.map ExceptionEntry.toJson)),
      ("attributes", .ofList (c.attributes.map Attribute.toJson))]

namespace Member

/-- A field, whose name and descriptor stay indices. -/
def fieldJson (m : Member) : Json :=
  .ofList [.ofWord16 m.access, .ofWord16 m.name, .ofWord16 m.descriptor,
    .ofList (m.attributes.map Attribute.toJson)]

/-- A method, whose name and descriptor are looked up in the pool. -/
def methodJson (m : Member) (p : Pool) : Json :=
  .ofEntries
    [("access", .ofWord16 m.access), ("name", .ofOption .string (p.utf8? m.name)),
      ("descriptor", .ofOption .string (p.utf8? m.descriptor)),
      ("code", .ofOption CodeAttribute.toJson (m.code? p)),
      ("throws", .ofWords (m.declaredFailures p)), ("attributes", .ofNat m.attributes.length)]

end Member

/-- A class file laid open. -/
def ClassFile.toJson (c : ClassFile) : Json :=
  .ofEntries
    [("version", .ofWords [c.major, c.minor]), ("access", .ofWord16 c.access),
      ("this", .ofWord16 c.thisClass), ("super", .ofWord16 c.superClass),
      ("name", .ofOption .string c.name?), ("super_name", .ofOption .string c.superName?),
      ("interfaces", .ofWords c.interfaces), ("interface_names", .ofStrings c.interfaceNames),
      ("constants", .ofList (c.pool.toList.map Constant.toJson)),
      ("fields", .ofList (c.fields.map Member.fieldJson)),
      ("methods", .ofList (c.methods.map (·.methodJson c.pool))),
      ("attributes", .ofList (c.attributes.map Attribute.toJson))]

end ComponentViews
