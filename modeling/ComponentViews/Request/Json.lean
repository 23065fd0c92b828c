import ComponentViews.Json.Parser
import ComponentViews.Request.Basic
import ComponentViews.Ty.Json

/-!
# Requests as JSON

The fields of the descriptions that a request consists of, each read from and written
to JSON. Reading a request fills in defaults for fields that are missing; writing
it states every field, so that what is written reads as the same request again.
-/

namespace ComponentViews

namespace Modifiers

/-- Reads a list of modifier words; one that is unknown is noticed at the end of the
    list. -/
def readJson : Json.Reader Modifiers := fun j => do
  let words ← Json.readList Json.readString j
  match ofWords words with
  | .ok m => .ok m
  | .error _ => .error .data

/-- The words for modifiers, in their fixed order. -/
def toJson (m : Modifiers) : Json := .ofList (m.words.map .string)

end Modifiers

namespace Operation

/-- The fields of an operation. Only its name has to be there. -/
def jsonFields : List (Json.Field Operation) :=
  [.mandatory "name" Json.readString fun a op => { op with name := a },
    .optional "params" (Json.readList Ty.readJson) fun a op => { op with params := a },
    .optional "returns" Ty.readJson fun a op => { op with result := a },
    .optional "throws" (Json.readList Ty.readJson) fun a op => { op with throws := a },
    .optional "owner" Json.readString fun a op => { op with owner := a },
    .optional "modifiers" Modifiers.readJson fun a op => { op with modifiers := a }]

/-- Reads an operation. -/
def readJson : Json.Reader Operation := Json.readRecord { name := "" } jsonFields

/-- An operation with all its fields. -/
def toJson (op : Operation) : Json :=
  .ofEntries
    [("name", .string op.name), ("params", Ty.listJson op.params),
      ("returns", op.result.toJson), ("throws", Ty.listJson op.throws),
      ("owner", .string op.owner), ("modifiers", op.modifiers.toJson)]

end Operation

namespace ClassDecl

/-- The fields of a declaration. Only its name has to be there. -/
def jsonFields : List (Json.Field ClassDecl) :=
  [.mandatory "name" Json.readString fun a c => { c with name := a },
    .optional "superclass" (Json.readOption Json.readString)
      fun a c => { c with superclass := a },
    .optional "interfaces" (Json.readList Json.readString)
      fun a c => { c with interfaces := a },
    .optional "is_interface" Json.readBool fun a c => { c with isInterface := a }]

/-- Reads a declaration. -/
def readJson : Json.Reader ClassDecl := Json.readRecord { name := "" } jsonFields

/-- A declaration with all its fields; a class without superclass has null for it. -/
def toJson (c : ClassDecl) : Json :=
  .ofEntries
    [("name", .string c.name), ("superclass", .ofOption .string c.superclass),
      ("interfaces", .ofList (c.interfaces.map .string)), ("is_interface", .bool c.isInterface)]

end ClassDecl

namespace Interface

/-- The fields of an interface. Only its name has to be there, and it is an interface unless it is
    said not to be one. -/
def jsonFields : List (Json.Field Interface) :=
  [.mandatory "name" Json.readString fun a i => { i with name := a },
    .optional "extends" (Json.readList Json.readString) fun a i => { i with parents := a },
    .optional "is_interface" Json.readBool fun a i => { i with isInterface := a },
    .optional "methods" (Json.readList Operation.readJson) fun a i => { i with methods := a }]

/-- Reads an interface. -/
def readJson : Json.Reader Interface := Json.readRecord { name := "" } jsonFields

/-- An interface with all its fields. -/
def toJson (i : Interface) : Json :=
  .ofEntries
    [("name", .string i.name), ("extends", .ofList (i.parents.map .string)),
      ("is_interface", .bool i.isInterface), ("methods", .ofList (i.methods.map (·.toJson)))]

end Interface

namespace Bean

/-- The fields of the bean class. Its name has to be there. -/
def jsonFields : List (Json.Field Bean) :=
  [.mandatory "class_name" Json.readString fun a b => { b with className := a },
    .optional "superclass" (Json.readOption Json.readString)
      fun a b => { b with superclass := a },
    .optional "methods" (Json.readList Operation.readJson) fun a b => { b with methods := a }]

/-- Reads the description of the bean class. -/
def readJson : Json.Reader Bean := Json.readRecord { className := "" } jsonFields

/-- The bean class with all its fields. -/
def toJson (b : Bean) : Json :=
  .ofEntries
    [("class_name", .string b.className), ("superclass", .ofOption .string b.superclass),
      ("methods", .ofList (b.methods.map (·.toJson)))]

end Bean

namespace DispatchPolicy

/-- The fields of a policy, which can all be missing. -/
def jsonFields : List (Json.Field DispatchPolicy) :=
  [.optional "interceptors" Json.readBool fun a p => { p with interceptors := a },
    .optional "asynchronous" Json.readBool fun a p => { p with asynchronous := a }]

/-- Reads a policy. -/
def readJson : Json.Reader DispatchPolicy := Json.readRecord {} jsonFields

/-- A policy with all its fields. -/
def toJson (p : DispatchPolicy) : Json :=
  .ofEntries [("interceptors", .bool p.interceptors), ("asynchronous", .bool p.asynchronous)]

end DispatchPolicy

namespace Table

/-- Reads a table; of two entries of one key the later counts. -/
def readJson {α : Type} (read : Json.Reader α) : Json.Reader (Table α) := fun j =>
  ofList <$> Json.readEntries read j

/-- A table as an object, with an entry for each key. -/
def toJson {α : Type} (write : α → Json) (t : Table α) : Json :=
  .ofEntries (t.entries.map fun (key, a) => (key, write a))

end Table

namespace FactoryBinding

/-- The fields of what a home is bound to, which can all be missing. -/
def jsonFields : List (Json.Field FactoryBinding) :=
  [.optional "init_methods" (Table.readJson Json.readString)
      fun a f => { f with initMethods := a },
    .optional "key_type" (Json.readOption Ty.readJson) fun a f => { f with keyType := a },
    .optional "companion" (Json.readOption Interface.readJson)
      fun a f => { f with companion := a },
    .optional "emit_implementation" Json.readBool
      fun a f => { f with emitImplementation := a }]

/-- Reads what a home is bound to. -/
def readJson : Json.Reader FactoryBinding := Json.readRecord {} jsonFields

/-- What a home is bound to, with all its fields. -/
def toJson (f : FactoryBinding) : Json :=
  .ofEntries
    [("init_methods", f.initMethods.toJson .string), ("key_type", .ofOption Ty.toJson f.keyType),
      ("companion", .ofOption Interface.toJson f.companion),
      ("emit_implementation", .bool f.emitImplementation)]

end FactoryBinding

namespace Request

/-- The fields of a request: the component, the kind of view and the bean class have to be there. -/
def jsonFields : List (Json.Field Request) :=
  [.mandatory "component" Json.readString fun a r => { r with component := a },
    .mandatory "kind" (Json.readWord ViewKind.ofWord?) fun a r => { r with kind := a },
    .optional "component_type" (Json.readWord ComponentType.ofWord?)
      fun a r => { r with componentType := a },
    .optional "interfaces" (Json.readList Interface.readJson)
      fun a r => { r with interfaces := a },
    .mandatory "target" Bean.readJson fun a r => { r with bean := a },
    .optional "types" (Json.readList ClassDecl.readJson) fun a r => { r with types := a },
    .optional "policies" (Table.readJson DispatchPolicy.readJson)
      fun a r => { r with policies := a },
    .optional "all_methods" (Json.readList Operation.readJson)
      fun a r => { r with allMethods := a },
    .optional "name_compat" (Json.readOption Json.readBool)
      fun a r => { r with nameCompat := a },
    .optional "factory" (Json.readOption FactoryBinding.readJson)
      fun a r => { r with factory := a }]

/-- Reads a request. -/
def readJson : Json.Reader Request :=
  Json.readRecord { component := "", kind := .componentLocal, bean := { className := "" } }
    jsonFields

/-- Reads the text of a request. -/
def ofText (text : String) : Except Json.Fault Request := Json.readText readJson text

/-- A request with all its fields. -/
def toJson (r : Request) : Json :=
  .ofEntries
    [("component", .string r.component), ("kind", .string r.kind.word),
      ("component_type", .string r.componentType.word),
      ("interfaces", .ofList (r.interfaces.map (·.toJson))), ("target", r.bean.toJson),
      ("types", .ofList (r.types.map (·.toJson))),
      ("policies", r.policies.toJson DispatchPolicy.toJson),
      ("all_methods", .ofList (r.allMethods.map (·.toJson))),
      ("name_compat", .ofOption .bool r.nameCompat),
      ("factory", .ofOption FactoryBinding.toJson r.factory)]

end Request

end ComponentViews
