import ComponentViews.Blueprint.Syntax
import ComponentViews.Json.Numbers
import ComponentViews.Ty.Json

/-!
# Blueprints as JSON

The written form of blueprints. Classes and methods are objects; expressions, conditions
and statements are arrays that begin with a word for their sort. Types are read loosely, and
fields that are missing have defaults.
-/

namespace ComponentViews

/-! ### Constants and names -/

namespace Literal

/-- A constant with the word for its sort; long integers and the bits of floating-point numbers are
    texts. -/
def toJson : Literal → Json
  | null => .tagged "null" []
  | bool b => .tagged "bool" [.bool b]
  | int n => .tagged "int" [.ofInt32 n]
  | long n => .tagged "long" [.ofInt64 n]
  | float bits => .tagged "float" [.ofBits32 bits]
  | double bits => .tagged "double" [.ofBits64 bits]
  | string s => .tagged "str" [.string s]

/-- Reads a constant with the given word, if the word is one for constants. -/
def readItems? (word : String) (item : Json) : Option (Except Json.Fault Literal) :=
  match word with
  | "null" => some (.ok null)
  | "bool" => some (bool <$> Json.readBool item)
  | "int" => some (int <$> Json.readInt32 item)
  | "long" => some (long <$> Json.readInt64 item)
  | "float" => some ((float <| UInt32.ofNat ·) <$> Json.readBits item)
  | "double" => some ((double <| UInt64.ofNat ·) <$> Json.readBits item)
  | "str" => some (string <$> Json.readString item)
  | _ => none

/-- Reads a constant, if the value is one. -/
def readJson? : Json → Option (Except Json.Fault Literal)
  | .array [.string word] _ => readItems? word .null
  | .array [.string word, item] _ => readItems? word item
  | _ => none

end Literal

namespace CallKind

/-- The word for a kind of calls. -/
def word : CallKind → String
  | virtual => "virtual"
  | interface => "interface"
  | special => "special"
  | static => "static"

/-- The kind of calls that a word stands for. -/
def ofWord? (text : String) : Option CallKind :=
  [virtual, interface, special, static].find? (·.word == text)

end CallKind

namespace FieldRef

/-- The three items that stand for a field wherever one is named. -/
def items (f : FieldRef) : List Json := [.string f.owner, .string f.name, f.type.toJson]

/-- Reads a field from its three items. -/
def readItems (owner name type : Json) : Except Json.Fault FieldRef :=
  return ⟨← Json.readString owner, ← Json.readString name, ← Ty.readLooseJson type⟩

end FieldRef

/-! ### Expressions -/

namespace Expr

mutual

/-- An expression as an array of the word for its sort and what it consists of. -/
def toJson : Expr → Json
  | .const l => l.toJson
  | .var i => .tagged "local" [.ofNat i]
  | .this => .tagged "this" []
  | .arg i => .tagged "arg" [.ofNat i]
  | .field f target => .tagged "field" (f.items ++ [toJson target])
  | .new className params args =>
    .tagged "new" [.string className, Ty.listJson params, .ofList (listJson args)]
  | .array element items => .tagged "array" [element.toJson, .ofList (listJson items)]
  | .item items i => .tagged "index" [toJson items, .ofInt32 i]
  | .classOf ty => .tagged "class" [ty.toJson]
  | .box e => .tagged "box" [toJson e]
  | .unbox p e => .tagged "unbox" [.string p.name, toJson e]
  | .cast ty e => .tagged "cast" [ty.toJson, toJson e]
  | .call callee receiver args =>
    .tagged "call"
      [.string callee.kind.word, .string callee.owner, .string callee.name,
        Ty.listJson callee.params, callee.result.toJson, optionJson receiver,
        .ofList (listJson args)]

/-- The values of several expressions. -/
def listJson : List Expr → List Json
  | [] => []
  | e :: rest => toJson e :: listJson rest

/-- The value of an expression; null if there is none. -/
def optionJson : Option Expr → Json
  | none => .null
  | some e => toJson e

end

mutual

/-- Reads an expression that begins with the given word. -/
def readItems (word : String) : List Json → Except Json.Fault Expr
  | [] => if word = "this" then .ok .this else .error .data
  | [a] =>
    match word with
    | "local" => .var <$> Json.readNat a
    | "arg" => .arg <$> Json.readNat a
    | "class" => .classOf <$> Ty.readLooseJson a
    | "box" => .box <$> readJson a
    | _ => .error .data
  | [a, b] =>
    match word with
    | "array" => return .array (← Ty.readLooseJson a) (← readList b)
    | "index" => return .item (← readJson a) (← Json.readInt32 b)
    | "unbox" => return .unbox (← Json.readSpelled Primitive.ofName? a) (← readJson b)
    | "cast" => return .cast (← Ty.readLooseJson a) (← readJson b)
    | _ => .error .data
  | [a, b, c] =>
    match word with
    | "new" =>
      return .new (← Json.readString a) (← Json.readListOr Ty.readLooseJson b) (← readList c)
    | _ => .error .data
  | [a, b, c, d] =>
    match word with
    | "field" => return .field (← FieldRef.readItems a b c) (← readJson d)
    | _ => .error .data
  | [kind, owner, name, params, result, receiver, args] =>
    match word with
    | "call" => do
      let callee : Callee :=
        { kind := ← Json.readSpelled CallKind.ofWord? kind
          owner := ← Json.readString owner
          name := ← Json.readString name
          params := ← Json.readListOr Ty.readLooseJson params
          result := ← Ty.readLooseJson result }
      let receiver? ← match receiver with
        | .null => pure none
        | _ => some <$> readJson receiver
      return .call callee receiver? (← readList args)
    | _ => .error .data
  | _ => .error .data

/-- Reads an expression. A constant stands for itself, so its words are tried first. -/
def readJson : Json.Reader Expr
  | .array [] _ => .error .data
  | .array (.string word :: items) broken =>
    match Literal.readJson? (.array (.string word :: items) broken) with
    | some l => .const <$> l
    | none => readItems word items
  | j => .error j.mismatch

/-- Reads a list of expressions, which is empty if it is missing. -/
def readList : Json.Reader (List Expr)
  | .null => .ok []
  | .array items _ => readAll items
  | j => .error j.mismatch

/-- Reads expressions up to the first that is none. -/
def readAll : List Json → Except Json.Fault (List Expr)
  | [] => .ok []
  | j :: rest => return (← readJson j) :: (← readAll rest)

end

end Expr

namespace Cond

/-- A condition as an array, like an expression. -/
def toJson : Cond → Json
  | isTrue e => .tagged "true" [e.toJson]
  | isFalse e => .tagged "false" [e.toJson]
  | isNull e => .tagged "isnull" [e.toJson]
  | notNull e => .tagged "notnull" [e.toJson]
  | instanceOf e className => .tagged "instanceof" [e.toJson, .string className]
  | same a b => .tagged "same" [a.toJson, b.toJson]

/-- Reads a condition. -/
def readJson : Json.Reader Cond
  | .array [.string word, a] _ =>
    match word with
    | "true" => isTrue <$> Expr.readJson a
    | "false" => isFalse <$> Expr.readJson a
    | "isnull" => isNull <$> Expr.readJson a
    | "notnull" => notNull <$> Expr.readJson a
    | _ => .error .data
  | .array [.string word, a, b] _ =>
    match word with
    | "instanceof" => return instanceOf (← Expr.readJson a) (← Json.readString b)
    | "same" => return same (← Expr.readJson a) (← Expr.readJson b)
    | _ => .error .data
  | j => .error j.mismatch

end Cond

/-! ### Statements -/

namespace Stmt

mutual

/-- A statement as an array, like an expression. -/
def toJson : Stmt → Json
  | .assign i e => .tagged "assign" [.ofNat i, e.toJson]
  | .setField f target value =>
    .tagged "setfield" (f.items ++ [target.toJson, value.toJson])
  | .eval e => .tagged "eval" [e.toJson]
  | .cond c yes no => .tagged "if" [c.toJson, .ofList (blockJson yes), .ofList (blockJson no)]
  | .switch key cases otherwise =>
    .tagged "switch"
      [key.toJson, .ofList (casesJson cases), .ofList (blockJson otherwise)]
  | .throw e => .tagged "throw" [e.toJson]
  | .ret e => .tagged "return" [.ofOption Expr.toJson e]
  | .region body handlers exit =>
    .tagged "try" [.ofList (blockJson body), .ofList (handlersJson handlers), exitJson exit]

/-- The values of the statements of a block. -/
def blockJson : Block → List Json
  | [] => []
  | s :: rest => toJson s :: blockJson rest

/-- The values of the cases of a switch, each of a key and a block. -/
def casesJson : List (Int32 × Block) → List Json
  | [] => []
  | (key, block) :: rest =>
    .ofList [.ofInt32 key, .ofList (blockJson block)] :: casesJson rest

/-- The values of handlers: the class that is caught, null for every class; the variable of the
    failure; and the block. -/
def handlersJson : List Handler → List Json
  | [] => []
  | ⟨caught, binding, block⟩ :: rest =>
    .ofList [.ofOption .string caught, .ofNat binding, .ofList (blockJson block)] ::
      handlersJson rest

/-- The value of an exit block: the variable of the failure in flight, and the block; null if there
    is none. -/
def exitJson : Option ExitBlock → Json
  | none => .null
  | some ⟨inFlight, block⟩ => .ofList [.ofOption .ofNat inFlight, .ofList (blockJson block)]

end

mutual

/-- Reads a statement that begins with the given word. -/
def readItems (word : String) : List Json → Except Json.Fault Stmt
  | [a] =>
    match word with
    | "eval" => .eval <$> Expr.readJson a
    | "throw" => .throw <$> Expr.readJson a
    | "return" => .ret <$> Json.readOption Expr.readJson a
    | _ => .error .data
  | [a, b] =>
    match word with
    | "assign" => return .assign (← Json.readNat a) (← Expr.readJson b)
    | _ => .error .data
  | [a, b, c] =>
    match word with
    | "if" => return .cond (← Cond.readJson a) (← readBlock b) (← readBlock c)
    | "switch" => return .switch (← Expr.readJson a) (← readCases b) (← readBlock c)
    | "try" => return .region (← readBlock a) (← readHandlers b) (← readExit c)
    | _ => .error .data
  | [owner, name, type, target, value] =>
    match word with
    | "setfield" => do
      let f ← FieldRef.readItems owner name type
      return .setField f (← Expr.readJson target) (← Expr.readJson value)
    | _ => .error .data
  | _ => .error .data

/-- Reads a statement. -/
def readJson : Json.Reader Stmt
  | .array (.string word :: items) _ => readItems word items
  | j => .error j.mismatch

/-- Reads statements up to the first that is none. -/
def readAll : List Json → Except Json.Fault Block
  | [] => .ok []
  | j :: rest => return (← readJson j) :: (← readAll rest)

/-- Reads a block, which is empty if it is missing. -/
def readBlock : Json.Reader Block
  | .null => .ok []
  | .array items _ => readAll items
  | j => .error j.mismatch

/-- Reads a case of a switch. -/
def readCase : Json.Reader (Int32 × Block)
  | .array [key, block] _ => return (← Json.readInt32 key, ← readBlock block)
  | j => .error j.mismatch

/-- Reads cases up to the first that is none. -/
def readAllCases : List Json → Except Json.Fault (List (Int32 × Block))
  | [] => .ok []
  | j :: rest => return (← readCase j) :: (← readAllCases rest)

/-- Reads the cases of a switch; unlike a block, they cannot be missing. -/
def readCases : Json.Reader (List (Int32 × Block))
  | .array items _ => readAllCases items
  | j => .error j.mismatch

/-- Reads a handler. -/
def readHandler : Json.Reader Handler
  | .array [caught, binding, block] _ =>
    return ⟨← Json.readOption Json.readString caught, ← Json.readNat binding, ← readBlock block⟩
  | j => .error j.mismatch

/-- Reads handlers up to the first that is none. -/
def readAllHandlers : List Json → Except Json.Fault (List Handler)
  | [] => .ok []
  | j :: rest => return (← readHandler j) :: (← readAllHandlers rest)

/-- Reads the handlers of a region, which cannot be missing. -/
def readHandlers : Json.Reader (List Handler)
  | .array items _ => readAllHandlers items
  | j => .error j.mismatch

/-- Reads the exit block of a region, if it has one. -/
def readExit : Json.Reader (Option ExitBlock)
  | .null => .ok none
  | .array [inFlight, block] _ =>
    return some ⟨← Json.readOption Json.readNat inFlight, ← readBlock block⟩
  | j => .error j.mismatch

end

end Stmt

/-! ### Classes and their members -/

namespace Variable

/-- A variable as an array of its name and its type. -/
def toJson (v : Variable) : Json := .ofList [.string v.name, v.type.toJson]

/-- Reads a variable. -/
def readJson : Json.Reader Variable
  | .array [name, type] _ => return ⟨← Json.readString name, ← Ty.readLooseJson type⟩
  | j => .error j.mismatch

end Variable

namespace Method

/-- All that there is to a method; a method without body has null for its variables and its block.
    -/
def toJson (m : Method) : Json :=
  .ofEntries
    [("name", .string m.name), ("params", Ty.listJson m.params), ("ret", m.result.toJson),
      ("throws", Ty.listJson m.throws), ("access", .ofWord16 m.access),
      ("id", .ofOption .ofNat m.dispatchId),
      ("locals", .ofOption (fun body => .ofList (body.vars.map Variable.toJson)) m.body),
      ("body", .ofOption (fun body => .ofList (Stmt.blockJson body.block)) m.body)]

/-- Reads a method; its dispatch id is not read. -/
def readJson : Json.Reader Method := fun j => do
  let vars ← Json.readListOr Variable.readJson (j.getEntry "locals")
  let block ← Json.readOption Stmt.readBlock (j.getEntry "body")
  return { name := ← Json.readString (j.getEntry "name")
           params := ← Json.readListOr Ty.readLooseJson (j.getEntry "params")
           result := ← Json.readOr .void Ty.readLooseJson (j.getEntry "ret")
           throws := ← Json.readListOr Ty.readLooseJson (j.getEntry "throws")
           access := ← Json.readOr Modifiers.publicBit Json.readWord16 (j.getEntry "access")
           body := block.map fun block => ⟨vars, block⟩ }

end Method

namespace Field

/-- A field as an array of its name, its type and its flags. -/
def toJson (f : Field) : Json := .ofList [.string f.name, f.type.toJson, .ofWord16 f.access]

/-- Reads a field. -/
def readJson : Json.Reader Field
  | .array [name, type, access] _ =>
    return ⟨← Json.readString name, ← Ty.readLooseJson type, ← Json.readWord16 access⟩
  | j => .error j.mismatch

end Field

namespace Blueprint

/-- All that there is to a class. -/
def toJson (b : Blueprint) : Json :=
  .ofEntries
    [("name", .string b.name), ("ancestor", .string b.ancestor),
      ("interfaces", .ofStrings b.interfaces), ("access", .ofWord16 b.access),
      ("fields", .ofList (b.fields.map Field.toJson)),
      ("methods", .ofList (b.methods.map Method.toJson))]

/-- The defaults of fields. -/
def blank : Blueprint where
  name := "acme.Probe"
  ancestor := Known.object

/-- Reads a class; all its fields have defaults. -/
def readJson : Json.Reader Blueprint := fun j =>
  return { name := ← Json.readOr blank.name Json.readString (j.getEntry "name")
           ancestor := ← Json.readOr blank.ancestor Json.readString (j.getEntry "ancestor")
           interfaces := ← Json.readListOr Json.readString (j.getEntry "interfaces")
           access := ← Json.readOr blank.access Json.readWord16 (j.getEntry "access")
           fields := ← Json.readListOr Field.readJson (j.getEntry "fields")
           methods := ← Json.readListOr Method.readJson (j.getEntry "methods") }

end Blueprint

end ComponentViews
