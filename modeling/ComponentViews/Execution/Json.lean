import ComponentViews.Blueprint.Json
import ComponentViews.Execution.Value

/-!
# Values as JSON

The written form of values is that of constants, with words of its own for objects, arrays
and classes. When values are read, two more words are known: a value may refer to an object
by its place among those known already, or be the zero of a type.
-/

namespace ComponentViews

namespace ObjectRef

/-- The two items that stand for a reference. -/
def items (o : ObjectRef) : List Json := [.ofNat o.id, .string o.className]

end ObjectRef

namespace Value

mutual

/-- A value with the word for its sort; values that are constants look like these. -/
def toJson : Value → Json
  | .void => .tagged "void" []
  | .null => Literal.null.toJson
  | .bool b => (Literal.bool b).toJson
  | .int n => (Literal.int n).toJson
  | .long n => (Literal.long n).toJson
  | .float bits => (Literal.float bits).toJson
  | .double bits => (Literal.double bits).toJson
  | .string s => (Literal.string s).toJson
  | .object o => .tagged "obj" o.items
  | .array items => .tagged "array" [.ofList (listJson items)]
  | .classOf ty => .tagged "class" [ty.toJson]

/-- The values of several values. -/
def listJson : List Value → List Json
  | [] => []
  | v :: rest => toJson v :: listJson rest

end

variable (known : List ObjectRef)

mutual

/-- Reads a value, where `known` are the objects that it can refer to by place. -/
def readJson : Json.Reader Value
  | .array [.string "void"] _ => .ok .void
  | .array [.string "obj", id, className] _ =>
    return .object ⟨← Json.readNat id, ← Json.readString className⟩
  | .array [.string "array", .array items _] _ => .array <$> readAll items
  | .array [.string "class", ty] _ => .classOf <$> Ty.readLooseJson ty
  | .array [.string "zero", ty] _ => .zero <$> Ty.readLooseJson ty
  | .array [.string "ref", place] _ => do
    match known[← Json.readNat place]? with
    | some o => return .object o
    | none => throw .data
  | j =>
    match Literal.readJson? j with
    | some l => .ofLiteral <$> l
    | none => .error .data

/-- Reads values up to the first that is none. -/
def readAll : List Json → Except Json.Fault (List Value)
  | [] => .ok []
  | j :: rest => return (← readJson j) :: (← readAll rest)

end

end Value

end ComponentViews
