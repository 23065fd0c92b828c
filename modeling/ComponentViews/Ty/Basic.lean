import ComponentViews.Known
import ComponentViews.Text.Blank
import ComponentViews.Text.Dotted
import ComponentViews.Ty.Primitive

/-!
# Types

A type is named by a primitive keyword, by `void` or by the dotted name of a
class, and has a number of array dimensions. Its text is the name followed by a
pair of brackets for each dimension.

`Ty.parse?` reads such a text, with blanks allowed around the name and between the
brackets. `Ty.ofText` never fails: a text that names no type is taken for the name
of a class as it stands.
-/

namespace ComponentViews

/-- A type. -/
structure Ty where
  /-- The primitive keyword or dotted class name of the innermost element. -/
  name : String
  /-- The array dimensions around it. -/
  dims : Nat
deriving DecidableEq, Repr

/-- The kinds of local variable and operand that the machine tells apart. -/
inductive SlotKind where
  | int
  | long
  | float
  | double
  | reference
deriving DecidableEq, Repr

namespace Ty

/-- The type that a name stands for. -/
def named (name : String) : Ty := ⟨name, 0⟩

/-- What stands where there is no value. -/
def void : Ty := named "void"

/-- The type of all objects. -/
def object : Ty := named Known.object

/-- The type of texts. -/
def string : Ty := named Known.string

/-- A primitive type, which is named by its keyword. -/
def ofPrimitive (p : Primitive) : Ty := named p.name

/-- The type of truth values. -/
def boolean : Ty := ofPrimitive .boolean

/-- The type of integers. -/
def int : Ty := ofPrimitive .int

/-! ### Text -/

/-- The text of a type. -/
def text (ty : Ty) : String :=
  String.ofList (ty.name.toList ++ (List.replicate ty.dims ['[', ']']).flatten)

instance : ToString Ty := ⟨text⟩

/-- The pairs of brackets at the end of a reversed text, and what is left before
    them. -/
def takeBrackets : List Char → Nat × List Char
  | ']' :: '[' :: rest =>
    let (n, base) := takeBrackets rest
    (n + 1, base)
  | c :: rest => if Text.isBlank c then takeBrackets rest else (0, c :: rest)
  | [] => (0, [])

/-- The type that a text spells out. -/
def parse? (text : String) : Option Ty :=
  let (dims, rest) := takeBrackets text.toList.reverse
  let base := Text.dropBlank rest.reverse
  if base.isEmpty || base.any (fun c => Text.isBlank c || c == '[' || c == ']') then none
  else if base = "void".toList ∧ 0 < dims then none
  else some ⟨String.ofList base, dims⟩

/-- How a text that spells out no type is reported. -/
def malformedMessage (text : String) : String := s!"malformed type '{text}'"

/-- The type that a text spells out, or the class of that name if it spells none. -/
def ofText (text : String) : Ty := (parse? text).getD (named text)

/-! ### Shape -/

/-- The primitive type that this is. -/
def primitive? (ty : Ty) : Option Primitive :=
  if ty.dims = 0 then Primitive.ofName? ty.name else none

/-- Whether there is no value. -/
def isVoid (ty : Ty) : Bool := ty.dims == 0 && ty.name == "void"

/-- Whether values of the type are arrays. -/
def isArray (ty : Ty) : Bool := 0 < ty.dims

/-- Whether values of the type are references: arrays and instances of classes. -/
def isReference (ty : Ty) : Bool := !ty.isVoid && ty.primitive?.isNone

/-- Whether values of the type are truth values. -/
def isBoolean (ty : Ty) : Bool := ty.primitive? == some .boolean

/-- Whether the type is the class or primitive type `name`. -/
def isNamed (ty : Ty) (name : String) : Bool := ty.dims == 0 && ty.name == name

/-- The type of the items of an array. -/
def component? (ty : Ty) : Option Ty :=
  match ty.dims with
  | 0 => none
  | dims + 1 => some ⟨ty.name, dims⟩

/-- The type with all its array dimensions removed. -/
def element (ty : Ty) : Ty := named ty.name

/-- The type with a further array dimension. -/
def arrayOf (ty : Ty) : Ty := ⟨ty.name, ty.dims + 1⟩

/-- The name without the package, for an array that of its elements. -/
def simpleName (ty : Ty) : String := Dotted.simpleName ty.name

/-- The package of the named class, if it is in one. -/
def package? (ty : Ty) : Option String := Dotted.package? ty.name

/-- The local variables, or places on the operand stack, that a value takes. -/
def slots (ty : Ty) : Nat :=
  if ty.isVoid then 0
  else
    match ty.primitive? with
    | some p => p.slots
    | none => 1

/-- The kind of variable that holds a value of the type; `void` has no values. -/
def slotKind? (ty : Ty) : Option SlotKind :=
  if ty.isVoid then none
  else
    match ty.primitive? with
    | some .long => some .long
    | some .float => some .float
    | some .double => some .double
    | some _ => some .int
    | none => some .reference

end Ty

/-- The slots of all the types together. -/
def slotsOf : List Ty → Nat
  | [] => 0
  | ty :: rest => ty.slots + slotsOf rest

end ComponentViews
