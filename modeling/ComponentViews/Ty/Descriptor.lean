import ComponentViews.Ty.Basic

/-!
# Descriptors

A class file spells a type by a descriptor: a bracket for each array dimension,
then a letter for a primitive type or for `void`, or `L`, the slashed name of the
class, and a semicolon. A method's descriptor lists the parameters in parentheses
before the result.
-/

namespace ComponentViews

namespace Ty

/-- The descriptor of the innermost element. -/
def elementDescriptor (name : String) : List Char :=
  match Primitive.ofName? name with
  | some p => [p.letter]
  | none =>
    if name = "void" then ['V'] else 'L' :: (Dotted.slashed name).toList ++ [';']

/-- The descriptor of a type. -/
def descriptor (ty : Ty) : String :=
  String.ofList (List.replicate ty.dims '[' ++ elementDescriptor ty.name)

/-- The name of the type in a class entry of the constant pool: the slashed name
    of a class, the descriptor of an array. -/
def classEntry (ty : Ty) : String :=
  if ty.isArray then ty.descriptor else Dotted.slashed ty.name

/-- The name under which a class is looked up when the program runs: dotted, and
    for an array its descriptor with dots. -/
def reflectiveName (ty : Ty) : String :=
  if ty.isArray then Text.replaceChar '/' '.' ty.descriptor else ty.name

end Ty

/-- The part of a method's descriptor that lists the parameters. -/
def paramsDescriptor (params : List Ty) : String :=
  "(" ++ String.join (params.map Ty.descriptor) ++ ")"

/-- The descriptor of a method. -/
def methodDescriptor (params : List Ty) (result : Ty) : String :=
  paramsDescriptor params ++ result.descriptor

end ComponentViews
