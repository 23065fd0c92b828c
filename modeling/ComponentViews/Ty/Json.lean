import ComponentViews.Json.Basic
import ComponentViews.Ty.Basic

/-!
# Types as JSON

A type is written as its text. It is read strictly or, where whatever stands there has to
do, loosely: then a text that spells no type is taken for the name of a class.
-/

namespace ComponentViews

namespace Ty

/-- A type by its text. -/
def toJson (ty : Ty) : Json := .string ty.text

/-- A list of types by their texts. -/
def listJson (types : List Ty) : Json := .ofList (types.map toJson)

/-- Reads a type from its text, which has to be well-formed. -/
def readJson : Json.Reader Ty := Json.readSpelled parse?

/-- Reads a type from any text: one that is not well-formed is a name. -/
def readLooseJson : Json.Reader Ty := fun j => ofText <$> Json.readString j

end Ty

end ComponentViews
