import ComponentViews.Operation
import ComponentViews.Text.Affix
import ComponentViews.Text.Utf16

/-!
# Names in the interface language

The remote protocol knows operations and types by names in its own interface
language, whose identifiers hold letters, digits and underscores. Other characters
are spelled by their UTF-16 units, and an underscore may not come first.
-/

namespace ComponentViews.Idl

/-! ### Identifiers -/

/-- A hexadecimal digit in upper case. -/
def hexDigit (n : Nat) : Char := Char.ofNat (if n < 10 then 0x30 + n else 0x37 + n)

/-- A UTF-16 unit as `U` and four hexadecimal digits. -/
def escapeUnit (u : Nat) : List Char :=
  ['U', hexDigit (u / 0x1000 % 16), hexDigit (u / 0x100 % 16), hexDigit (u / 0x10 % 16),
    hexDigit (u % 16)]

/-- The characters that stand for themselves. -/
def isIdentifierChar (c : Char) : Bool := c.isAlphanum || c == '_'

/-- A character of an identifier, or the hexadecimal digits of its units. -/
def escapeChar (c : Char) : List Char :=
  if isIdentifierChar c then [c] else (Utf16.units c).flatMap escapeUnit

/-- The characters of a name as those of an identifier, which does not begin with an underscore. -/
def escapeChars (cs : List Char) : List Char :=
  (if cs.head? = some '_' then ['J'] else []) ++ cs.flatMap escapeChar

/-- The identifier for a name. -/
def escapeIdentifier (name : String) : String := String.ofList (escapeChars name.toList)

/-! ### Types -/

/-- The names of the primitive types on the wire. -/
def primitiveName : Primitive → String
  | .boolean => "boolean"
  | .char => "wchar"
  | .byte => "octet"
  | .short => "short"
  | .int => "long"
  | .long => "long_long"
  | .float => "float"
  | .double => "double"

/-- The module and the simple name of a class. -/
def classParts (name : String) : Option String × String :=
  if name = Known.string then (some "CORBA", "WStringValue")
  else if name = Known.classClass then (some "javax_rmi_CORBA", "ClassDesc")
  else if name = Known.corbaObject then (none, "Object")
  else
    let parts := (Dotted.segments name).map escapeIdentifier
    match parts.dropLast with
    | [] => (none, parts.getLastD "")
    | outer => (some ("_".intercalate outer), parts.getLastD "")

/-- The module and the simple name of a type without array dimensions. -/
def elementParts (name : String) : Option String × String :=
  match Primitive.ofName? name with
  | some p => (none, primitiveName p)
  | none => classParts name

/-- The name of a type, as it is appended to the name of an overloaded operation. -/
def typeName (ty : Ty) : String :=
  let (outer, simple) := elementParts ty.name
  let qualified (simple : String) :=
    match outer with
    | some outer => outer ++ "_" ++ simple
    | none => simple
  if ty.isArray then "org_omg_boxedRMI_" ++ qualified s!"seq{ty.dims}_{simple}"
  else qualified simple

/-! ### Repository ids -/

/-- The id of an application failure on the wire. The ending `Exception` is cut down
    to `Ex`. -/
def repositoryId (failure : Ty) : String :=
  let simple :=
    match Text.dropEnd? "Exception" failure.simpleName with
    | some stem => stem ++ "Ex"
    | none => failure.simpleName
  let path :=
    match failure.package? with
    | some outer => Dotted.slashed outer ++ "/" ++ simple
    | none => simple
  "IDL:" ++ path ++ ":1.0"

/-- The id of an interface that a stub stands for. -/
def interfaceId (interface : String) : String :=
  "RMI:" ++ interface ++ ":0000000000000000"

end ComponentViews.Idl
