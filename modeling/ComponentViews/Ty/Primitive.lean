/-!
# Primitive types

The eight primitive types, each with its keyword, its letter in a descriptor, and
the class that holds a value of it as an object.
-/

namespace ComponentViews

/-- A primitive type. -/
inductive Primitive where
  | boolean
  | char
  | byte
  | short
  | int
  | long
  | float
  | double
deriving DecidableEq, Repr

namespace Primitive

/-- The primitive types, in a fixed order. -/
def all : List Primitive := [boolean, char, byte, short, int, long, float, double]

theorem mem_all (p : Primitive) : p ∈ all := by cases p <;> decide

/-- The keyword of a primitive type. -/
def name : Primitive → String
  | boolean => "boolean"
  | char => "char"
  | byte => "byte"
  | short => "short"
  | int => "int"
  | long => "long"
  | float => "float"
  | double => "double"

/-- The primitive type of a keyword. -/
def ofName? (text : String) : Option Primitive := all.find? (·.name == text)

@[simp] theorem ofName?_name (p : Primitive) : ofName? p.name = some p := by
  cases p <;> decide

theorem name_of_ofName?_eq_some {text : String} {p : Primitive} (h : ofName? text = some p) :
    p.name = text := by
  simpa using List.find?_some h

/-- The letter of a primitive type in a descriptor. -/
def letter : Primitive → Char
  | boolean => 'Z'
  | char => 'C'
  | byte => 'B'
  | short => 'S'
  | int => 'I'
  | long => 'J'
  | float => 'F'
  | double => 'D'

theorem letter_injective {p q : Primitive} (h : p.letter = q.letter) : p = q := by
  cases p <;> cases q <;> first | rfl | (exact absurd h (by decide))

/-- The class whose instances hold a value of the type as an object. -/
def boxClass : Primitive → String
  | boolean => "java.lang.Boolean"
  | char => "java.lang.Character"
  | byte => "java.lang.Byte"
  | short => "java.lang.Short"
  | int => "java.lang.Integer"
  | long => "java.lang.Long"
  | float => "java.lang.Float"
  | double => "java.lang.Double"

/-- The method of the box class that gives the value back. -/
def unboxMethod (p : Primitive) : String := p.name ++ "Value"

/-- The local variables, or places on the operand stack, that a value takes. -/
def slots : Primitive → Nat
  | long | double => 2
  | _ => 1

end Primitive

end ComponentViews
