import ComponentViews.Blueprint.Syntax

/-!
# Values

What expressions of a blueprint evaluate to, and the store of objects that the
bundled environments share. An object is a number and the class it is known as; what
it holds is in the store, one slot for each name of a field.
-/

namespace ComponentViews

/-- An object, as it is referred to. -/
structure ObjectRef where
  id : Nat
  /-- The class the object is known as. One that was made up for a declared type
      carries that type. -/
  className : String
deriving DecidableEq, Repr

namespace ObjectRef

/-- How a failure is reported. -/
def thrownText (o : ObjectRef) : String := s!"{o.className} thrown (object {o.id})"

end ObjectRef

/-- A value. Floating-point numbers are their bits. -/
inductive Value where
  /-- What a call without a result gives. -/
  | void
  | null
  | bool (b : Bool)
  | int (n : Int32)
  | long (n : Int64)
  | float (bits : UInt32)
  | double (bits : UInt64)
  | string (s : String)
  | object (o : ObjectRef)
  | array (items : List Value)
  | classOf (ty : Ty)
deriving Repr

namespace Value

instance : Inhabited Value := ⟨null⟩

/-- The value of a constant. -/
def ofLiteral : Literal → Value
  | .null => null
  | .bool b => bool b
  | .int n => int n
  | .long n => long n
  | .float bits => float bits
  | .double bits => double bits
  | .string s => string s

/-- What a variable or field of a type starts with. -/
def zero (ty : Ty) : Value := if ty.isVoid then void else ofLiteral (.zero ty)

/-- Whether the value is null. -/
def isNull : Value → Bool
  | null => true
  | _ => false

/-- Whether the value is no reference. -/
def isPrimitive : Value → Bool
  | bool _ | int _ | long _ | float _ | double _ => true
  | _ => false

/-- Whether a condition on the value holds. -/
def isTrue : Value → Bool
  | bool b => b
  | int n => n != 0
  | _ => false

/-- The object that the value refers to, if it does. -/
def object? : Value → Option ObjectRef
  | object o => some o
  | _ => none

/-- The class of a reference. -/
def className? : Value → Option String
  | object o => some o.className
  | string _ => some Known.string
  | array _ | classOf _ => some Known.object
  | _ => none

/-! ### Equality -/

/-- Equality of single-precision numbers by their bits: a NaN equals nothing, and the
    two zeros are equal. -/
def floatEq (a b : UInt32) : Bool :=
  let isNaN (x : UInt32) := 0x7F800000 < (x &&& 0x7FFFFFFF)
  !isNaN a && !isNaN b && (a == b || (a ||| b) &&& 0x7FFFFFFF == 0)

/-- Equality of double-precision numbers by their bits. -/
def doubleEq (a b : UInt64) : Bool :=
  let isNaN (x : UInt64) := 0x7FF0000000000000 < (x &&& 0x7FFFFFFFFFFFFFFF)
  !isNaN a && !isNaN b && (a == b || (a ||| b) &&& 0x7FFFFFFFFFFFFFFF == 0)

mutual

/-- Equality of values, item by item for arrays. -/
def equal : Value → Value → Bool
  | void, void | null, null => true
  | bool a, bool b => a == b
  | int a, int b => a == b
  | long a, long b => a == b
  | float a, float b => floatEq a b
  | double a, double b => doubleEq a b
  | string a, string b => a == b
  | object a, object b => a == b
  | array a, array b => equalAll a b
  | classOf a, classOf b => a == b
  | _, _ => false

/-- Lists of values are equal item by item. -/
def equalAll : List Value → List Value → Bool
  | [], [] => true
  | a :: as, b :: bs => equal a b && equalAll as bs
  | _, _ => false

end

/-- Whether two references are the same, or two primitive values equal. -/
def same : Value → Value → Bool
  | object a, object b => a.id == b.id
  | a, b => equal a b

end Value

/-! ### The store -/

/-- One slot of an object. -/
structure Slot where
  owner : Nat
  name : String
  value : Value

/-- The objects made so far. -/
structure Heap where
  /-- The number of the latest object. -/
  lastId : Nat := 0
  /-- The slots that were written or read, each once. -/
  slots : List Slot := []

namespace Heap

/-- A new object of a class. -/
def allocate (h : Heap) (className : String) : ObjectRef × Heap :=
  (⟨h.lastId + 1, className⟩, { h with lastId := h.lastId + 1 })

/-- A slot as it was last written or first read. -/
def slot? (h : Heap) (target : ObjectRef) (name : String) : Option Value :=
  (h.slots.find? fun s => s.owner == target.id && s.name == name).map (·.value)

/-- Sets a slot of an object, whether or not it has been set before. -/
def setSlot (h : Heap) (target : ObjectRef) (name : String) (value : Value) : Heap :=
  let others := h.slots.filter fun s => !(s.owner == target.id && s.name == name)
  { h with slots := ⟨target.id, name, value⟩ :: others }

/-- A value that stands in for an unknown one of a type: an empty array, a new object,
    or the type's zero. -/
def fabricate (h : Heap) (ty : Ty) : Value × Heap :=
  if ty.isArray then (.array [], h)
  else if ty.isReference then
    let (o, h) := h.allocate ty.name
    (.object o, h)
  else (.zero ty, h)

/-- A slot, which its first reading fills with a made-up value of the type. -/
def readSlot (h : Heap) (target : ObjectRef) (name : String) (ty : Ty) : Value × Heap :=
  match h.slot? target name with
  | some value => (value, h)
  | none =>
    let (value, h) := h.fabricate ty
    (value, h.setSlot target name value)

mutual

/-- A copy of a value: an object becomes a new one of the same class with the same
    slots, and an array is copied item by item. -/
def copy (h : Heap) : Value → Value × Heap
  | .object o =>
    let (new, h) := h.allocate o.className
    let slots := (h.slots.filter (·.owner == o.id)).map fun s => { s with owner := new.id }
    (.object new, { h with slots := slots ++ h.slots })
  | .array items =>
    let (items, h) := copyAll h items
    (.array items, h)
  | value => (value, h)

/-- Copies values one after another. -/
def copyAll (h : Heap) : List Value → List Value × Heap
  | [] => ([], h)
  | value :: rest =>
    let (value, h) := copy h value
    let (rest, h) := copyAll h rest
    (value :: rest, h)

end

end Heap

end ComponentViews
