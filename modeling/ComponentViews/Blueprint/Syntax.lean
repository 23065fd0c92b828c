import ComponentViews.Modifiers
import ComponentViews.Ty.Descriptor

/-!
# Blueprints

A blueprint describes a class to be generated: the class it extends, its interfaces,
its fields, and its methods with structured bodies.

What happens when a failure crosses a body is written as a *region*: a guarded block,
handlers in order, and an exit block. The exit block runs once on every way out,
whether the guarded block or a handler completes, returns or fails; it finds the
failure in flight, or null, in a variable of its choice, and where it returns or fails
itself, that replaces the way out it was entered on.
-/

namespace ComponentViews

/-- A constant. Floating-point numbers are their bits. -/
inductive Literal where
  | null
  | bool (b : Bool)
  | int (n : Int32)
  | long (n : Int64)
  | float (bits : UInt32)
  | double (bits : UInt64)
  | string (s : String)
deriving DecidableEq, Repr

namespace Literal

/-- What a variable of a type starts with: false, zero or null. -/
def zero (ty : Ty) : Literal :=
  match ty.primitive? with
  | some .boolean => bool false
  | some .long => long 0
  | some .float => float 0
  | some .double => double 0
  | some _ => int 0
  | none => null

end Literal

/-- How the method of a call is found. -/
inductive CallKind where
  | virtual
  | interface
  | special
  | static
deriving DecidableEq, Repr

/-- The method that a call names. -/
structure Callee where
  kind : CallKind
  owner : String
  name : String
  params : List Ty
  result : Ty
deriving DecidableEq, Repr

/-- A field, as an access names it. -/
structure FieldRef where
  owner : String
  name : String
  type : Ty
deriving DecidableEq, Repr

/-- An expression. -/
inductive Expr where
  | const (l : Literal)
  /-- A variable of the body. -/
  | var (i : Nat)
  | this
  | arg (i : Nat)
  | field (f : FieldRef) (target : Expr)
  /-- A new instance, through the constructor with these parameters. -/
  | new (className : String) (params : List Ty) (args : List Expr)
  /-- A new array of references. -/
  | array (element : Ty) (items : List Expr)
  /-- An item of an array of objects. -/
  | item (array : Expr) (i : Int32)
  | classOf (ty : Ty)
  /-- A primitive value as an object. -/
  | box (e : Expr)
  /-- The primitive value in an object. -/
  | unbox (p : Primitive) (e : Expr)
  | cast (ty : Ty) (e : Expr)
  /-- A call; of a static method there is no receiver. -/
  | call (callee : Callee) (receiver : Option Expr) (args : List Expr)

namespace Expr

instance : Inhabited Expr := ⟨this⟩

/-- The constant null. -/
def null : Expr := const .null

/-- An integer constant. -/
def int (n : Int32) : Expr := const (.int n)

/-- A truth value as a constant. -/
def bool (b : Bool) : Expr := const (.bool b)

/-- A text as a constant. -/
def string (s : String) : Expr := const (.string s)

/-- The value that variables and results of a type have by default. -/
def zero (ty : Ty) : Expr := const (.zero ty)

/-- A field that holds an instance of a class. -/
def fieldOf (owner name className : String) (target : Expr) : Expr :=
  field ⟨owner, name, .named className⟩ target

/-- A call on a receiver. -/
def invoke (kind : CallKind) (receiver : Expr) (owner name : String) (params : List Ty)
    (result : Ty) (args : List Expr) : Expr :=
  call ⟨kind, owner, name, params, result⟩ (some receiver) args

/-- A call of a static method. -/
def invokeStatic (owner name : String) (params : List Ty) (result : Ty) (args : List Expr) :
    Expr :=
  call ⟨.static, owner, name, params, result⟩ none args

end Expr

/-- A condition. -/
inductive Cond where
  | isTrue (e : Expr)
  | isFalse (e : Expr)
  | isNull (e : Expr)
  | notNull (e : Expr)
  | instanceOf (e : Expr) (className : String)
  /-- Two references are the same. -/
  | same (a b : Expr)

/-- A handler of a region, with a body of type `β`. -/
structure HandlerOf (β : Type) where
  /-- The class caught, or `none` for every failure. -/
  caught : Option String
  /-- The variable that the failure goes into. -/
  binding : Nat
  body : β

/-- The exit of a region, with a body of type `β`. -/
structure ExitOf (β : Type) where
  /-- The variable that the failure in flight, or null, goes into. -/
  inFlight : Option Nat
  body : β

/-- A statement. -/
inductive Stmt where
  | assign (i : Nat) (e : Expr)
  | setField (f : FieldRef) (target value : Expr)
  /-- Evaluates, and drops the value. -/
  | eval (e : Expr)
  | cond (c : Cond) (yes no : List Stmt)
  /-- Runs the case of the key; none falls through to the next. -/
  | switch (key : Expr) (cases : List (Int32 × List Stmt)) (otherwise : List Stmt)
  | throw (e : Expr)
  | ret (e : Option Expr)
  | region (body : List Stmt) (handlers : List (HandlerOf (List Stmt)))
      (exit : Option (ExitOf (List Stmt)))

/-- Statements that are executed one after another. -/
abbrev Block := List Stmt

/-- A handler of a region. -/
abbrev Handler := HandlerOf Block

/-- The exit block of a region. -/
abbrev ExitBlock := ExitOf Block

/-- A variable of a body. -/
structure Variable where
  name : String
  type : Ty
deriving DecidableEq, Repr

/-- The body of a method. -/
structure Body where
  vars : List Variable
  block : Block

/-- A method to be generated. -/
structure Method where
  name : String
  params : List Ty := []
  result : Ty := .void
  throws : List Ty := []
  access : UInt16 := Modifiers.publicBit
  body : Option Body := none
  /-- The dispatch id under which the container knows the operation. -/
  dispatchId : Option Nat := none

namespace Method

/-- Whether the method has no receiver, by its flags. -/
def isStatic (m : Method) : Bool := m.access &&& Modifiers.staticBit != 0

/-- The text that stands for the types of the parameters and the result in a class file. -/
def descriptor (m : Method) : String := methodDescriptor m.params m.result

/-- The types of the variables of the body. -/
def variableTypes (m : Method) : List Ty :=
  match m.body with
  | some body => body.vars.map (·.type)
  | none => []

/-- The type of an expression in the method, in a class of the given name. -/
def typeOf (m : Method) (unit : String) : Expr → Ty
  | .const .null => .object
  | .const (.bool _) => .boolean
  | .const (.int _) => .int
  | .const (.long _) => .ofPrimitive .long
  | .const (.float _) => .ofPrimitive .float
  | .const (.double _) => .ofPrimitive .double
  | .const (.string _) => .string
  | .var i => m.variableTypes.getD i .object
  | .this => .named unit
  | .arg i => m.params.getD i .object
  | .field f _ => f.type
  | .new className _ _ => .named className
  | .array element _ => element.arrayOf
  | .item _ _ => .object
  | .classOf _ => .named Known.classClass
  | .box e =>
    match (m.typeOf unit e).primitive? with
    | some p => .named p.boxClass
    | none => m.typeOf unit e
  | .unbox p _ => .ofPrimitive p
  | .cast ty _ => ty
  | .call callee _ _ => callee.result

end Method

/-- A field to be generated. -/
structure Field where
  name : String
  type : Ty
  access : UInt16
deriving DecidableEq, Repr

/-- A class to be generated. -/
structure Blueprint where
  name : String
  ancestor : String
  interfaces : List String := []
  /-- The flag word; by default public, with calls of superclass methods found anew. -/
  access : UInt16 := Modifiers.publicBit ||| 0x0020
  fields : List Field := []
  methods : List Method := []

namespace Blueprint

/-- The method of a name and parameter types. -/
def find? (b : Blueprint) (name : String) (params : List Ty) : Option Method :=
  b.methods.find? fun m => m.name == name && m.params == params

/-- The first method of a name. -/
def findNamed? (b : Blueprint) (name : String) : Option Method :=
  b.methods.find? (·.name == name)

end Blueprint

end ComponentViews
