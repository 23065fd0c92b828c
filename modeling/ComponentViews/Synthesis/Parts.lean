import ComponentViews.Blueprint.Syntax

/-!
# Parts of generated bodies

Expressions, handlers and methods that several kinds of generated class share.
-/

namespace ComponentViews

namespace Expr

/-- The first `n` arguments of the method. -/
def forwardArgs (n : Nat) : List Expr := (List.range n).map arg

/-- A new array of objects. -/
def objectArray (items : List Expr) : Expr := array .object items

/-- All arguments of the method as an array of objects. -/
def boxedArgs (params : List Ty) : Expr := objectArray ((forwardArgs params.length).map box)

/-- A value of static type `Object` as one of the given type. -/
def fromObject (ty : Ty) (e : Expr) : Expr :=
  match ty.primitive? with
  | some p => unbox p e
  | none => if ty.isNamed Known.object then e else cast ty e

end Expr

namespace Stmt

/-- Ends a method with what a call gives. -/
def retCall (result : Ty) (call : Expr) : Block :=
  if result.isVoid then [eval call, ret none] else [ret (some call)]

/-- Keeps a value in a variable, if there is one for it. -/
def keep (i : Option Nat) (e : Expr) : Stmt :=
  match i with
  | some i => assign i e
  | none => eval e

end Stmt

/-- A body without variables. -/
def Body.ofBlock (block : Block) : Body := ⟨[], block⟩

/-! ### Handlers with variables of their own -/

/-- A handler whose variable has not been given a place yet. -/
structure Catch where
  binding : Variable
  caught : Option String
  /-- The body of the handler, from the place of its variable. -/
  body : Nat → Block

namespace Catch

/-- The handler for failures of a class. -/
def ofClass (name className : String) (body : Nat → Block) : Catch :=
  ⟨⟨name, .named className⟩, some className, body⟩

/-- The handler for a declared failure. -/
def ofFailure (name : String) (failure : Ty) (body : Nat → Block) : Catch :=
  ⟨⟨name, failure⟩, some failure.name, body⟩

/-- The handler for every failure. -/
def all (name : String) (body : Nat → Block) : Catch :=
  ⟨⟨name, .named Known.throwable⟩, none, body⟩

/-- The handlers, with their variables in places from `first` on. -/
def handlers (first : Nat) : List Catch → List Handler
  | [] => []
  | c :: rest => ⟨c.caught, first, c.body first⟩ :: handlers (first + 1) rest

end Catch

/-! ### Members -/

namespace Method

/-- A public constructor without parameters, which calls the superclass's. -/
def constructorOf (ancestor : String) : Method where
  name := Known.constructor
  body := some (.ofBlock
    [.eval (.invoke .special .this ancestor Known.constructor [] .void []), .ret none])

/-- A public method with a body. -/
def ofBody (name : String) (params : List Ty) (result : Ty) (body : Body) : Method where
  name := name
  params := params
  result := result
  body := some body

end Method

end ComponentViews
