import ComponentViews.Execution.Value

/-!
# Environments

Generated code reaches the container, the remote protocol and the bean class through
its environment: everything outside the class itself. An environment has a state of
type `σ`, which calls may change whether they complete or fail.
-/

namespace ComponentViews

/-- A computation that may change a state and ends with a value or a failure. -/
abbrev Effect (σ α : Type) := ExceptT ObjectRef (StateM σ) α

/-- What a class meets outside itself. -/
structure Environment (σ : Type) where
  /-- A new object of a class; no constructor runs. -/
  allocate : String → StateM σ ObjectRef
  /-- A new object through the constructor with the given parameters. -/
  create : (className : String) → (params : List Ty) → (args : List Value) → Effect σ Value
  /-- A call of a method outside the class. The receiver is missing for static
      methods and never null. -/
  invoke : Callee → (receiver : Option Value) → (args : List Value) → Effect σ Value
  getField : ObjectRef → FieldRef → Effect σ Value
  setField : ObjectRef → FieldRef → Value → Effect σ Unit
  /-- Whether a class is a subtype of another, for handlers, casts and tests. -/
  isSubtype : (sub sup : String) → Bool

namespace Environment

variable {σ α : Type}

/-- A new failure of a class. Where its construction fails, that is the failure. -/
def failure (env : Environment σ) (className : String) : StateM σ ObjectRef := do
  match ← (env.create className [] []).run with
  | .ok (.object o) => return o
  | .ok _ => env.allocate className
  | .error thrown => return thrown

/-- Ends with a new failure of a class. -/
def fail (env : Environment σ) (className : String) : Effect σ α :=
  ExceptT.mk do return .error (← env.failure className)

end Environment

end ComponentViews
