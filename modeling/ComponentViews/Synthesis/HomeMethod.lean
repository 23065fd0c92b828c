import ComponentViews.Rules.Home
import ComponentViews.Synthesis.Wrapper

/-!
# Methods of homes

The factory implementation of a component serves its local and its remote home, and has
a method for each of their operations. The creating and finding operations of the local
home go by names of their own; operations that come to the same name and parameters
share the method of the first.
-/

namespace ComponentViews

/-- An operation of a home. -/
structure HomeMethod where
  op : Operation
  /-- It belongs to the local home. -/
  isLocal : Bool
deriving DecidableEq

namespace HomeMethod

/-- The name of the method in the factory implementation. -/
def name (m : HomeMethod) : String :=
  ViewKind.factoryTarget (if m.isLocal then .factoryLocal else .factoryRemote) m.op.name

/-- What tells the methods of the factory implementation apart. -/
def key (m : HomeMethod) : String := m.name ++ paramsDescriptor m.op.params

/-- Whether two operations declare the same failures. -/
def sameFailures (a b : Operation) : Bool :=
  a.throws.all (b.throws.contains ·) && b.throws.all (a.throws.contains ·)

/-- The warning that an operation has to do with the failures of another. -/
def divergenceWarning (first second : Operation) : String :=
  s!"home method {second} declares different failures than {first}; keeping the first"

/-- Adds a method to those there are and to the warnings so far. -/
def add : List HomeMethod × List String → HomeMethod → List HomeMethod × List String
  | (ms, warnings), m =>
    match ms.find? (·.key == m.key) with
    | none => (ms ++ [m], warnings)
    | some first =>
      (ms, if sameFailures first.op m.op then warnings
        else warnings ++ [divergenceWarning first.op m.op])

end HomeMethod

/-- The methods of the factory implementation, and the warnings about operations that
    share one without declaring the same failures. -/
def Request.homeMethods (r : Request) : List HomeMethod × List String :=
  let all := r.homes.flatMap fun (isLocal, i) => i.ownedMethods.map fun op => ⟨op, isLocal⟩
  all.foldl HomeMethod.add ([], [])

end ComponentViews
