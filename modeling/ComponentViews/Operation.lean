import ComponentViews.Modifiers
import ComponentViews.Ty.Descriptor

/-!
# Operations

An operation is a method as an interface or the bean class declares it. Its name
and parameter types together are its *signature*, and two operations of one
signature are the same one for whoever calls them.
-/

namespace ComponentViews

/-- A method of an interface or of the bean class. -/
structure Operation where
  name : String
  params : List Ty := []
  result : Ty := .void
  /-- The failures declared. -/
  throws : List Ty := []
  /-- The interface or class that declares the method; empty where the one that lists
      it does. -/
  owner : String := ""
  modifiers : Modifiers := .interfaceMethod
deriving DecidableEq, Repr

namespace Operation

/-- The operation as messages show it. -/
def text (op : Operation) : String :=
  (if op.owner.isEmpty then "" else op.owner ++ ".") ++ op.name ++ "(" ++
    ", ".intercalate (op.params.map Ty.text) ++ ")"

instance : ToString Operation := ⟨text⟩

/-- The text that stands for the types of the parameters and the result in a class file. -/
def descriptor (op : Operation) : String := methodDescriptor op.params op.result

/-- The name and the parameter part of the descriptor. -/
def signatureKey (op : Operation) : String := op.name ++ paramsDescriptor op.params

/-- Whether the class `failure` itself is among the failures declared. -/
def declares (op : Operation) (failure : String) : Bool :=
  op.throws.any (·.isNamed failure)

/-- Whether one operation would override the other. -/
def sameSignature (op other : Operation) : Bool :=
  op.name == other.name && op.params == other.params

/-- The operation with its owner, `lister` unless it says otherwise. -/
def ownedBy (op : Operation) (lister : String) : Operation :=
  if op.owner.isEmpty then { op with owner := lister } else op

end Operation

end ComponentViews
