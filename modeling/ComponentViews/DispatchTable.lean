import ComponentViews.Operation
import ComponentViews.Table

/-!
# Dispatch ids

The container finds the policy and the context of a call by a number, the dispatch
id of the operation. Where it has numbered the methods of the component itself, an
id is a place in its list. Otherwise the signatures of the bean class are numbered
in ascending order, and those that a view exposes beyond them follow.
-/

namespace ComponentViews

/-- The dispatch ids of the operations that a view exposes, by signature. -/
abbrev DispatchTable := Table Nat

namespace DispatchTable

/-- The signatures of operations, in ascending order, each once. -/
def signatures (ops : List Operation) : List String :=
  (Table.ofList (ops.map fun op => (op.signatureKey, ()))).keys

/-- The ids where the container has not numbered the methods. -/
def ofBean (exposed bean : List Operation) : DispatchTable :=
  let keys := signatures exposed
  -- What the bean has comes first, so that all its views number it alike.
  let numbered := signatures bean ++ keys.filter (!(signatures bean).contains ·)
  .ofList (numbered.zipIdx.filter fun (key, _) => keys.contains key)

/-- The ids as places in the container's list; or the first signature, in ascending
    order, that it lacks. -/
def ofContainer (exposed all : List Operation) : Except String DispatchTable := do
  let places := all.map (·.signatureKey)
  let ids ← (signatures exposed).mapM fun key =>
    match places.idxOf? key with
    | some id => .ok (key, id)
    | none => .error key
  return .ofList ids

/-- The ids of the exposed operations; or a signature that the container's list lacks. -/
def build (exposed bean all : List Operation) : Except String DispatchTable :=
  if all.isEmpty then .ok (ofBean exposed bean) else ofContainer exposed all

/-- The id of an operation. -/
def idOf? (t : DispatchTable) (op : Operation) : Option Nat := t.get? op.signatureKey

/-- How a signature that the container's list lacks is reported. -/
def missingMessage (key : String) : String :=
  s!"exposed method {key} is missing from the container method table"

end DispatchTable

end ComponentViews
