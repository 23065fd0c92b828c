import ComponentViews.DispatchTable
import ComponentViews.Failures
import ComponentViews.Request.Hierarchy
import ComponentViews.Text.Quoted

/-!
# Exposed operations

A view exposes the operations of its interfaces, each signature once; a bean class that
is its own view exposes its public methods. Where interfaces declare different failures
for one signature, the bean class decides, and a warning is given. An exposed operation
has a dispatch id and a policy, and its failures are sorted by how they are handled.
-/

namespace ComponentViews

/-- An operation as generated classes see it. -/
structure ExposedOperation where
  op : Operation
  /-- The dispatch id. -/
  id : Nat
  policy : DispatchPolicy
  failures : Failures
  /-- Failures reach the caller over the remote protocol. -/
  isRmi : Bool

/-- Whether an operation of an interface is called over the remote protocol. -/
def Hierarchy.isRmi (h : Hierarchy) (kind : ViewKind) (owner : String) : Bool :=
  h.isRemoteInterface owner || kind == .componentRemote || kind == .factoryRemote

/-- Whether declared protocol failures of an operation get a handler of their own. In
    component interfaces and homes they do even where callers are local. -/
def Hierarchy.isRemoteStyle (h : Hierarchy) (kind : ViewKind) (owner : String) : Bool :=
  h.isRmi kind owner || kind.isComponentView

namespace Request

/-- What a view exposes before operations of one signature are merged. -/
def exposureCandidates (r : Request) : List Operation :=
  if r.interfaces.isEmpty && r.kind.isNoInterface then
    r.bean.ownedMethods.filter fun m =>
      m.modifiers.isPublic && !m.modifiers.isStatic && m.name != Known.constructor
  else r.interfaces.flatMap (·.ownedMethods)

/-- The failures of an operation that two declarations do not agree on: those that the
    bean class declares, or else those of the declaration that came first. -/
def settledFailures (r : Request) (first second : Operation) : List Ty :=
  ((r.bean.find? second.name second.params).map (·.throws)).getD first.throws

/-- The warning that two declarations do not agree. -/
def divergenceWarning (r : Request) (first second : Operation) : String :=
  let names := Text.Quoted.encodeAll ((r.settledFailures first second).map (·.name))
  s!"{r.component}: {first} and {second} declare different failures; using {names}"

/-- Adds an operation to those exposed and to the warnings so far. -/
def addExposed (r : Request) : List Operation × List String → Operation →
    List Operation × List String
  | (ops, warnings), op =>
    match ops.find? (·.signatureKey == op.signatureKey) with
    | none => (ops ++ [op], warnings)
    | some first =>
      if first.throws.isPerm op.throws then (ops, warnings)
      else
        let throws := r.settledFailures first op
        (ops.map fun o => if o.signatureKey == op.signatureKey then { o with throws } else o,
          warnings ++ [r.divergenceWarning first op])

/-- The operations exposed, and the warnings about declarations that do not agree. -/
def exposure (r : Request) : List Operation × List String :=
  r.exposureCandidates.foldl r.addExposed ([], [])

/-- The dispatch ids of the operations exposed; or a signature that the container's list
    of methods lacks. -/
def dispatchTable (r : Request) : Except String DispatchTable :=
  DispatchTable.build r.exposure.1 r.bean.methods r.allMethods

/-- An operation as generated classes see it. The table has ids for all of them. -/
def expose (r : Request) (h : Hierarchy) (policy : FailurePolicy) (table : DispatchTable)
    (op : Operation) : ExposedOperation where
  op := op
  id := (table.idOf? op).getD 0
  policy := r.policyFor op
  failures := h.classify policy op.throws (h.isRemoteStyle r.kind op.owner)
  isRmi := h.isRmi r.kind op.owner

/-- All the operations exposed, as generated classes see them. -/
def exposedOperations (r : Request) (h : Hierarchy) (policy : FailurePolicy)
    (table : DispatchTable) : List ExposedOperation :=
  r.exposure.1.map (r.expose h policy table)

end Request

end ComponentViews
