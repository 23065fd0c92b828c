import ComponentViews.Request.Basic

/-!
# The hierarchy of a request

The classes that a request describes may leave out failures that its operations
declare. Such a failure is taken for a checked exception, with a warning.
-/

namespace ComponentViews.Request

/-- The names of all declared failures, in the order in which the request lists them. -/
def declaredFailures (r : Request) : List String :=
  let ops := (r.interfaces ++ r.companion?.toList).flatMap (·.methods) ++ r.bean.methods
  (ops.flatMap (·.throws)).map (·.name)

/-- The names among `names` that a hierarchy does not declare, each once, and the
    hierarchy that takes them for checked exceptions. -/
def assumeFailures : Hierarchy → List String → Hierarchy × List String
  | h, [] => (h, [])
  | h, name :: names =>
    if h.contains name then assumeFailures h names
    else
      let (h, assumed) := assumeFailures (h.assumeChecked name) names
      (h, name :: assumed)

/-- The hierarchy of a request, with the failures that it does not describe. -/
def hierarchy (r : Request) : Hierarchy :=
  (assumeFailures r.describedHierarchy r.declaredFailures).1

/-- The failures that the request does not describe. -/
def assumedFailures (r : Request) : List String :=
  (assumeFailures r.describedHierarchy r.declaredFailures).2

/-- The warnings about failures that the request does not describe. -/
def assumptionWarnings (r : Request) : List String :=
  r.assumedFailures.map fun name =>
    s!"{r.component}: {name} is not described; assuming it extends {Known.exception}"

end ComponentViews.Request
