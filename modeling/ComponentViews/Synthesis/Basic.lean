import ComponentViews.Settings.Basic
import ComponentViews.Synthesis.HomeImplementation
import ComponentViews.Synthesis.Skeleton

/-!
# Synthesis

All the classes for a request: the wrapper, for a home the factory implementation, and
for a view over the remote protocol a stub for each interface and one skeleton. Ids,
failures and wire names are worked out once, so that the classes agree on them.
-/

namespace ComponentViews

/-- What has been worked out for a request. -/
structure Synthesis where
  blueprints : List Blueprint
  /-- The wire names of remote operations, by signature, in the order of exposure. -/
  wireNames : List (String × WireName) := []
  dispatchIds : DispatchTable
  warnings : List String := []

/-- Why nothing can be synthesized for a request that breaks no rule. -/
inductive SynthesisFault where
  /-- The container's list of methods lacks a signature that is exposed. -/
  | missingFromTable (key : String)
  | naming (conflict : NamingConflict)
deriving DecidableEq, Repr

namespace Request

/-- Whether a factory implementation belongs to the view. -/
def hasFactory (r : Request) : Bool :=
  r.kind.isFactory && ((r.factory.map (·.emitImplementation)).getD true)

/-- Whether legacy wire names are kept. -/
def keepsLegacyNames (r : Request) (s : Settings) : Bool := r.nameCompat.getD s.nameCompat

/-- The remote operations of an interface, with their wire names. -/
def remoteOperations (r : Request) (s : Settings) (h : Hierarchy)
    (exposed : List ExposedOperation) (i : Interface) :
    Except NamingConflict (List RemoteOperation) := do
  let own := exposed.filter (·.op.owner == i.name)
  let owner := Dotted.simpleName i.name
  let names ← WireName.assign h (some owner) (r.keepsLegacyNames s) (own.map (·.op))
  return (own.zip names).map fun (m, wire) => ⟨m, wire⟩

/-- The remote operations of all interfaces. -/
def allRemoteOperations (r : Request) (s : Settings) (h : Hierarchy)
    (exposed : List ExposedOperation) :
    Except NamingConflict (List (Interface × List RemoteOperation)) :=
  if r.kind.isRemote then
    r.interfaces.mapM fun i => do return (i, ← r.remoteOperations s h exposed i)
  else .ok []

/-- The skeleton for remote operations; without interfaces there is none. -/
def skeleton? (r : Request) (h : Hierarchy) (remote : List (Interface × List RemoteOperation)) :
    Option Blueprint :=
  remote.head?.map fun (first, _) =>
    Skeleton.blueprint h r.skeletonName first.name
      (remote.flatMap fun (i, ops) => ops.map fun op => ⟨i.name, op⟩)

/-- Works out the classes for a request that breaks no rule. -/
def synthesize (r : Request) (s : Settings) (h : Hierarchy) : Except SynthesisFault Synthesis := do
  let table ← r.dispatchTable.mapError .missingFromTable
  let exposed := r.exposedOperations h s.failures table
  let remote ← (r.allRemoteOperations s h exposed).mapError .naming
  let wrapper := Wrapper.blueprint r exposed
  let factory : HomeContext := ⟨r, h, s.failures⟩
  return {
    blueprints := wrapper :: (if r.hasFactory then [factory.blueprint] else []) ++
      (remote.map fun (i, ops) => Stub.blueprint h i ops) ++ (r.skeleton? h remote).toList
    wireNames := remote.flatMap fun (_, ops) =>
      ops.map fun op => (op.exposed.op.signatureKey, op.wire)
    dispatchIds := table
    warnings := r.exposure.2 ++ (if r.hasFactory then r.homeMethods.2 else []) }

end Request

end ComponentViews
