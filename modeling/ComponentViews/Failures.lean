import ComponentViews.Hierarchy.Basic
import ComponentViews.Ty.Basic

/-!
# Declared failures

A method declares which failures it may end with. The body generated for it
handles each *application failure* by a handler of its own; failures that nobody
need declare are the system's, and those of the remote protocol pass through
untouched unless the settings make them the application's.

A handler catches subtypes too. So application failures are ordered with
subtypes first, and where a declared supertype would swallow runtime or protocol
failures, a handler for those comes before all of them.
-/

namespace ComponentViews

/-- How the failures of a method are told apart. -/
structure FailurePolicy where
  /-- Runtime failures are the system's even where a supertype is declared. -/
  uncheckedAreSystem : Bool := true
  /-- Declared protocol failures are the application's. -/
  remoteAreApplication : Bool := false
deriving DecidableEq, Repr

/-- The handlers that a method needs besides the one for everything else. -/
structure Failures where
  /-- Runtime failures need a handler before those of the application. -/
  systemUnchecked : Bool := false
  /-- Protocol failures need a handler before those of the application. -/
  protocolNative : Bool := false
  /-- The application failures, subtypes before supertypes. -/
  application : List Ty := []
  /-- The declared protocol failures. -/
  declaredProtocol : List Ty := []
deriving DecidableEq, Repr

namespace Failures

/-- The failures handled, in the order of their handlers. -/
def handlerTypes (f : Failures) : List Ty :=
  (if f.systemUnchecked then [Ty.named Known.runtimeException] else []) ++
    (if f.protocolNative then [Ty.named Known.remoteException] else []) ++ f.application

end Failures

namespace Hierarchy

/-- Whether no type of the list is a strict subtype of `ty`. -/
def isMinimal (h : Hierarchy) (types : List Ty) (ty : Ty) : Bool :=
  !types.any fun other => h.isStrictSubtype other.name ty.name

/-- The types with subtypes before supertypes: again and again the first of those
    left over that has no strict subtype among them. Where all have one, because the
    declarations run in a circle, the first goes ahead. -/
def subtypesFirst (h : Hierarchy) (types : List Ty) : List Ty :=
  go types.length types
where
  /-- Takes `n` types from those left over. -/
  go : Nat → List Ty → List Ty
    | 0, _ => []
    | _ + 1, [] => []
    | n + 1, ty :: types =>
      let next := ((ty :: types).find? (h.isMinimal (ty :: types))).getD ty
      next :: go n ((ty :: types).erase next)

/-- Whether no type is a strict supertype of one after it. -/
def subtypeOrdered (h : Hierarchy) : List Ty → Bool
  | [] => true
  | sup :: rest =>
    rest.all (fun sub => !h.isStrictSubtype sub.name sup.name) && h.subtypeOrdered rest

/-- Adds a declared failure to the application's and the protocol's found so far. -/
def addDeclared (h : Hierarchy) (policy : FailurePolicy) :
    List Ty × List Ty → Ty → List Ty × List Ty
  | (checked, protocol), ty =>
    if checked.contains ty || protocol.contains ty || h.isUnchecked ty.name then
      (checked, protocol)
    else if h.isProtocolFailure ty.name then
      (if policy.remoteAreApplication then checked ++ [ty] else checked, protocol ++ [ty])
    else (checked ++ [ty], protocol)

/-- The handlers for the declared failures of a method. Only where callers reach it
    through the remote protocol do protocol failures need a handler of their own. -/
def classify (h : Hierarchy) (policy : FailurePolicy) (declared : List Ty) (remoteStyle : Bool) :
    Failures :=
  let (checked, protocol) := declared.foldl (h.addDeclared policy) ([], [])
  -- A handler of its own is needed where one for a declared supertype would come first.
  { systemUnchecked := policy.uncheckedAreSystem &&
      checked.any fun c => h.isStrictSubtype Known.runtimeException c.name
    protocolNative := remoteStyle && !policy.remoteAreApplication &&
      checked.any fun c => h.isStrictSubtype Known.remoteException c.name
    application := h.subtypesFirst checked
    declaredProtocol := protocol }

end Hierarchy

end ComponentViews
