import ComponentViews.Request.Basic
import ComponentViews.Rules.Violation
import ComponentViews.Text.Affix

/-!
# Rules on interfaces and operations

Which interfaces a view of a kind exposes, what they may extend, and what is asked
of the operations and of the bean class behind them.
-/

namespace ComponentViews.Request

/-! ### Interfaces -/

/-- The interfaces that mark component interfaces and homes. -/
def componentInterfaces : List String :=
  [Known.ejbObject, Known.ejbLocalObject, Known.ejbHome, Known.ejbLocalHome]

/-- Checks what an exposed interface extends. -/
def checkInterface (h : Hierarchy) (kind : ViewKind) (i : Interface) : Except Violation Unit := do
  match kind.requiredInterface? with
  | some required =>
    unless h.isSubtype i.name required do throw (.missingSuperInterface i.name required)
  | none =>
    if let some parent := componentInterfaces.find? (h.isSubtype i.name) then
      throw (.forbiddenSuperInterface i.name parent)
  if kind = .businessLocal ∧ h.isRemoteInterface i.name then throw (.remoteLocalInterface i.name)

/-- The operations of all exposed interfaces. -/
def interfaceOperations (r : Request) : List Operation :=
  r.interfaces.flatMap (·.ownedMethods)

/-- Checks that there are interfaces, not too many, and each of the right sort, and
    that the bean class has their operations. -/
def checkInterfaces (h : Hierarchy) (r : Request) : Except Violation Unit := do
  if r.interfaces.isEmpty ∧ !r.kind.isNoInterface then throw (.missingInterface r.kind.word)
  if 1 < r.interfaces.length ∧ !r.kind.supportsAggregate then
    throw (.aggregateNotAllowed r.kind.word r.interfaces.length)
  r.interfaces.forM (checkInterface h r.kind)
  if r.kind.requiresBeanMethods then
    if let some op := r.interfaceOperations.find? fun op =>
        (r.bean.find? op.name op.params).isNone then
      throw (.missingBeanMethod op.text)

/-! ### Operations -/

/-- The operations that callers see: those of the interfaces, or without any the public
    methods of the bean class. -/
def visibleOperations (r : Request) : List Operation :=
  if r.interfaces.isEmpty then r.bean.ownedMethods.filter (·.modifiers.isPublic)
  else r.interfaceOperations

/-- Checks a method of a bean class that is its own view. The generated class
    overrides it, so it may not be final; and it is reached locally. -/
def checkBeanMethod (h : Hierarchy) (op : Operation) : Except Violation Unit := do
  unless op.modifiers.isPrivate || op.modifiers.isStatic || op.name == Known.constructor do
    if op.modifiers.isFinal then throw (.finalMethod op.text)
    if op.modifiers.isPublic && op.throws.any (fun e => h.isProtocolFailure e.name) then
      throw (.protocolFailureOnNoInterface op.text)

/-- Whether an operation is called asynchronously and yet has a plain result. -/
def asyncWithResult (r : Request) (op : Operation) : Bool :=
  (r.policyFor op).asynchronous && !op.result.isVoid && !op.result.isNamed Known.future

/-- Checks the operations that callers see, and the bean class where it is the view. -/
def checkOperations (h : Hierarchy) (r : Request) : Except Violation Unit := do
  let ops := r.visibleOperations
  if r.kind.reservesEjbNames then
    if let some op := ops.find? fun op => Text.startsWith "ejb" op.name then
      throw (.reservedName op.text)
  if let some op := ops.find? r.asyncWithResult then throw (.asyncResult op.text)
  if r.kind.isNoInterface then r.bean.ownedMethods.forM (checkBeanMethod h)

end ComponentViews.Request
