import ComponentViews.HomeOperation
import ComponentViews.Synthesis.Dispatch

/-!
# Wrappers

The wrapper is the class that callers of a view hold. It has a dispatch method for each
exposed operation. Some kinds have an identity of their own, some pass on the members
through which messages are delivered, and a wrapper that extends the bean class overrides
the methods of the bean class that are not public, so that none gets past it.
-/

namespace ComponentViews

/-- The method of the factory implementation that an operation of a home reaches. A local
    and a remote home can have the same creating and finding operations, so that those of
    the local home have names of their own. -/
def ViewKind.factoryTarget (kind : ViewKind) (name : String) : String :=
  if kind = .factoryLocal ∧ (Text.startsWith "create" name || Text.startsWith "find" name) then
    name ++ Known.localSuffix
  else name

namespace Wrapper

/-! ### Identity -/

/-- `equals` and `hashCode` of an object that equals only itself. -/
def ownIdentity : List Method :=
  let isSame : Stmt := .cond (.same .this (.arg 0)) [.ret (some (.bool true))]
    [.ret (some (.bool false))]
  let hash := Expr.invokeStatic Known.system "identityHashCode" [.object] .int [.this]
  [.ofBody "equals" [.object] .boolean (.ofBlock [isSame]),
    .ofBody "hashCode" [] .int (.ofBlock [.ret (some hash)])]

/-- `equals` and `hashCode` of an object that stands for its wrapper base. -/
def baseIdentity (unit : String) : List Method :=
  let base (target : Expr) := Expr.fieldOf unit Known.wrapperBaseField
    Known.businessLocalWrapper target
  let other := Expr.cast (.named unit) (.arg 0)
  let sameBase := Expr.invoke .virtual (base .this) Known.object "equals" [.object] .boolean
    [base other]
  let isSame : Stmt := .cond (.instanceOf (.arg 0) unit) [.ret (some sameBase)]
    [.ret (some (.bool false))]
  let hash := Expr.invoke .virtual (base .this) Known.object "hashCode" [] .int []
  [.ofBody "equals" [.object] .boolean (.ofBlock [isSame]),
    .ofBody "hashCode" [] .int (.ofBlock [.ret (some hash)])]

/-- The members of the identity that the kind has: an endpoint equals only itself. -/
def identityMembers (kind : ViewKind) (unit : String) : List Method :=
  if !kind.hasIdentityMembers then []
  else if kind = .endpoint then ownIdentity
  else baseIdentity unit

/-! ### Delivery -/

/-- A method that passes a call on to the endpoint base. -/
def passOn (unit : String) (hook : Hook) (throws : List String) : Method :=
  let base := Expr.fieldOf unit Known.endpointBaseField Known.messageEndpointBase .this
  { Method.ofBody hook.name hook.params .void
      (.ofBlock [.eval (hook.invoke base (Expr.forwardArgs hook.params.length)), .ret none]) with
    throws := throws.map .named }

/-- The members through which messages are delivered. -/
def deliveryMembers (kind : ViewKind) (unit : String) : List Method :=
  if kind = .endpointNoInterface then
    [passOn unit Hook.beforeDelivery [Known.noSuchMethodException, Known.resourceException],
      passOn unit Hook.afterDelivery [Known.resourceException],
      passOn unit Hook.release []]
  else []

/-! ### Guards -/

/-- Whether a method of the bean class would be inherited though it is not public. -/
def needsGuard (m : Operation) : Bool :=
  !m.modifiers.isPublic && !m.modifiers.isPrivate && !m.modifiers.isStatic &&
    m.name != Known.constructor

/-- The method that stands in the way of one that is not public. -/
def guardOf (m : Operation) : Method where
  name := m.name
  params := m.params
  result := m.result
  throws := m.throws
  access := m.modifiers.bits &&& Modifiers.protectedBit
  body := some (.ofBlock
    [.throw (.new Known.ejbException [.string] [.string Known.nonPublicMethodMessage])])

/-- The guards of a view without interface: it inherits the methods of the bean class, and those
    that are not public must not be called on it. -/
def guards (r : Request) : List Method :=
  if r.kind.isNoInterface then (r.bean.ownedMethods.filter needsGuard).map guardOf else []

/-! ### The class -/

/-- Adds methods after those there are, unless one has the same name and parameters. -/
def addMissing (methods extra : List Method) : List Method :=
  extra.foldl (fun ms m =>
    if ms.any fun d => d.name == m.name && d.params == m.params then ms else ms ++ [m]) methods

/-- Where the dispatch method for an operation sends its calls. -/
def siteFor (r : Request) (op : Operation) : DispatchSite where
  unit := r.wrapperName
  kind := r.kind
  beanClass := if r.kind.isFactory then r.factoryName else r.bean.className
  target := if r.kind.isFactory then r.kind.factoryTarget op.name else op.name
  statelessCreate := r.kind.isFactory && r.componentType == .stateless && op.name == "create" &&
    op.params.isEmpty

/-- The wrapper of a view. -/
def blueprint (r : Request) (exposed : List ExposedOperation) : Blueprint :=
  let unit := r.wrapperName
  let ancestor := r.kind.ancestor r.bean.className
  { name := unit
    ancestor
    interfaces := (r.interfaces.map (·.name) ++ r.kind.extraInterfaces).foldl
      (fun names name => if name ∈ names then names else names ++ [name]) []
    fields := r.kind.fields.map fun (name, type) => ⟨name, .named type, Modifiers.publicBit⟩
    methods := addMissing
      (.constructorOf ancestor :: exposed.map fun m => (siteFor r m.op).method m)
      (identityMembers r.kind unit ++ deliveryMembers r.kind unit ++ guards r) }

end Wrapper

end ComponentViews
