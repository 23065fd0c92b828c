import ComponentViews.HomeOperation
import ComponentViews.Rules.Interfaces

/-!
# Rules on homes

What the operations of a home may be depends on the component: a stateless session
has one `create()`, a stateful one only creating operations, an entity creating,
finding and business operations. Each is bound to a method of the bean class with
the same parameters.
-/

namespace ComponentViews.Request

/-- The component interface that a local or remote home hands out. -/
def viewInterface (isLocal : Bool) : String :=
  if isLocal then Known.ejbLocalObject else Known.ejbObject

/-- Checks that an operation hands out a view. -/
def checkReturnsView (h : Hierarchy) (isLocal : Bool) (op : Operation) :
    Except Violation Unit := do
  let view := viewInterface isLocal
  if op.result.isArray || !h.isStrictSubtype op.result.name view then
    throw (.invalidHomeOperation op.text s!"must return a {view} view")

/-- Checks that an operation declares the failure to create, or a class above it. -/
def checkDeclaresCreateFailure (h : Hierarchy) (op : Operation) : Except Violation Unit := do
  unless op.throws.any (fun e => h.isSubtype Known.createException e.name) do
    throw (.invalidHomeOperation op.text s!"must declare {Known.createException}")

/-- The bean method of a name with the parameters of the operation. -/
def boundMethod (r : Request) (op : Operation) (name : String) : Except Violation Operation :=
  match r.bean.find? name op.params with
  | some bound => .ok bound
  | none =>
    .error (.missingBoundMethod op.text
      (name ++ "(" ++ ", ".intercalate (op.params.map Ty.text) ++ ")"))

/-- Whether a type is the type of primary keys; where the request does not say, any
    reference will do. -/
def isKeyType (r : Request) (ty : Ty) : Bool :=
  match r.factory.bind (·.keyType) with
  | some key => ty == key
  | none => ty.isReference

/-- Checks the home of a stateless session. -/
def checkStatelessHome (h : Hierarchy) (isLocal : Bool) : List Operation → Except Violation Unit
  | [] => .ok ()
  | op :: others => do
    if op.name = "create" ∧ op.params.isEmpty ∧ others.isEmpty then
      checkReturnsView h isLocal op
      checkDeclaresCreateFailure h op
    else
      throw (.invalidHomeOperation op.text "a stateless home has exactly one create() method")

/-- Checks an operation of the home of a stateful session. -/
def checkStatefulOperation (h : Hierarchy) (r : Request) (isLocal : Bool) (op : Operation) :
    Except Violation Unit := do
  unless HomeOperation.ofName op.name = .create do
    throw (.invalidHomeOperation op.text "a stateful home only declares create methods")
  checkReturnsView h isLocal op
  checkDeclaresCreateFailure h op
  let _ ← r.boundMethod op (r.initMethod op)

/-- Checks an operation of the home of an entity. -/
def checkEntityOperation (h : Hierarchy) (r : Request) (isLocal : Bool) (op : Operation) :
    Except Violation Unit := do
  let invalid (problem : String) : Violation := .invalidHomeOperation op.text problem
  if Text.startsWith "remove" op.name then
    throw (invalid "remove methods are inherited from the home interface")
  match HomeOperation.ofName op.name with
  | .create =>
    checkReturnsView h isLocal op
    checkDeclaresCreateFailure h op
    let create ← r.boundMethod op (HomeOperation.entityMethod op.name)
    unless r.isKeyType create.result do
      throw (invalid s!"{create.name} must return the primary key type")
    let post ← r.boundMethod op (HomeOperation.postCreateMethod op.name)
    unless post.result.isVoid do throw (invalid s!"{post.name} must return void")
  | .findByPrimaryKey =>
    checkReturnsView h isLocal op
    let _ ← r.boundMethod op (HomeOperation.entityMethod op.name)
  | .find =>
    let finder ← r.boundMethod op (HomeOperation.entityMethod op.name)
    let several := op.result.isNamed Known.collection || op.result.isNamed Known.enumeration
    unless several do checkReturnsView h isLocal op
    unless if several then finder.result == op.result else r.isKeyType finder.result do
      throw (invalid s!"{finder.name} returns {finder.result}")
  | .business =>
    let bound ← r.boundMethod op (HomeOperation.entityMethod op.name)
    unless bound.result = op.result do
      throw (invalid s!"{bound.name} must return {op.result}")

/-- The homes of the component, each with whether it is local. -/
def homes (r : Request) : List (Bool × Interface) :=
  let isLocal := r.kind == .factoryLocal
  r.interfaces.map (isLocal, ·) ++ r.companion?.toList.map (!isLocal, ·)

/-- Checks the operations of one home. -/
def checkHome (h : Hierarchy) (r : Request) (home : Bool × Interface) : Except Violation Unit :=
  let (isLocal, i) := home
  match r.componentType with
  | .stateless => checkStatelessHome h isLocal i.ownedMethods
  | .stateful => i.ownedMethods.forM (checkStatefulOperation h r isLocal)
  | _ => i.ownedMethods.forM (checkEntityOperation h r isLocal)

/-- Checks the homes of the component, if it may have any. -/
def checkHomes (h : Hierarchy) (r : Request) : Except Violation Unit :=
  match r.componentType with
  | .singleton | .messageDriven | .managed => .error (.unsupportedHome r.componentType.word)
  | _ => r.homes.forM (checkHome h r)

/-- Checks a request against all the rules for its kind of view. -/
def checkRules (h : Hierarchy) (r : Request) : Except Violation Unit := do
  checkInterfaces h r
  checkOperations h r
  if r.kind.isFactory then checkHomes h r

end ComponentViews.Request
