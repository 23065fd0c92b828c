import ComponentViews.Blueprint.Syntax
import ComponentViews.ViewKind

/-!
# The container

Generated code reaches the container through *hooks*: methods of the container's
classes. Around a call there are a hook that runs before it and gives the bean, and one
that runs behind it; both share a record of the call, the *support*, which also takes
note of how the call failed.
-/

namespace ComponentViews

/-- A method of one of the container's classes. -/
structure Hook where
  owner : String
  name : String
  params : List Ty := []
  result : Ty := .void
deriving DecidableEq, Repr

namespace Hook

/-- A call on an object. -/
def invoke (h : Hook) (receiver : Expr) (args : List Expr) : Expr :=
  .invoke .virtual receiver h.owner h.name h.params h.result args

/-- A call of the method that the class itself inherits. -/
def invokeInherited (h : Hook) (args : List Expr) : Expr :=
  .invoke .special .this h.owner h.name h.params h.result args

/-! ### Around a call -/

/-- The types of what tells the container about a call: the wrapper, the dispatch id and
    the support. -/
def callParams : List Ty := [.named Known.wrapperBase, .int, .named Known.deployedSupport]

/-- The type of the arguments of hooks that take all arguments of an operation. -/
def objects : Ty := Ty.object.arrayOf

/-- Runs before a call, and gives the bean. -/
def preInvoke : Hook := ⟨Known.container, "EjbPreInvoke", callParams ++ [objects], .object⟩

/-- Runs in place of `preInvoke` where a stateless bean is created. -/
def preInvokeStatelessCreate : Hook := { preInvoke with name := "EjbPreInvokeForStatelessCreate" }

/-- Runs before a call of a managed bean, which is known already. -/
def preInvokeManaged : Hook where
  owner := Known.container
  name := "EjbPreInvokeForManagedBean"
  params := callParams ++ [.named Known.beanContext, objects]
  result := .object

/-- Runs behind a call. -/
def postInvoke : Hook := ⟨Known.container, "postInvoke", callParams, .void⟩

/-- Runs in place of `postInvoke` where a stateless bean is created. -/
def postInvokeStatelessCreate : Hook :=
  { postInvoke with name := "EjbPostInvokeForStatelessCreate" }

/-- Runs at the very end of a call that failed other than as declared. -/
def failureCleanup : Hook :=
  ⟨Known.container, "failureCleanup", [.named Known.deployedSupport], .void⟩

/-- Runs the interceptors and the bean method; of a timer there is none. -/
def invokeChain : Hook :=
  ⟨Known.container, "invoke", [.named Known.deployedSupport, .named Known.timer], .object⟩

/-- Whether the container wants to see the arguments. -/
def needsArguments : Hook :=
  ⟨Known.container, "doesJaccNeedsEJBArguments", [.named Known.wrapperBase], .boolean⟩

/-- Has a call run later. -/
def scheduleAsync : Hook where
  owner := Known.container
  name := "scheduleAsynchMethod"
  params := [.named Known.wrapperBase, .int, objects]
  result := .named Known.future

/-! ### Notes on failures -/

/-- Notes a declared failure. -/
def setChecked : Hook :=
  ⟨Known.deployedSupport, "setCheckedException", [.named Known.exception], .void⟩

/-- Notes any other failure of a call that comes over the remote protocol. -/
def setUncheckedRemote : Hook :=
  ⟨Known.deployedSupport, "setUncheckedException", [.named Known.throwable], .void⟩

/-- Notes any other failure of a call that does not. -/
def setUncheckedLocal : Hook := { setUncheckedRemote with name := "setUncheckedLocalException" }

/-- Notes any other failure, of a call that comes over the remote protocol or not. -/
def setUnchecked (isRmi : Bool) : Hook := if isRmi then setUncheckedRemote else setUncheckedLocal

/-! ### Message endpoints -/

/-- Checks that messages may be delivered now. -/
def checkState : Hook where
  owner := Known.messageEndpointBase
  name := "checkState"
  params := [.int, .named Known.method, .ofPrimitive .byte]

/-- Runs before a message is delivered to the bean, and gives it. -/
def endpointPreInvoke : Hook :=
  ⟨Known.messageEndpointBase, "mdbMethodPreInvoke", [.int, objects], .object⟩

/-- Runs behind the delivery of a message. -/
def endpointPostInvoke : Hook := ⟨Known.messageEndpointBase, "mdbMethodPostInvoke", [], .void⟩

/-- Announces the delivery of messages by one operation of the listener. -/
def beforeDelivery : Hook :=
  ⟨Known.messageEndpointBase, "beforeDelivery", [.named Known.method], .void⟩

/-- Ends what `beforeDelivery` has begun. -/
def afterDelivery : Hook := ⟨Known.messageEndpointBase, "afterDelivery", [], .void⟩

/-- Tells that the endpoint is not needed any more. -/
def release : Hook := ⟨Known.messageEndpointBase, "release", [], .void⟩

/-- The state of delivery in which `checkState` lets an operation through. -/
def businessMethodState : Int32 := 3

/-! ### Beans -/

/-- The bean in a context. -/
def beanInstance : Hook := ⟨Known.beanContext, "getBeanInstance", [], .object⟩

end Hook

namespace ViewKind

/-- The wrapper base of the class `unit`, which the container's hooks ask for. -/
def baseExpr (kind : ViewKind) (unit : String) : Expr :=
  match kind.baseAccess with
  | .self => .this
  | .field name type => .fieldOf unit name type .this

/-- The container, of which the wrapper base knows. -/
def containerExpr (kind : ViewKind) (unit : String) : Expr :=
  .fieldOf Known.wrapperBase Known.containerField Known.container (kind.baseExpr unit)

/-- The support that a message endpoint uses for all its calls. -/
def supportExpr (kind : ViewKind) (unit : String) : Expr :=
  .fieldOf Known.messageEndpointBase Known.deployedSupportField Known.deployedSupport
    (kind.baseExpr unit)

end ViewKind

end ComponentViews
