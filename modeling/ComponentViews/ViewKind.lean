import ComponentViews.Known

/-!
# Kinds of view

A component is reached through *views*, and a generated class serves callers of
one view. The kind of the view decides which class it extends, how it reaches the
container's record of the component, and which rules hold for the operations it
exposes.
-/

namespace ComponentViews

/-- A kind of view. -/
inductive ViewKind where
  | componentLocal
  | componentRemote
  | businessLocal
  | businessRemote
  | noInterface
  | managed
  | endpoint
  | endpointNoInterface
  | factoryLocal
  | factoryRemote
  | serviceEndpoint
deriving DecidableEq, Repr

/-- How generated code gets at the wrapper base that the container's hooks expect. -/
inductive BaseAccess where
  /-- The generated class extends it. -/
  | self
  /-- The generated class extends the bean class, and holds it in a field. -/
  | field (name type : String)
deriving DecidableEq, Repr

namespace ViewKind

/-- All kinds of views. -/
def all : List ViewKind :=
  [componentLocal, componentRemote, businessLocal, businessRemote, noInterface, managed,
    endpoint, endpointNoInterface, factoryLocal, factoryRemote, serviceEndpoint]

/-- The word for a kind in requests and messages. -/
def word : ViewKind → String
  | componentLocal => "ComponentLocal"
  | componentRemote => "ComponentRemote"
  | businessLocal => "BusinessLocal"
  | businessRemote => "BusinessRemote"
  | noInterface => "NoInterfaceView"
  | managed => "ManagedComponent"
  | endpoint => "EndpointProxy"
  | endpointNoInterface => "EndpointProxyNoInterface"
  | factoryLocal => "FactoryLocal"
  | factoryRemote => "FactoryRemote"
  | serviceEndpoint => "ServiceEndpoint"

/-- The kind of a word. -/
def ofWord? (text : String) : Option ViewKind := all.find? (·.word == text)

@[simp] theorem ofWord?_word (k : ViewKind) : ofWord? k.word = some k := by
  cases k <;> decide

/-- The part of a generated class's name that tells the kind. -/
def tag : ViewKind → String
  | componentLocal => "Local"
  | componentRemote => "Remote"
  | businessLocal => "BusinessLocal"
  | businessRemote => "BusinessRemote"
  | noInterface => "LocalBean"
  | managed => "ManagedBean"
  | endpoint => "MessageEndpoint"
  | endpointNoInterface => "NoMethodMessageEndpoint"
  | factoryLocal => "LocalHome"
  | factoryRemote => "RemoteHome"
  | serviceEndpoint => "ServiceEndpoint"

/-- The generated class extends the bean class and not one of the container's. -/
def extendsBean : ViewKind → Bool
  | noInterface | managed | endpointNoInterface => true
  | _ => false

/-- The class that the generated one extends. -/
def ancestor (beanClass : String) : ViewKind → String
  | componentRemote | factoryRemote => Known.remoteWrapper
  | componentLocal | factoryLocal => Known.localWrapper
  | businessLocal => Known.businessLocalWrapper
  | businessRemote | serviceEndpoint => Known.businessRemoteWrapper
  | endpoint => Known.messageEndpointBase
  | noInterface | managed | endpointNoInterface => beanClass

/-- The interfaces implemented besides those exposed. -/
def extraInterfaces : ViewKind → List String
  | noInterface | managed => [Known.localBeanWrapper]
  | endpointNoInterface => [Known.messageEndpoint]
  | _ => []

/-- The fields declared, each with its type. -/
def fields : ViewKind → List (String × String)
  | noInterface => [(Known.wrapperBaseField, Known.businessLocalWrapper)]
  | managed =>
    [(Known.wrapperBaseField, Known.businessLocalWrapper),
      (Known.managedContextField, Known.beanContext)]
  | endpointNoInterface => [(Known.endpointBaseField, Known.messageEndpointBase)]
  | _ => []

/-- How the wrapper base is reached. -/
def baseAccess : ViewKind → BaseAccess
  | noInterface | managed => .field Known.wrapperBaseField Known.businessLocalWrapper
  | endpointNoInterface => .field Known.endpointBaseField Known.messageEndpointBase
  | _ => .self

/-- A view of a component's home. -/
def isFactory : ViewKind → Bool
  | factoryLocal | factoryRemote => true
  | _ => false

/-- A view through which messages are delivered. -/
def isEndpoint : ViewKind → Bool
  | endpoint | endpointNoInterface => true
  | _ => false

/-- Callers come over the remote protocol, so operations have wire names, and a stub
    and a skeleton carry the calls. -/
def isRemote : ViewKind → Bool
  | componentRemote | factoryRemote | businessRemote => true
  | _ => false

/-- A component interface or a home. -/
def isComponentView : ViewKind → Bool
  | componentLocal | componentRemote | factoryLocal | factoryRemote => true
  | _ => false

/-- Several interfaces may be served by one generated class. -/
def supportsAggregate : ViewKind → Bool
  | businessLocal | noInterface => true
  | _ => false

/-- Operation names that begin with `ejb` are reserved. -/
def reservesEjbNames (k : ViewKind) : Bool :=
  !(k.isFactory || k.isEndpoint || k == managed)

/-- The bean class itself is the view: final methods and declared protocol failures
    are refused, and methods that are not public are guarded. -/
def isNoInterface (k : ViewKind) : Bool := k.extendsBean

/-- The bean class must itself have every operation exposed. -/
def requiresBeanMethods (k : ViewKind) : Bool := !(k.isFactory || k.isEndpoint)

/-- The generated class has its own identity. -/
def hasIdentityMembers : ViewKind → Bool
  | noInterface | managed | endpoint => true
  | _ => false

/-- The interface that an exposed component interface or home must extend. -/
def requiredInterface? : ViewKind → Option String
  | componentLocal => some Known.ejbLocalObject
  | componentRemote => some Known.ejbObject
  | factoryLocal => some Known.ejbLocalHome
  | factoryRemote => some Known.ejbHome
  | _ => none

end ViewKind

end ComponentViews
