import ComponentViews.Hierarchy.Standard
import ComponentViews.Operation
import ComponentViews.Table
import ComponentViews.ViewKind

/-!
# Requests

A request describes one view of one component: the interfaces exposed, the bean
class behind them, the classes that the descriptions refer to, and for a home how
its operations map to those of the bean class. Names of the classes to be
generated follow from it.
-/

namespace ComponentViews

/-- What sort of component stands behind the view. -/
inductive ComponentType where
  | stateless
  | stateful
  | singleton
  | beanManagedEntity
  | messageDriven
  | managed
deriving DecidableEq, Repr

namespace ComponentType

/-- All types of components. -/
def all : List ComponentType :=
  [stateless, stateful, singleton, beanManagedEntity, messageDriven, managed]

/-- The word for a sort of component in requests and messages. -/
def word : ComponentType → String
  | stateless => "Stateless"
  | stateful => "Stateful"
  | singleton => "Singleton"
  | beanManagedEntity => "BeanManagedEntity"
  | messageDriven => "MessageDriven"
  | managed => "Managed"

/-- The sort of component of a word. -/
def ofWord? (text : String) : Option ComponentType := all.find? (·.word == text)

@[simp] theorem ofWord?_word (t : ComponentType) : ofWord? t.word = some t := by
  cases t <;> decide

/-- Whether the component is a session. -/
def isSession : ComponentType → Bool
  | stateless | stateful | singleton => true
  | _ => false

end ComponentType

/-- An interface exposed to callers. -/
structure Interface where
  name : String
  parents : List String := []
  /-- `false` where a class stands in the place of an interface. -/
  isInterface : Bool := true
  methods : List Operation := []
deriving DecidableEq, Repr

namespace Interface

/-- The operations, each with its owner. -/
def ownedMethods (i : Interface) : List Operation := i.methods.map (·.ownedBy i.name)

/-- What the interface is in a hierarchy. -/
def decl (i : Interface) : ClassDecl where
  name := i.name
  interfaces := i.parents
  isInterface := i.isInterface

end Interface

/-- The bean class. -/
structure Bean where
  className : String
  superclass : Option String := none
  /-- The methods that the class and those above it declare. -/
  methods : List Operation := []
deriving DecidableEq, Repr

namespace Bean

/-- The method of a name and parameter types. -/
def find? (b : Bean) (name : String) (params : List Ty) : Option Operation :=
  b.methods.find? fun m => m.name == name && m.params == params

/-- The methods, each with its owner. -/
def ownedMethods (b : Bean) : List Operation := b.methods.map (·.ownedBy b.className)

end Bean

/-- How the container wants calls of an operation to run. -/
structure DispatchPolicy where
  /-- Interceptors run around the call. -/
  interceptors : Bool := false
  asynchronous : Bool := false
deriving DecidableEq, Repr

/-- How a home's operations map to the bean class. -/
structure FactoryBinding where
  /-- The bean methods that finish construction, by the signature or the name of the
      operation that creates. -/
  initMethods : Table String := ∅
  /-- The type of primary keys. -/
  keyType : Option Ty := none
  /-- The component's other home, which the factory implementation serves too. -/
  companion : Option Interface := none
  /-- The factory implementation is generated with the home. -/
  emitImplementation : Bool := true
deriving DecidableEq

/-- A view of a component, and what is needed to generate its classes. -/
structure Request where
  component : String
  kind : ViewKind
  componentType : ComponentType := .stateless
  interfaces : List Interface := []
  bean : Bean
  /-- The classes that the descriptions refer to. -/
  types : List ClassDecl := []
  /-- Policies, by signature or by name. -/
  policies : Table DispatchPolicy := ∅
  /-- The container's own numbering of the component's methods, if it has one. -/
  allMethods : List Operation := []
  /-- Keep a legacy wire name beside a corrected one, if the request says so. -/
  nameCompat : Option Bool := none
  factory : Option FactoryBinding := none
deriving DecidableEq

namespace Request

/-- The policy for an operation: that of its signature, or else of its name. -/
def policyFor (r : Request) (op : Operation) : DispatchPolicy :=
  ((r.policies.get? op.signatureKey).or (r.policies.get? op.name)).getD {}

/-- The other home of the component. -/
def companion? (r : Request) : Option Interface := r.factory.bind (·.companion)

/-- The declaration of the bean class. -/
def beanDecl (r : Request) : ClassDecl :=
  .extending r.bean.className (r.bean.superclass.getD Known.object) (r.interfaces.map (·.name))

/-- The standard classes and those that the request describes. -/
def describedHierarchy (r : Request) : Hierarchy :=
  .withClasses (r.types ++ r.interfaces.map Interface.decl ++
    r.companion?.toList.map Interface.decl ++ [r.beanDecl])

/-! ### Names of generated classes -/

/-- The package of the bean class, where generated classes go. -/
def package? (r : Request) : Option String := Dotted.package? r.bean.className

/-- A simple name in the package of the bean class. -/
def qualify (r : Request) (simple : String) : String := Dotted.qualify r.package? simple

/-- The name of the component without its package. -/
def componentSimpleName (r : Request) : String := Dotted.simpleName r.component

/-- The name of the class that dispatches the operations of the view. -/
def wrapperName (r : Request) : String :=
  r.qualify (r.componentSimpleName ++ "_" ++ r.kind.tag ++ "Wrapper")

/-- The name of the class that implements the home. -/
def factoryName (r : Request) : String := r.qualify (r.componentSimpleName ++ "_HomeImpl")

/-- The name of the skeleton. That of a home is told apart, so that both skeletons
    of a component fit in one package. -/
def skeletonName (r : Request) : String :=
  r.qualify ("_" ++ r.componentSimpleName ++ (if r.kind.isFactory then "Home" else "") ++ "_Tie")

end Request

/-- The name of the stub for an interface, in the package of the interface. -/
def stubName (interface : String) : String :=
  Dotted.qualify (Dotted.package? interface) ("_" ++ Dotted.simpleName interface ++ "_Stub")

end ComponentViews
