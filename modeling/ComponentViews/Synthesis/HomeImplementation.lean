import ComponentViews.Synthesis.HomeMethod

/-!
# Factory implementations

The factory implementation extends the container's home, and does its work through the
methods that it inherits:

* to create a stateless session it asks for a wrapper, and nothing else;
* to create anything else it makes a bean context, runs the bean methods that construct
  the bean, and takes it into use; at the end it either reports that this failed or
  completes it, and never both;
* to find beans, and for the home's own business, it takes a *worker* bean, calls it and
  gives it back. A worker whose method fails with a declared failure is given back too;
  after any other failure it is thrown away.
-/

namespace ComponentViews

/-- What the methods of a factory implementation depend on. -/
structure HomeContext where
  request : Request
  hierarchy : Hierarchy
  policy : FailurePolicy

/-- The container's methods that hand out a worker, take it back and throw it away. -/
structure WorkerPool where
  acquire : String
  release : String
  discard : String

namespace WorkerPool

/-- The workers for finders. -/
def finder : WorkerPool where
  acquire := "getFinderEntityBeanO"
  release := "releaseFinderEntityBeanO"
  discard := "discardFinderEntityBeanO"

/-- The workers for finding by the primary key, which are taken in another way than those of other
    finders. -/
def findByPrimaryKey : WorkerPool := { finder with acquire := "getFindByPrimaryKeyEntityBeanO" }

/-- The workers for operations of the home itself. -/
def business : WorkerPool where
  acquire := "getHomeMethodEntityBeanO"
  release := "releaseHomeMethodEntityBeanO"
  discard := "discardHomeMethodEntityBeanO"

/-- Takes a worker. -/
def acquireExpr (w : WorkerPool) : Expr :=
  Hook.invokeInherited ⟨Known.home, w.acquire, [], .named Known.entityBeanContext⟩ []

/-- Gives the worker in a variable back. -/
def releaseExpr (w : WorkerPool) (worker : Nat) : Expr :=
  Hook.invokeInherited ⟨Known.home, w.release, [.named Known.entityBeanContext], .void⟩
    [.var worker]

/-- Throws the worker in a variable away. -/
def discardExpr (w : WorkerPool) (worker : Nat) : Expr :=
  Hook.invokeInherited ⟨Known.home, w.discard, [.named Known.entityBeanContext], .void⟩
    [.var worker]

end WorkerPool

namespace HomeContext

variable (c : HomeContext) (m : HomeMethod)

/-! ### What methods are made of -/

/-- The name of the bean class. -/
def beanClass : String := c.request.bean.className

/-- A call of a method of the container's home, which may have a twin for local homes. -/
def inherited (name : String) (isLocal : Bool) (params : List Ty) (result : Ty)
    (args : List Expr) : Expr :=
  .invoke .special .this Known.home (if isLocal then name ++ Known.localSuffix else name) params
    result args

/-- The interface through which a home hands out beans. -/
def handedOut (isLocal : Bool) : Ty := .named (Request.viewInterface isLocal)

/-- The declared failures that reach the caller as they are. -/
def applicationFailures : List Ty :=
  (c.hierarchy.classify c.policy m.op.throws true).application

/-- A call of a bean method with the arguments of the operation. -/
def beanCall (bean : Nat) (name : String) (result : Ty) : Expr :=
  .invoke .virtual (.var bean) c.beanClass name m.op.params result
    (Expr.forwardArgs m.op.params.length)

/-- The result of a bean method with the parameters of the operation. -/
def beanResult (name : String) : Ty :=
  ((c.request.bean.find? name m.op.params).map (·.result)).getD .void

/-- The type of primary keys. -/
def keyType : Ty := (c.request.factory.bind (·.keyType)).getD .object

/-- Handlers that pass the declared failures on, after doing something before. -/
def rethrow (before : Block) : List Catch :=
  (c.applicationFailures m).map fun failure =>
    .ofFailure "createFailure" failure fun e => before ++ [.throw (.var e)]

/-- The bean in the context that a variable holds. -/
def beanIn (context : Nat) : Expr :=
  .cast (.named c.beanClass) (Hook.beanInstance.invoke (.var context) [])

/-- The failure to create, with its cause. -/
def failureToCreate (cause : Expr) : Expr :=
  .new Known.createFailureException [.named Known.throwable] [cause]

/-! ### Creating -/

/-- The body of the operation that creates a stateless session. -/
def createStateless : Body :=
  let wrapper := if m.isLocal then Known.localWrapper else Known.remoteWrapper
  let created := inherited "createWrapper" m.isLocal [.named Known.beanId] (.named wrapper) [.null]
  let catches := c.rethrow m [] ++ [.all "failure" fun e => [.throw (failureToCreate (.var e))]]
  { vars := catches.map (·.binding)
    block := [.region [.ret (some (.cast m.op.result created))] (Catch.handlers 0 catches) none] }

/-- What a failure of a creating operation becomes if it is not declared. -/
def undeclaredFailure (cause : Expr) : Expr :=
  if m.isLocal then
    inherited "newCreateFailureException" true [.named Known.throwable] (.named Known.ejbException)
      [cause]
  else failureToCreate cause

/-! The places of the variables of a creating operation. -/

def created : Nat := 0
def createdContext : Nat := 1
def createdBean : Nat := 2
def hasFailed : Nat := 3
def isAnnounced : Nat := 4
def createdKey : Nat := 5

/-- Makes a bean context and announces the bean. -/
def beginCreation : Block :=
  [.assign createdContext (inherited "createBeanO" false [] (.named Known.beanContext) []),
    .assign createdBean (c.beanIn createdContext),
    .assign isAnnounced (inherited "preEjbCreate" false [.named Known.beanContext] .boolean
      [.var createdContext])]

/-- Constructs a session bean, and takes it into use. -/
def constructSession : Block :=
  let init := c.request.initMethod m.op
  [.eval (c.beanCall m createdBean init (c.beanResult m init)),
    .assign created (.cast m.op.result (inherited "postCreate" m.isLocal
      [.named Known.beanContext] (handedOut m.isLocal) [.var createdContext]))]

/-- Constructs an entity bean, and takes it into use under its key. -/
def constructEntity : Block :=
  let create := HomeOperation.entityMethod m.op.name
  let post := HomeOperation.postCreateMethod m.op.name
  [.assign createdKey (c.beanCall m createdBean create c.keyType),
    .assign created (.cast m.op.result (inherited "postCreate" m.isLocal
      [.named Known.beanContext, .object, .boolean] (handedOut m.isLocal)
      [.var createdContext, .var createdKey, .bool true])),
    .eval (c.beanCall m createdBean post .void),
    .eval (inherited "afterPostCreate" false [.named Known.beanContext, .object] .void
      [.var createdContext, .var createdKey])]

/-- Reports that the creation failed, or completes it if the bean was announced. -/
def endCreation : Block :=
  let report (name : String) : Stmt :=
    .eval (inherited name false [.named Known.beanContext] .void [.var createdContext])
  [.cond (.isTrue (.var hasFailed)) [report "createFailure"]
    [.cond (.isTrue (.var isAnnounced)) [report "afterPostCreateCompletion"] []]]

/-- Whether what the home creates has a key. -/
def isEntity : Bool := c.request.componentType == .beanManagedEntity

/-- The body of an operation that creates a bean with a state. -/
def create : Body :=
  let flag := Stmt.assign hasFailed (.bool true)
  let catches := c.rethrow m [flag] ++
    [.all "failure" fun e => [flag, .throw (undeclaredFailure m (.var e))]]
  let vars : List Variable :=
    [⟨"rv", m.op.result⟩, ⟨"beanO", .named Known.beanContext⟩, ⟨"bean", .named c.beanClass⟩,
      ⟨"exceptionOccurred", .boolean⟩, ⟨"preEjbCreateCalled", .boolean⟩] ++
    (if c.isEntity then [⟨"pkey", c.keyType⟩] else [])
  let construct := if c.isEntity then c.constructEntity m else c.constructSession m
  { vars := vars ++ catches.map (·.binding)
    block :=
      [.assign created .null, .assign createdContext .null, .assign hasFailed (.bool false),
        .assign isAnnounced (.bool false),
        .region (c.beginCreation ++ construct) (Catch.handlers vars.length catches)
          (some ⟨none, endCreation⟩),
        .ret (some (.var created))] }

/-! ### Workers -/

/-- The handlers of a use of a worker: behind a declared failure the worker is given back,
    and the failure is thrown again. -/
def workerCatches (w : WorkerPool) (worker : Nat) : List Catch :=
  c.rethrow m [.eval (w.releaseExpr worker), .assign worker .null]

/-- The variables of a use of a worker: the worker, the bean, and those of handlers. -/
def workerVariables (w : WorkerPool) : List Variable :=
  [⟨"beanO", .named Known.entityBeanContext⟩, ⟨"bean", .named c.beanClass⟩] ++
    (c.workerCatches m w 0).map (·.binding)

/-- Takes a worker, calls its method, and gives it back; the variables of this are those
    from place `first` on. The result goes into a variable, if there is one for it. -/
def useWorker (w : WorkerPool) (first : Nat) (name : String) (keepIn : Option Nat) (result : Ty) :
    Block :=
  let worker := first
  let bean := first + 1
  [.assign worker .null,
    .region
      [.assign worker w.acquireExpr,
        .assign bean (c.beanIn worker),
        .keep keepIn (c.beanCall m bean name result),
        .eval (w.releaseExpr worker),
        .assign worker .null]
      (Catch.handlers (first + 2) (c.workerCatches m w worker))
      -- A worker that is still held here has not been given back.
      (some ⟨none, [.cond (.notNull (.var worker)) [.eval (w.discardExpr worker)] []]⟩)]

/-- The view of the bean with a key. -/
def activate (key : Expr) : Expr :=
  .cast m.op.result
    (inherited "activateBean" m.isLocal [.object] (handedOut m.isLocal) [key])

/-- The body of `findByPrimaryKey`: looks for a bean that is in use before it asks. -/
def findByPrimaryKey : Body :=
  let cached := inherited "getBean" m.isLocal [.object] (handedOut m.isLocal)
    (Expr.forwardArgs (min m.op.params.length 1))
  let name := HomeOperation.entityMethod m.op.name
  { vars := [⟨"rv", m.op.result⟩, ⟨"pkey", c.keyType⟩] ++
      c.workerVariables m .findByPrimaryKey
    block :=
      [.assign 0 (.cast m.op.result cached),
        .cond (.isNull (.var 0))
          (c.useWorker m .findByPrimaryKey 2 name (some 1) c.keyType ++
            [.assign 0 (activate m (.var 1))])
          [],
        .ret (some (.var 0))] }

/-- What a finder's bean method gives: a collection of keys, or a key. -/
def foundType : Ty :=
  if m.op.result.isNamed Known.collection || m.op.result.isNamed Known.enumeration then
    .named m.op.result.name
  else c.keyType

/-- The views of the beans that have been found. -/
def foundViews (found : Expr) : Expr :=
  let convert (name : String) := inherited name m.isLocal [c.foundType m] (c.foundType m) [found]
  if m.op.result.isNamed Known.collection then convert "getCMP20Collection"
  else if m.op.result.isNamed Known.enumeration then convert "getCMP20Enumeration"
  else activate m found

/-- The body of any other finder. -/
def find : Body :=
  let name := HomeOperation.entityMethod m.op.name
  { vars := ⟨"result", c.foundType m⟩ :: c.workerVariables m .finder
    block :=
      .assign 0 .null :: c.useWorker m .finder 1 name (some 0) (c.foundType m) ++
        [.ret (some (c.foundViews m (.var 0)))] }

/-- The body of an operation for the home's own business. -/
def business : Body :=
  let name := HomeOperation.entityMethod m.op.name
  let result : Option Nat := if m.op.result.isVoid then none else some 0
  let first := if m.op.result.isVoid then 0 else 1
  { vars := (result.toList.map fun _ => ⟨"result", m.op.result⟩) ++
      c.workerVariables m .business
    block :=
      (result.toList.map fun i => .assign i (.zero m.op.result)) ++
        c.useWorker m .business first name result m.op.result ++ [.ret (result.map .var)] }

/-! ### The class -/

/-- The body of an operation of the home, by what its name says that it does. -/
def body : Body :=
  match HomeOperation.ofName m.op.name with
  | .create =>
    if c.request.componentType = .stateless then c.createStateless m else c.create m
  | .findByPrimaryKey => c.findByPrimaryKey m
  | .find => c.find m
  | .business => c.business m

/-- The method for an operation of a home. -/
def method : Method where
  name := m.name
  params := m.op.params
  result := m.op.result
  throws := m.op.throws
  body := some (c.body m)

/-- The factory implementation of a component. -/
def blueprint : Blueprint where
  name := c.request.factoryName
  ancestor := Known.home
  methods := .constructorOf Known.home :: c.request.homeMethods.1.map c.method

end HomeContext

end ComponentViews
