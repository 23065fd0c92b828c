import ComponentViews.Synthesis.Container
import ComponentViews.Synthesis.Exposure
import ComponentViews.Synthesis.Parts

/-!
# Dispatch methods

The method that a wrapper has for an exposed operation asks the container for the bean,
calls it, and tells the container how the call went:

* the hook behind the call runs on every way out once the call has been announced;
* a declared failure reaches the caller as it is, after it has been noted;
* any other failure is noted too, and reaches the caller within a failure of the
  container or of the remote protocol, and then the container cleans up at the very end;
* a failure of the hook behind the call counts only where nothing else has failed.

Asynchronous operations are handed over to the container, and managed beans, for which
no hook runs behind the call, have a simpler method.
-/

namespace ComponentViews

/-- Where a dispatch method sends its calls. -/
structure DispatchSite where
  /-- The class that has the method. -/
  unit : String
  kind : ViewKind
  /-- The class of the beans. -/
  beanClass : String
  /-- The bean method that is called. -/
  target : String
  /-- The operation creates a stateless session, for which there are hooks of its own. -/
  statelessCreate : Bool := false

namespace DispatchSite

variable (site : DispatchSite) (m : ExposedOperation)

/-- The expression for the instance that hooks are called on. -/
def base : Expr := site.kind.baseExpr site.unit

/-- The expression for the container. -/
def container : Expr := site.kind.containerExpr site.unit

/-- The dispatch id of the operation as an expression. -/
def idExpr : Expr := .int (Int32.ofNat m.id)

/-- The call of the bean method. -/
def directCall (bean : Expr) : Expr :=
  .invoke .virtual bean site.beanClass site.target m.op.params m.op.result
    (Expr.forwardArgs m.op.params.length)

/-- The failure that the caller gets for one that is not declared. -/
def wrapFailure (failure : Expr) : Expr :=
  let message := Expr.string s!"{m.op} failed"
  if m.isRmi then
    .new Known.remoteException [.string, .named Known.throwable] [message, failure]
  else
    .invoke .virtual (.new Known.ejbException [.string] [message]) Known.throwable "initCause"
      [.named Known.throwable] (.named Known.throwable) [failure]

/-! ### Standard methods -/

/-- Whether there is a variable for the result. -/
def hasResult : Bool := !m.op.result.isVoid

/-- The places of the variables of a standard method. -/
structure Places where
  result : Option Nat
  support : Nat
  failed : Nat
  args : Nat
  bean : Nat
  inFlight : Nat
  postFailure : Nat
  /-- The first place for a variable of a handler. -/
  handlers : Nat

/-- The places of the variables: that of the result, if there is one, is the first. -/
def places : Places :=
  let n := if hasResult m then 1 else 0
  { result := if hasResult m then some 0 else none
    support := n, failed := n + 1, args := n + 2, bean := n + 3
    inFlight := n + 4, postFailure := n + 5, handlers := n + 6 }

/-- The variables besides those of handlers. -/
def vars : List Variable :=
  (if hasResult m then [⟨"rv", m.op.result⟩] else []) ++
    [⟨"s", .named Known.deployedSupport⟩, ⟨"failed", .boolean⟩, ⟨"args", Hook.objects⟩,
      ⟨"bean", .named site.beanClass⟩, ⟨"inFlight", .named Known.throwable⟩,
      ⟨"postFailure", .named Known.throwable⟩]

/-- What comes before the call is announced. -/
def prologue : Block :=
  let p := places m
  (p.result.toList.map fun rv => .assign rv (.zero m.op.result)) ++
    (if site.kind.isEndpoint then
      [.eval (Hook.checkState.invoke site.base
          [idExpr m, .null, .int Hook.businessMethodState]),
        .assign p.support (site.kind.supportExpr site.unit)]
    else [.assign p.support (.new Known.deployedSupport [] [])]) ++
    [.assign p.failed (.bool false)]

/-- Collects the arguments where someone looks at them: the interceptors, or the
    container if it says so. -/
def collectArgs : Block :=
  let p := places m
  let collect := Stmt.assign p.args (Expr.boxedArgs m.op.params)
  .assign p.args .null ::
    (if m.policy.interceptors then [collect]
    else if m.op.params.isEmpty then []
    else [.cond (.isTrue (Hook.needsArguments.invoke site.container [site.base])) [collect] []])

/-- Announces the call, and gives the bean. -/
def announce : Expr :=
  let p := places m
  if site.kind.isEndpoint then
    Hook.endpointPreInvoke.invoke site.base [idExpr m, .var p.args]
  else
    let hook := if site.statelessCreate then Hook.preInvokeStatelessCreate else Hook.preInvoke
    hook.invoke site.container [site.base, idExpr m, .var p.support, .var p.args]

/-- The hook behind the call. -/
def conclude : Expr :=
  if site.kind.isEndpoint then Hook.endpointPostInvoke.invoke site.base []
  else
    let hook := if site.statelessCreate then Hook.postInvokeStatelessCreate else Hook.postInvoke
    hook.invoke site.container [site.base, idExpr m, .var (places m).support]

/-- The call of the interceptors, which call the bean method. -/
def chain : Expr :=
  Hook.invokeChain.invoke site.container [.var (places m).support, .null]

/-- The call itself. -/
def performCall : Stmt :=
  let p := places m
  if m.policy.interceptors then
    match p.result with
    | some rv => .assign rv (Expr.fromObject m.op.result (site.chain m))
    | none => .eval (site.chain m)
  else .keep p.result (site.directCall m (.var p.bean))

/-- What the hook behind the call has to follow on every way out. -/
def guarded : Block :=
  site.collectArgs m ++
    [.assign (places m).bean (.cast (.named site.beanClass) (site.announce m)),
      site.performCall m]

/-- Notes a failure that is not declared. -/
def record (failure : Nat) : Stmt :=
  .eval ((Hook.setUnchecked m.isRmi).invoke (.var (places m).support) [.var failure])

/-- Notes a failure that is not declared, and ends with another. -/
def recordAndThrow (failure : Nat) (e : Expr) : Block :=
  [.assign (places m).failed (.bool true), record m failure, .throw e]

/-- The handlers, in the order of `Failures.handlerTypes`, and one for the rest. -/
def catches : List Catch :=
  (if m.failures.systemUnchecked then
    [.ofClass "runtimeFailure" Known.runtimeException fun e =>
      recordAndThrow m e (wrapFailure m (.var e))]
  else []) ++
  (if m.failures.protocolNative then
    [.ofClass "remoteFailure" Known.remoteException fun e =>
      -- Callers over the remote protocol know its failures as they are.
      recordAndThrow m e (if m.isRmi then .var e else wrapFailure m (.var e))]
  else []) ++
  (m.failures.application.map fun failure =>
    .ofFailure "applicationFailure" failure fun e =>
      [.eval (Hook.setChecked.invoke (.var (places m).support) [.var e]), .throw (.var e)]) ++
  [.all "failure" fun e => recordAndThrow m e (wrapFailure m (.var e))]

/-- What runs on every way out: the hook behind the call, and the container's cleanup if
    the call has failed other than as declared. -/
def epilogue : Block :=
  let p := places m
  let cleanup := Hook.failureCleanup.invoke site.container [.var p.support]
  [.region [.eval (site.conclude m)]
    [⟨none, p.postFailure,
      -- A failure of the hook is noted, but gives way to one that is in flight.
      [record m p.postFailure, .cond (.isNull (.var p.inFlight)) [.throw (.var p.postFailure)] []]⟩]
    (some ⟨none, [.cond (.isTrue (.var p.failed)) [.eval cleanup] []]⟩)]

/-- The body of a standard method. -/
def standardBody : Body :=
  let p := places m
  { vars := site.vars m ++ (catches m).map (·.binding)
    block := site.prologue m ++
      [.region (site.guarded m) (Catch.handlers p.handlers (catches m))
          (some ⟨some p.inFlight, site.epilogue m⟩),
        .ret (p.result.map .var)] }

/-! ### Other methods -/

/-- The body of a method that hands the call over to the container. -/
def asyncBody : Body :=
  let scheduled := Hook.scheduleAsync.invoke site.container
    [site.base, idExpr m, Expr.boxedArgs m.op.params]
  .ofBlock
    (if m.op.result.isVoid then [.eval scheduled, .ret none]
    else if m.op.result.isNamed Known.future then [.ret (some scheduled)]
    else [.ret (some (.cast m.op.result scheduled))])

/-- The context of a managed bean. -/
def managedContext : Expr :=
  .fieldOf site.unit Known.managedContextField Known.beanContext .this

/-- The body of a method of a managed bean, with interceptors or without. -/
def managedBody : Body :=
  if m.policy.interceptors then
    let chain := Hook.invokeChain.invoke site.container [.var 0, .null]
    { vars := [⟨"s", .named Known.deployedSupport⟩, ⟨"args", Hook.objects⟩]
      block :=
        [.assign 0 (.new Known.deployedSupport [] []),
          .assign 1 (Expr.boxedArgs m.op.params),
          .eval (Hook.preInvokeManaged.invoke site.container
            [site.base, idExpr m, .var 0, site.managedContext, .var 1])] ++
        (if m.op.result.isVoid then [.eval chain, .ret none]
        else [.ret (some (Expr.fromObject m.op.result chain))]) }
  else
    let bean := Expr.cast (.named site.beanClass) (Hook.beanInstance.invoke site.managedContext [])
    .ofBlock (Stmt.retCall m.op.result (site.directCall m bean))

/-- The dispatch method for an operation. -/
def method : Method where
  name := m.op.name
  params := m.op.params
  result := m.op.result
  throws := m.op.throws
  body := some
    (if m.policy.asynchronous then site.asyncBody m
    else if site.kind = .managed then site.managedBody m
    else site.standardBody m)
  dispatchId := some m.id

end DispatchSite

end ComponentViews
