import ComponentViews.Synthesis.Stub
import ComponentViews.Text.Utf16

/-!
# Skeletons

A skeleton stands before a remote object on its own side. It is asked for an operation by
name, with a stream of arguments, and answers with a stream. The name is looked up by its
hash first, and then compared with each name of that hash.

For each operation there is a *handler*, which reads the arguments, calls the object and
writes the result, or a declared failure behind its id. Any other failure leaves the
handler as it is.
-/

namespace ComponentViews

namespace Skeleton

open Marshalling

/-- The name of the handler for an operation. -/
def handlerName (wire : String) : String := "_op_" ++ wire

/-- An operation with the interface that declares it. -/
structure Served where
  interface : String
  operation : RemoteOperation

variable (h : Hierarchy) (unit target : String)

/-- The object behind the skeleton, known by the interface `target`. -/
def targetExpr : Expr := .fieldOf unit Known.tieTargetField target .this

/-! ### The members of every skeleton -/

/-- The members by which a skeleton is tied to its servant. -/
def tieMembers : List Method :=
  let remote := Ty.named Known.remote
  let orb := Ty.named Known.orb
  let object := Ty.named Known.corbaObject
  let ofBlock (name : String) (params : List Ty) (result : Ty) (block : Block) : Method :=
    .ofBody name params result (.ofBlock block)
  [ofBlock "setTarget" [remote] .void
      [.setField ⟨unit, Known.tieTargetField, .named target⟩ .this (.cast (.named target) (.arg 0)),
        .ret none],
    ofBlock "getTarget" [] remote [.ret (some (targetExpr unit target))],
    ofBlock "thisObject" [] object [.ret (some .this)],
    ofBlock "deactivate" [] .void
      [.eval (.invoke .virtual broker Known.orb "disconnect" [object] .void [.this]), .ret none],
    ofBlock "orb" [] orb [.ret (some broker)],
    ofBlock "orb" [orb] .void
      [.eval (.invoke .virtual (.arg 0) Known.orb "connect" [object] .void [.this]), .ret none]]

/-! ### Looking up operations -/

/-- The handler for each name. A name that several operations have belongs to the first,
    and an alias gives way to any name. -/
def routes (methods : List Served) : Table String :=
  let byName := methods.foldl (fun t m =>
    t.insertIfNew m.operation.wire.name (handlerName m.operation.wire.name)) ∅
  methods.foldl (fun t m =>
    match m.operation.wire.altName with
    | some name => t.insertIfNew name (handlerName m.operation.wire.name)
    | none => t) byName

/-- Names with the handlers that they lead to, sorted by hash. -/
abbrev Buckets := List (Int32 × List (String × String))

/-- Adds a name to those of its hash. -/
def addToBucket (hash : Int32) (route : String × String) : Buckets → Buckets
  | [] => [(hash, [route])]
  | (k, routes) :: rest =>
    if hash < k then (hash, [route]) :: (k, routes) :: rest
    else if hash = k then (k, routes ++ [route]) :: rest
    else (k, routes) :: addToBucket hash route rest

/-- The names that are routed, in buckets of one hash each. -/
def buckets (routes : Table String) : Buckets :=
  routes.entries.foldl (fun bs route => addToBucket (Utf16.hash route.1) route bs) []

/-- The places of the variables. -/
def input : Nat := 0
def systemFailure : Nat := 1
def failure : Nat := 2

/-- Runs the handler if the operation has the name. -/
def tryRoute (route : String × String) : Stmt :=
  let isAsked := Expr.invoke .virtual (.arg 0) Known.string "equals" [.object] .boolean
    [.string route.1]
  let answer := Expr.invoke .special .this unit route.2
    [.named Known.inputStream, .named Known.responseHandler] (.named Known.outputStream)
    [.var input, .arg 2]
  .cond (.isTrue isAsked) [.ret (some answer)] []

/-- The method that is asked for operations. -/
def invokeMethod (routes : Table String) : Method :=
  let hash := Expr.invoke .virtual (.arg 0) Known.string "hashCode" [] .int []
  let cases := (buckets routes).map fun (k, routes) => (k, routes.map (tryRoute unit))
  let body : Body :=
    { vars := [⟨"in", .named Known.inputStream⟩, ⟨"ex", .named Known.systemException⟩,
        ⟨"t", .named Known.throwable⟩]
      block :=
        [.assign input (.cast (.named Known.inputStream) (.arg 1)),
          -- A case that no name of its hash fits runs into the failure behind the switch.
          .region [.switch hash cases [], .throw (.new Known.badOperation [] [])]
            [⟨some Known.systemException, systemFailure, [.throw (.var systemFailure)]⟩,
              ⟨none, failure, [.throw (.new Known.unknownException [.named Known.throwable]
                [.var failure])]⟩]
            none] }
  { Method.ofBody "_invoke"
      [.string, .named Known.portableInputStream, .named Known.responseHandler]
      (.named Known.portableOutputStream) body with
    throws := [.named Known.systemException] }

/-! ### Handlers -/

/-- The places of the variables of a handler. -/
def output : Nat := 0
/-- The variable for the result of the servant. -/
def result : Nat := 1

/-- A stream for the answer. -/
def replyExpr (kind : String) : Expr :=
  .cast (.named Known.outputStream)
    (.invoke .interface (.arg 1) Known.responseHandler kind [] (.named Known.portableOutputStream)
      [])

/-- Calls the object and answers with the result. -/
def answer (m : Served) : Block :=
  let op := m.operation.exposed.op
  let call := Expr.invoke .interface (.cast (.named m.interface) (targetExpr unit target))
    m.interface op.name op.params op.result (op.params.map fun ty => read h ty (.arg 0))
  let reply := Stmt.assign output (replyExpr "createReply")
  (if op.result.isVoid then [.eval call, reply]
  else [.assign result call, reply, .eval (write h op.result (.var output) (.var result))]) ++
    [.ret (some (.var output))]

/-- Answers with a declared failure. -/
def answerFailure (failure : Ty) : Catch :=
  let writeId := Expr.invoke .virtual (.var output) Known.portableOutputStream "write_string"
    [.string] .void [.string (Idl.repositoryId failure)]
  .ofFailure "e" failure fun e =>
    [.assign output (replyExpr "createExceptionReply"),
      .eval writeId,
      .eval (write h failure (.var output) (.var e)),
      .ret (some (.var output))]

/-- The handler for an operation. -/
def handler (m : Served) : Method :=
  let op := m.operation.exposed.op
  let catches := m.operation.exposed.failures.application.map (answerFailure h)
  let vars : List Variable := ⟨"out", .named Known.outputStream⟩ ::
    (if op.result.isVoid then [] else [⟨"result", op.result⟩])
  let block := answer h unit target m
  { name := handlerName m.operation.wire.name
    params := [.named Known.inputStream, .named Known.responseHandler]
    result := .named Known.outputStream
    throws := [.named Known.throwable]
    access := Modifiers.privateBit
    body := some
      { vars := vars ++ catches.map (·.binding)
        block :=
          if catches.isEmpty then block
          else [.region block (Catch.handlers vars.length catches) none] } }

/-! ### The class -/

/-- Adds an operation to those served, unless one has the same name on the wire. -/
def addServed (served : List Served) (m : Served) : List Served :=
  if served.any (·.operation.wire.name == m.operation.wire.name) then served else served ++ [m]

/-- The ids of the interfaces served. -/
def typeIds (methods : List Served) : List String :=
  (methods.map (·.interface)).foldl (fun ids i =>
    if Idl.interfaceId i ∈ ids then ids else ids ++ [Idl.interfaceId i]) [Idl.interfaceId target]

/-- The skeleton for operations of remote interfaces, of which `target` is the first. -/
def blueprint (methods : List Served) : Blueprint where
  name := unit
  ancestor := Known.objectImpl
  interfaces := [Known.protocolTie]
  fields := [⟨Known.tieTargetField, .named target, Modifiers.privateBit⟩]
  methods :=
    .constructorOf Known.objectImpl :: tieMembers unit target ++
      [idsMethod (typeIds target methods), invokeMethod unit (routes methods)] ++
      (methods.foldl addServed []).map (handler h unit target)

end Skeleton

end ComponentViews
