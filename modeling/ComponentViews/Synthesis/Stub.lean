import ComponentViews.Request.Basic
import ComponentViews.Synthesis.Exposure
import ComponentViews.Synthesis.Marshalling
import ComponentViews.WireName.Assign

/-!
# Stubs

A stub stands for a remote object on the caller's side. Its methods go one of two ways:

* where the object is elsewhere, they write the arguments to a request and read the
  result from the reply. A reply of failure begins with an id, by which the declared
  failure that follows is told;
* where the object is within the same program, they call it, but copy what would have
  been passed by value, arguments, result and failures alike.
-/

namespace ComponentViews

/-- An operation with the name by which the protocol knows it. -/
structure RemoteOperation where
  exposed : ExposedOperation
  wire : WireName

namespace Stub

open Marshalling

/-- The places of the variables of a stub's method. -/
def input : Nat := 0
def output : Nat := 1
def applicationFailure : Nat := 2
def failureId : Nat := 3
def remarshal : Nat := 4
def systemFailure : Nat := 5
def servant : Nat := 6
def copies : Nat := 7

variable (h : Hierarchy) (unit : String) (interface : String) (m : RemoteOperation)

/-- The operation that the stub stands for. -/
def op : Operation := m.exposed.op

/-- The name that requests for the operation have. -/
def wireExpr : Expr := .string m.wire.name

/-- Starts over with the same arguments. -/
def retry : Block :=
  Stmt.retCall (op m).result
    (.invoke .virtual .this unit (op m).name (op m).params (op m).result
      (Expr.forwardArgs (op m).params.length))

/-! ### Over the wire -/

/-- Writes the request and reads the reply. -/
def exchange : Block :=
  let request := ofSelf "_request" [.string, .boolean] (.named Known.portableOutputStream)
    [wireExpr m, .bool true]
  let reply := ofSelf "_invoke" [.named Known.portableOutputStream]
    (.named Known.portableInputStream) [.var output]
  .assign output (.cast (.named Known.outputStream) request) ::
    ((op m).params.zipIdx.map fun (ty, i) => .eval (write h ty (.var output) (.arg i))) ++
    [.assign input (.cast (.named Known.inputStream) reply),
      .ret (if (op m).result.isVoid then none else some (read h (op m).result (.var input)))]

/-- Throws the declared failure that a reply tells of, if the id is its own. -/
def throwDeclared (failure : Ty) : Stmt :=
  let isOwn := Expr.invoke .virtual (.var failureId) Known.string "equals" [.object] .boolean
    [.string (Idl.repositoryId failure)]
  .cond (.isTrue isOwn) [.throw (read h failure (.var input))] []

/-- Reads a reply of failure. -/
def readFailure : Block :=
  let stream := Expr.invoke .virtual (.var applicationFailure) Known.applicationException
    "getInputStream" [] (.named Known.portableInputStream) []
  let id := Expr.invoke .virtual (.var input) Known.portableInputStream "read_string" [] .string []
  [.assign input (.cast (.named Known.inputStream) stream), .assign failureId id] ++
    m.exposed.failures.application.map (throwDeclared h) ++
    [.throw (.new Known.unexpectedException [.string] [.var failureId])]

/-- The way over the wire. -/
def remotePath : Block :=
  let releaseReply := ofSelf "_releaseReply" [.named Known.portableInputStream] .void [.var input]
  let mapped := Expr.invokeStatic Known.protocolUtil "mapSystemException"
    [.named Known.systemException] (.named Known.remoteException) [.var systemFailure]
  [.region
    [.assign input .null,
      .region (exchange h m)
        [⟨some Known.applicationException, applicationFailure, readFailure h m⟩,
          ⟨some Known.remarshalException, remarshal, retry unit m⟩]
        (some ⟨none, [.eval releaseReply]⟩)]
    [⟨some Known.systemException, systemFailure, [.throw mapped]⟩]
    none]

/-! ### Within the program -/

/-- The arguments that have to be copied. -/
def copiedArgs : List Nat :=
  ((op m).params.zipIdx.filter fun (ty, _) => h.needsCopy ty).map (·.2)

/-- Several arguments are copied together, by way of a variable. -/
def copiesTogether : Bool := 1 < (copiedArgs h m).length

/-- Copies the arguments if there are several. -/
def copyArgs : Block :=
  if copiesTogether h m then
    [.assign copies (copyObjects (Expr.objectArray ((copiedArgs h m).map .arg)))]
  else []

/-- The argument that the servant gets. -/
def passedArg (ty : Ty) (i : Nat) : Expr :=
  match (copiedArgs h m).idxOf? i with
  | none => .arg i
  | some k =>
    Expr.fromObject ty
      (if copiesTogether h m then .item (.var copies) (Int32.ofNat k) else copyObject (.arg i))

/-- Calls the servant. -/
def callServant : Block :=
  let target := Expr.cast (.named interface)
    (.fieldOf Known.servantObject "servant" Known.object (.var servant))
  let call := Expr.invoke .interface target interface (op m).name (op m).params (op m).result
    ((op m).params.zipIdx.map fun (ty, i) => passedArg h m ty i)
  let result := (op m).result
  copyArgs h m ++
    Stmt.retCall result
      (if !result.isVoid && h.needsCopy result then Expr.fromObject result (copyObject call)
      else call)

/-- The place of a failure of the servant. -/
def servantFailure : Nat := if copiesTogether h m then 8 else 7

/-- The place of its copy. -/
def failureCopy : Nat := servantFailure h m + 1

/-- Passes a failure of the servant on: a declared one as it is, and any other within one
    of the remote protocol. -/
def passFailure : Block :=
  let copy := failureCopy h m
  .assign copy (.cast (.named Known.throwable) (copyObject (.var (servantFailure h m)))) ::
    (m.exposed.failures.application.map fun failure =>
      .cond (.instanceOf (.var copy) failure.name) [.throw (.cast failure (.var copy))] []) ++
    [.throw (.invokeStatic Known.protocolUtil "wrapException" [.named Known.throwable]
      (.named Known.remoteException) [.var copy])]

/-- The way within the program. Where the object has gone in the meantime, the method
    starts over. -/
def localPath : Block :=
  let preInvoke := ofSelf "_servant_preinvoke" [.string, .named Known.classClass]
    (.named Known.servantObject) [wireExpr m, .classOf (.named interface)]
  let postInvoke := ofSelf "_servant_postinvoke" [.named Known.servantObject] .void
    [.var servant]
  [.assign servant preInvoke,
    .cond (.isNull (.var servant)) (retry unit m) [],
    .region (callServant h interface m) [⟨none, servantFailure h m, passFailure h m⟩]
      (some ⟨none, [.eval postInvoke]⟩)]

/-! ### The class -/

/-- The variables of a method of the stub. -/
def vars : List Variable :=
  [⟨"in", .named Known.inputStream⟩, ⟨"out", .named Known.outputStream⟩,
    ⟨"ex", .named Known.applicationException⟩, ⟨"id", .string⟩,
    ⟨"rm", .named Known.remarshalException⟩, ⟨"se", .named Known.systemException⟩,
    ⟨"so", .named Known.servantObject⟩] ++
    (if copiesTogether h m then [⟨"copies", Ty.object.arrayOf⟩] else []) ++
    [⟨"t", .named Known.throwable⟩, ⟨"tc", .named Known.throwable⟩]

/-- The method for an operation. -/
def method : Method :=
  let isLocal := Expr.invokeStatic Known.protocolUtil "isLocal" [.named Known.protocolStub]
    .boolean [.this]
  { Method.ofBody (op m).name (op m).params (op m).result
      { vars := vars h m
        block := [.cond (.isFalse isLocal) (remotePath h unit m) (localPath h unit interface m)] }
    with throws := (op m).throws }

/-- The ids of an interface and of the remote interfaces that it extends. -/
def typeIds (i : Interface) : List String :=
  Idl.interfaceId i.name ::
    (i.parents.filter fun p => p != Known.remote && h.isRemoteInterface p).map Idl.interfaceId

/-- The stub of an interface. -/
def blueprint (i : Interface) (methods : List RemoteOperation) : Blueprint where
  name := stubName i.name
  ancestor := Known.protocolStub
  interfaces := [i.name]
  methods :=
    .constructorOf Known.protocolStub :: idsMethod (typeIds h i) ::
      methods.map (method h (stubName i.name) i.name)

end Stub

end ComponentViews
