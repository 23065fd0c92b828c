import ComponentViews.Execution.Interpreter
import ComponentViews.Hierarchy.Standard
import ComponentViews.Text.Affix

/-!
# The loopback environment

An environment that joins a stub to a skeleton within one program. What the stub
writes to a request stream is what the skeleton reads, and the other way round for
the reply; the calls that the skeleton makes on its target go to a *servant*.

Values that are passed by value are copied when they are written, references to remote
objects are not. Where stub and servant are *colocated* the stub calls the servant
directly and copies what it passes itself.
-/

namespace ComponentViews

/-- The implementation behind a skeleton: the value a call gives, or the class of the
    failure it ends with. -/
abbrev Servant := (method : String) → (args : List Value) → Except String Value

/-- What stays the same while calls go back and forth. -/
structure Link where
  hierarchy : Hierarchy
  skeleton : Blueprint
  servant : Servant
  /-- The stub may call the servant directly. -/
  colocated : Bool

/-- The state of a loopback environment. -/
structure Loopback where
  heap : Heap := {}
  /-- The instance of the skeleton, once there is one. -/
  tie : Option ObjectRef := none
  /-- The object that the skeleton calls, once there is one. -/
  target : Option ObjectRef := none
  /-- What has been written to each stream and not yet been read. -/
  streams : List (Nat × List Value) := []
  /-- The operation for which each request stream was opened. -/
  operations : List (Nat × String) := []
  /-- The streams that carry the reply of a failed call. -/
  failureReplies : List Nat := []
  /-- The operations that the skeleton was asked for, the latest first. -/
  requestsReversed : List String := []
  /-- The arguments that the servant got, the latest call first. -/
  receivedReversed : List (List Value) := []

namespace Loopback

/-- The names of the requests, the first one first. -/
def requests (l : Loopback) : List String := l.requestsReversed.reverse

/-- The arguments that the servant has been called with, the first call first. -/
def received (l : Loopback) : List (List Value) := l.receivedReversed.reverse

/-- Something that the store does. -/
def onHeap {α : Type} (f : Heap → α × Heap) : Effect Loopback α :=
  ExceptT.lift fun l =>
    let (a, heap) := f l.heap
    (a, { l with heap })

/-- Sets a slot of an object. -/
def setSlot (target : ObjectRef) (name : String) (value : Value) : Effect Loopback Unit :=
  onHeap fun h => ((), h.setSlot target name value)

/-- Copies a value with all that it refers to. -/
def copy (value : Value) : Effect Loopback Value := onHeap (·.copy value)

/-- The first of the arguments, copied. -/
def copyFirst (args : List Value) : Effect Loopback Value :=
  match args with
  | [] => return .null
  | value :: _ => copy value

/-- Ends with a new failure of a class. -/
def failWith {α : Type} (className : String) : Effect Loopback α := do
  throw (← onHeap (·.allocate className))

/-! ### Streams -/

/-- A new stream with the given contents. -/
def openStream (className : String) (contents : List Value) : Effect Loopback ObjectRef := do
  let stream ← onHeap (·.allocate className)
  modify fun l => { l with streams := (stream.id, contents) :: l.streams }
  return stream

/-- Takes a stream away and gives what it held. -/
def closeStream (stream : ObjectRef) : Effect Loopback (List Value) := do
  let l ← get
  set { l with streams := l.streams.filter (·.1 != stream.id) }
  return (l.streams.lookup stream.id).getD []

/-- The contents of the stream that a value refers to. -/
def contents? (l : Loopback) (stream : Option Value) : Option (Nat × List Value) := do
  let o ← stream.bind Value.object?
  return (o.id, ← l.streams.lookup o.id)

/-- Changes the contents of a stream. -/
def setContents (id : Nat) (contents : List Value) : Effect Loopback Unit :=
  modify fun l => { l with streams := (id, contents) :: l.streams.filter (·.1 != id) }

/-- Writes a value to a stream. -/
def push (stream : Option Value) (value : Value) : Effect Loopback Value := do
  match (← get).contents? stream with
  | some (id, contents) =>
    setContents id (contents ++ [value])
    return .void
  | none => failWith Known.marshal

/-- Reads the next value of a stream. -/
def pop (stream : Option Value) : Effect Loopback Value := do
  match (← get).contents? stream with
  | some (id, value :: rest) =>
    setContents id rest
    return value
  | _ => failWith Known.marshal

/-! ### Calls -/

/-- The object that the skeleton calls. -/
def targetObject (ty : Ty) : Effect Loopback ObjectRef := do
  match (← get).target with
  | some o => return o
  | none =>
    let o ← onHeap (·.allocate ty.name)
    modify fun l => { l with target := some o }
    return o

/-- The instance of the skeleton. -/
def tieObject (link : Link) : Effect Loopback ObjectRef := do
  match (← get).tie with
  | some o => return o
  | none =>
    let o ← onHeap (·.allocate link.skeleton.name)
    modify fun l => { l with tie := some o }
    return o

/-- Hands a call to the servant. -/
def serve (link : Link) (method : String) (args : List Value) : Effect Loopback Value := do
  modify fun l => { l with receivedReversed := args :: l.receivedReversed }
  match link.servant method args with
  | .ok value => return value
  | .error className => failWith className

/-- Makes a reply of the skeleton the stream that the stub reads. The reply of a failed call
    comes as a failure with the stream in it. -/
def deliver (reply : Value) : Effect Loopback Value := do
  match reply.object? with
  | none => failWith Known.marshal
  | some reply =>
    let contents ← closeStream reply
    let stream ← openStream Known.portableInputStream contents
    let l ← get
    if l.failureReplies.contains reply.id then
      set { l with failureReplies := l.failureReplies.filter (· != reply.id) }
      let failure ← onHeap (·.allocate Known.applicationException)
      setSlot failure "stream" (.object stream)
      throw failure
    else return .object stream

/-- Hands a request stream to the skeleton, which `inner` is the environment of. -/
def exchange (link : Link) (inner : Environment Loopback) (request : Option Value) :
    Effect Loopback Value := do
  match request.bind Value.object? with
  | none => failWith Known.marshal
  | some out =>
    let operation := ((← get).operations.lookup out.id).getD ""
    modify fun l => { l with operations := l.operations.filter (·.1 != out.id) }
    let payload ← closeStream out
    modify fun l => { l with requestsReversed := operation :: l.requestsReversed }
    let input ← openStream Known.inputStream payload
    let handler ← onHeap (·.allocate Known.responseHandler)
    let tie ← tieObject link
    -- A failure of the skeleton reaches the stub as it is.
    deliver (← link.skeleton.call inner tie "_invoke"
      [.string operation, .object input, .object handler])

/-- Answers a call that is not made on the target. `ask` carries a request to the
    skeleton. -/
def answer (link : Link) (ask : Option Value → Effect Loopback Value) (callee : Callee)
    (receiver : Option Value) (args : List Value) : Effect Loopback Value :=
  let second := args[1]?.getD .null
  match callee.name with
  | "isLocal" => return .bool link.colocated
  | "_request" => do
    let out ← openStream Known.portableOutputStream []
    if let some (.string operation) := args.head? then
      modify fun l => { l with operations := (out.id, operation) :: l.operations }
    return .object out
  | "_invoke" => ask args.head?
  | "createReply" => do return .object (← openStream Known.outputStream [])
  | "createExceptionReply" => do
    let out ← openStream Known.outputStream []
    modify fun l => { l with failureReplies := out.id :: l.failureReplies }
    return .object out
  | "getInputStream" =>
    match receiver.bind Value.object? with
    | some failure => onHeap (·.readSlot failure "stream" (.named Known.portableInputStream))
    | none => failWith Known.marshal
  | "writeAny" => do push args.head? (← copy second)
  -- A remote object goes by reference, and is not copied.
  | "writeRemoteObject" => push args.head? second
  | "write_value" => do push receiver (← copyFirst args)
  | "readAny" => pop args.head?
  | "narrow" => return args.head?.getD .null
  | "copyObject" | "copyObjects" => copyFirst args
  | "mapSystemException" | "wrapException" => do
    return .object (← onHeap (·.allocate Known.remoteException))
  | name =>
    if Text.startsWith "write_" name then push receiver (args.head?.getD .null)
    else if Text.startsWith "read_" name then pop receiver
    else onHeap (·.fabricate callee.result)

/-- Answers a call. What is called on the target is the servant's, whatever its name. -/
def invoke (link : Link) (ask : Option Value → Effect Loopback Value) (callee : Callee)
    (receiver : Option Value) (args : List Value) : Effect Loopback Value := do
  let receiver? := receiver.bind Value.object?
  if receiver?.isSome && receiver?.map (·.id) == (← get).target.map (·.id) then
    serve link callee.name args
  else answer link ask callee receiver args

/-- A new object; a string that comes first is a failure's message. -/
def create (className : String) (args : List Value) : Effect Loopback Value := do
  let o ← onHeap (·.allocate className)
  if let some (.string s) := args.head? then setSlot o "message" (.string s)
  return .object o

/-- Reads a field. The target of the skeleton, and the servant that a stub finds next
    to itself, are the object that the servant is called through. -/
def getField (link : Link) (target : ObjectRef) (f : FieldRef) : Effect Loopback Value := do
  let isTarget := (f.owner == link.skeleton.name && f.name == Known.tieTargetField) ||
    (f.owner == Known.servantObject && f.name == "servant")
  if isTarget then return .object (← targetObject f.type)
  else onHeap (·.readSlot target f.name f.type)

/-- The loopback environment in which `ask` carries requests to the skeleton. -/
def environmentWith (link : Link) (ask : Option Value → Effect Loopback Value) :
    Environment Loopback where
  allocate := fun className l =>
    let (o, heap) := l.heap.allocate className
    (o, { l with heap })
  create className _ args := create className args
  invoke := invoke link ask
  getField := getField link
  setField target f value := setSlot target f.name value
  isSubtype := link.hierarchy.isSubtype

/-- The loopback environment in which one request may lead to another, `depth` deep. -/
def environment (link : Link) : (depth : Nat) → Environment Loopback
  | 0 => environmentWith link fun _ => failWith Known.marshal
  | depth + 1 => environmentWith link (exchange link (environment link depth))

end Loopback

end ComponentViews
