import ComponentViews.Execution.Environment
import ComponentViews.Hierarchy.Standard

/-!
# The recording environment

An environment that notes every call and answers it with a made-up value of the
declared type. A script names methods that fail instead, or that return a given
value.
-/

namespace ComponentViews

/-- A call that left the running class. -/
structure RecordedCall where
  owner : String
  name : String
  args : List Value

/-- What a recording environment does with calls, by the name of the method. -/
structure Script where
  hierarchy : Hierarchy
  /-- The classes of the failures thrown. -/
  failures : List (String × String) := []
  /-- The values returned. -/
  returns : List (String × Value) := []

/-- The state of a recording environment. -/
structure Recorder where
  heap : Heap := {}
  /-- The calls so far, the latest first. -/
  callsReversed : List RecordedCall := []

namespace Recorder

/-- The calls, the first one first. -/
def calls (r : Recorder) : List RecordedCall := r.callsReversed.reverse

/-- Something that the store does. -/
def onHeap {α : Type} (f : Heap → α × Heap) : StateM Recorder α :=
  fun r =>
    let (a, heap) := f r.heap
    (a, { r with heap })

/-- Sets a slot of an object. -/
def setSlot (target : ObjectRef) (name : String) (value : Value) : StateM Recorder Unit :=
  onHeap fun h => ((), h.setSlot target name value)

/-- Notes the arguments of a failure's constructor: a string as its message and an
    object as its cause. -/
def setThrowableSlots (o : ObjectRef) : List Value → StateM Recorder Unit
  | [] => return ()
  | .string s :: rest => do
    setSlot o "message" (.string s)
    setThrowableSlots o rest
  | .object cause :: rest => do
    setSlot o "cause" (.object cause)
    setThrowableSlots o rest
  | _ :: rest => setThrowableSlots o rest

/-- Creates an object; a throwable one gets its message and its cause. -/
def create (script : Script) (className : String) (args : List Value) :
    Effect Recorder Value :=
  ExceptT.lift do
    let o ← onHeap (·.allocate className)
    if script.hierarchy.isThrowable className then setThrowableSlots o args
    return .object o

/-- Answers a call. `initCause` of a throwable notes the cause and gives the throwable
    back. -/
def invoke (script : Script) (callee : Callee) (receiver : Option Value) (args : List Value) :
    Effect Recorder Value := do
  ExceptT.lift (modify fun r =>
    { r with callsReversed := ⟨callee.owner, callee.name, args⟩ :: r.callsReversed })
  match script.failures.lookup callee.name with
  | some className => throw (← ExceptT.lift (onHeap (·.allocate className)))
  | none =>
    match script.returns.lookup callee.name with
    | some value => return value
    | none =>
      match receiver, args with
      | some (.object target), cause :: _ =>
        if callee.name = "initCause" ∧ callee.owner = Known.throwable then
          ExceptT.lift (setSlot target "cause" cause)
          return .object target
        else ExceptT.lift (onHeap (·.fabricate callee.result))
      | _, _ => ExceptT.lift (onHeap (·.fabricate callee.result))

/-- The recording environment of a script. -/
def environment (script : Script) : Environment Recorder where
  allocate className := onHeap (·.allocate className)
  create className _ args := create script className args
  invoke := invoke script
  getField target f := ExceptT.lift (onHeap (·.readSlot target f.name f.type))
  setField target f value := ExceptT.lift (setSlot target f.name value)
  isSubtype := script.hierarchy.isSubtype

end Recorder

end ComponentViews
