import ComponentViews.Execution.Environment
import ComponentViews.Text.Utf16

/-!
# Running blueprints

The methods of a blueprint run on one instance of the class, in an environment.
Calls, fields and new objects are the environment's business, with two exceptions:
calls of the instance's own methods run here, and so do `hashCode` and `equals` of
strings. Own methods may call each other 64 deep.

Running a statement ends normally or with a return, or with a failure. The variables
and the state of the environment keep their changes in any case.
-/

namespace ComponentViews

/-- How a statement that does not fail ends. -/
inductive Flow where
  | normal
  | returned (v : Value)

/-- What a running method can change. -/
structure Frame (σ : Type) where
  /-- The values of the variables. -/
  vars : List Value
  /-- The state of the environment. -/
  world : σ

/-- What a running method cannot change. -/
structure Activation (σ : Type) where
  env : Environment σ
  this : ObjectRef
  args : List Value
  /-- Runs a call on the instance itself, if the class has the method. -/
  callOwn : Callee → Option (List Value → Effect σ Value)

/-- A computation within a running method. -/
abbrev Run (σ α : Type) := Effect (Frame σ) α

namespace Run

variable {σ α : Type}

/-- A computation of the environment within a running method. -/
def outside (e : Effect σ α) : Run σ α :=
  ExceptT.mk fun f =>
    let (result, world) := e.run.run f.world
    (result, { f with world })

/-- Sets a variable; one that is not there stays missing. -/
def setVar (i : Nat) (v : Value) : Run σ Unit :=
  ExceptT.lift (modify fun f => { f with vars := f.vars.set i v })

/-- Puts a value into a variable, if one is named. -/
def setVar? (i : Option Nat) (v : Value) : Run σ Unit :=
  match i with
  | some i => setVar i v
  | none => pure ()

/-- The outcome of a computation, failures included. -/
def outcome (r : Run σ α) : Run σ (Except ObjectRef α) := ExceptT.lift r.run

/-- Runs a guarded computation, and after a failure another one. -/
def guard (guarded : Run σ Flow) (recover : ObjectRef → Run σ Flow) : Run σ Flow := do
  match ← outcome guarded with
  | .ok flow => return flow
  | .error thrown => recover thrown

/-- Ends as an outcome says. -/
def resume : Except ObjectRef α → Run σ α
  | .ok a => pure a
  | .error thrown => throw thrown

end Run

namespace Activation

variable {σ α : Type} (act : Activation σ)

/-- Throws a new failure of a class. -/
def fail (className : String) : Run σ α := Run.outside (act.env.fail className)

/-- The object that a value refers to. -/
def dereference : Value → Run σ ObjectRef
  | .object o => pure o
  | .null => act.fail Known.nullPointerException
  | _ => act.fail Known.classCastException

/-- A value as one of a type. Objects know no more than the type they were made up
    for, so that a cast to a subtype narrows them. -/
def cast (ty : Ty) : Value → Run σ Value
  | .object o =>
    if ty.isArray then pure (.object o)
    else if act.env.isSubtype o.className ty.name then pure (.object o)
    else if act.env.isSubtype ty.name o.className then pure (.object ⟨o.id, ty.name⟩)
    else act.fail Known.classCastException
  | v => pure v

/-- The primitive value in an object; made-up objects hold zero. -/
def unbox (p : Primitive) (v : Value) : Run σ Value :=
  match v with
  | .null => act.fail Known.nullPointerException
  | v => pure (if v.isPrimitive then v else .zero (.ofPrimitive p))

/-- An item of an array. -/
def item (v : Value) (i : Int32) : Run σ Value :=
  match v with
  | .array items =>
    match (if i < 0 then none else items[i.toInt.toNat]?) with
    | some v => pure v
    | none => act.fail Known.indexOutOfBounds
  | .null => act.fail Known.nullPointerException
  | _ => act.fail Known.classCastException

/-- A call whose receiver and arguments have been evaluated. -/
def invoke (callee : Callee) (receiver : Option Value) (args : List Value) : Run σ Value :=
  let outside := Run.outside (act.env.invoke callee receiver args)
  match receiver with
  | some .null => act.fail Known.nullPointerException
  | some (.string s) =>
    if callee.name = "hashCode" then pure (.int (Utf16.hash s))
    else if callee.name = "equals" then
      pure (.bool ((args.head?.map (Value.equal (.string s))).getD false))
    else outside
  | some (.object o) =>
    -- The number tells the instance; a cast may have changed the class.
    if o.id = act.this.id then
      match act.callOwn callee with
      | some run => Run.outside (run args)
      | none => outside
    else outside
  | _ => outside

/-! ### Expressions -/

mutual

/-- The value of an expression. What it consists of is evaluated from left to right. -/
def eval : Expr → Run σ Value
  | .const l => pure (.ofLiteral l)
  | .var i => return (← get).vars.getD i .null
  | .this => pure (.object act.this)
  | .arg i => pure (act.args.getD i .null)
  | .field f target => do
    let o ← act.dereference (← eval target)
    Run.outside (act.env.getField o f)
  | .new className params args => do
    let args ← evalAll args
    Run.outside (act.env.create className params args)
  | .array _ items => return .array (← evalAll items)
  | .item array i => do act.item (← eval array) i
  | .classOf ty => pure (.classOf ty)
  | .box e => eval e
  | .unbox p e => do act.unbox p (← eval e)
  | .cast ty e => do act.cast ty (← eval e)
  | .call callee receiver args => do
    let receiver ← evalReceiver receiver
    act.invoke callee receiver (← evalAll args)

/-- The receiver of a call, if it has one. -/
def evalReceiver : Option Expr → Run σ (Option Value)
  | none => pure none
  | some e => return some (← eval e)

/-- The values of expressions, from left to right. -/
def evalAll : List Expr → Run σ (List Value)
  | [] => pure []
  | e :: rest => do
    let v ← eval e
    return v :: (← evalAll rest)

end

/-- Whether a condition holds. -/
def test : Cond → Run σ Bool
  | .isTrue e => return (← act.eval e).isTrue
  | .isFalse e => return !(← act.eval e).isTrue
  | .isNull e => return (← act.eval e).isNull
  | .notNull e => return !(← act.eval e).isNull
  | .instanceOf e className => do
    match (← act.eval e).className? with
    | some actual => return act.env.isSubtype actual className
    | none => return false
  | .same a b => do
    let a ← act.eval a
    return a.same (← act.eval b)

/-! ### Statements -/

/-- Whether a handler for `caught` takes a failure. -/
def catches (caught : Option String) (thrown : ObjectRef) : Bool :=
  match caught with
  | none => true
  | some className => act.env.isSubtype thrown.className className

mutual

/-- Executes a statement. -/
def stmt : Stmt → Run σ Flow
  | .assign i e => do
    Run.setVar i (← act.eval e)
    return .normal
  | .setField f target value => do
    let o ← act.dereference (← act.eval target)
    let v ← act.eval value
    Run.outside (act.env.setField o f v)
    return .normal
  | .eval e => do
    let _ ← act.eval e
    return .normal
  | .cond c yes no => do if ← act.test c then block yes else block no
  | .switch key cases otherwise => do
    match ← act.eval key with
    | .int k => switchCase k cases (block otherwise)
    | _ => act.fail Known.classCastException
  | .throw e => do
    match ← act.eval e with
    | .object o => throw o
    | .null => act.fail Known.nullPointerException
    | _ => act.fail Known.classCastException
  | .ret none => return .returned .void
  | .ret (some e) => return .returned (← act.eval e)
  | .region body handlers exit =>
    exitBlock (Run.guard (block body) fun thrown => firstHandler thrown handlers) exit

/-- Executes statements until one of them returns. -/
def block : Block → Run σ Flow
  | [] => return .normal
  | s :: rest => do
    match ← stmt s with
    | .normal => block rest
    | .returned v => return .returned v

/-- The case of a key, or `otherwise`. -/
def switchCase (key : Int32) : List (Int32 × Block) → Run σ Flow → Run σ Flow
  | [], otherwise => otherwise
  | (k, body) :: rest, otherwise =>
    if k = key then block body else switchCase key rest otherwise

/-- The first handler that takes a failure, or the failure. -/
def firstHandler (thrown : ObjectRef) : List Handler → Run σ Flow
  | [] => throw thrown
  | ⟨caught, binding, body⟩ :: rest =>
    if act.catches caught thrown then do
      Run.setVar binding (.object thrown)
      block body
    else firstHandler thrown rest

/-- Runs a region up to its exit, and then the exit. -/
def exitBlock (region : Run σ Flow) : Option ExitBlock → Run σ Flow
  | none => region
  | some ⟨inFlight, body⟩ => do
    let outcome ← Run.outcome region
    Run.setVar? inFlight (match outcome with
      | .ok _ => .null
      | .error thrown => .object thrown)
    -- A return or a failure of the exit block takes the place of the outcome.
    match ← block body with
    | .normal => Run.resume outcome
    | .returned v => return .returned v

end

/-- Runs a guarded computation, and the first handler that takes its failure. -/
def handle (guarded : Run σ Flow) (handlers : List Handler) : Run σ Flow :=
  Run.guard guarded fun thrown => act.firstHandler thrown handlers

end Activation

/-! ### Methods -/

namespace Blueprint

variable {σ : Type}

/-- The method that a call on an instance of the class itself reaches; calls of a
    superclass's method pass it by. -/
def ownMethod? (b : Blueprint) (callee : Callee) : Option Method :=
  if callee.kind = .special ∧ callee.owner ≠ b.name then none
  else (b.find? callee.name callee.params).filter (·.body.isSome)

/-- Runs a method on an instance; own methods may be entered `depth` deep. -/
def runMethod (b : Blueprint) (env : Environment σ) (this : ObjectRef) :
    (depth : Nat) → Method → (args : List Value) → Effect σ Value
  | depth, m, args =>
    match m.body with
    | none => env.fail Known.abstractMethodError
    | some body =>
      match depth with
      | 0 => env.fail Known.stackOverflowError
      | depth + 1 =>
        let act : Activation σ :=
          { env, this, args
            callOwn := fun callee => (b.ownMethod? callee).map (b.runMethod env this depth) }
        ExceptT.mk fun world =>
          let frame := ⟨body.vars.map fun v => .zero v.type, world⟩
          match (act.block body.block).run.run frame with
          | (.ok .normal, frame) => (.ok .void, frame.world)
          | (.ok (.returned v), frame) => (.ok v, frame.world)
          | (.error thrown, frame) => (.error thrown, frame.world)

/-- How deep own methods may call each other. -/
def maxDepth : Nat := 64

/-- Runs a method on an instance. -/
def run (b : Blueprint) (env : Environment σ) (this : ObjectRef) (m : Method)
    (args : List Value) : Effect σ Value :=
  b.runMethod env this maxDepth m args

/-- Runs the first method of a name that has a body. -/
def call (b : Blueprint) (env : Environment σ) (this : ObjectRef) (name : String)
    (args : List Value) : Effect σ Value :=
  match b.methods.find? fun m => m.name == name && m.body.isSome with
  | some m => b.run env this m args
  | none => env.fail Known.abstractMethodError

end Blueprint

end ComponentViews
