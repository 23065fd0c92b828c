import ComponentViews.Execution.Interpreter
import Mathlib

/-!
# Running bodies step by step

What a computation of an environment or of a running method comes to, from a state: its
outcome and the state that it leaves (`Effect.exec`). The lemmas follow the constructors of
expressions and statements. A step that is known to complete or to fail is replaced by what
it leaves, so that a run of a body is worked out from the front.
-/

namespace ComponentViews

namespace Effect

variable {σ α β : Type}

/-- The outcome of a computation from a state, and the state that it leaves. -/
def exec (x : Effect σ α) (s : σ) : Except ObjectRef α × σ := x.run.run s

variable {x : Effect σ α} {k : α → Effect σ β} {s s' : σ} {a : α} {thrown : ObjectRef}

@[simp] theorem exec_pure : exec (pure a : Effect σ α) s = (.ok a, s) := rfl

@[simp] theorem exec_throw : exec (throw thrown : Effect σ α) s = (.error thrown, s) := rfl

@[simp] theorem exec_get : exec (get : Effect σ σ) s = (.ok s, s) := rfl

@[simp] theorem exec_set : exec (set s' : Effect σ PUnit) s = (.ok ⟨⟩, s') := rfl

@[simp] theorem exec_modify {f : σ → σ} :
    exec (modify f : Effect σ PUnit) s = (.ok ⟨⟩, f s) := rfl

/-- The second computation starts where the first has completed. -/
theorem exec_bind_ok (hx : exec x s = (.ok a, s')) : exec (x >>= k) s = exec (k a) s' := by
  have hx : (ExceptT.run x) s = (.ok a, s') := hx
  show (ExceptT.run (x >>= k)) s = _
  rw [ExceptT.run_bind]
  simp only [bind, StateT.bind, hx]
  rfl

/-- A failure of the first computation is that of both. -/
theorem exec_bind_error (hx : exec x s = (.error thrown, s')) :
    exec (x >>= k) s = (.error thrown, s') := by
  have hx : (ExceptT.run x) s = (.error thrown, s') := hx
  show (ExceptT.run (x >>= k)) s = _
  rw [ExceptT.run_bind]
  simp only [bind, StateT.bind, hx]
  rfl

theorem exec_bind : exec (x >>= k) s =
    match exec x s with
    | (.ok a, s') => exec (k a) s'
    | (.error thrown, s') => (.error thrown, s') := by
  rcases hx : exec x s with ⟨_ | _, _⟩
  · exact exec_bind_error hx
  · exact exec_bind_ok hx

end Effect

namespace Run

open Effect

variable {σ α : Type} {f : Frame σ} {e : Effect σ α} {w : σ} {thrown : ObjectRef}

theorem exec_outside {out : Except ObjectRef α} (he : exec e f.world = (out, w)) :
    exec (outside e) f = (out, { f with world := w }) := by
  show (let (result, world) := exec e f.world; (result, { f with world })) = _
  rw [he]

@[simp] theorem exec_setVar {i : Nat} {v : Value} :
    exec (setVar i v : Run σ Unit) f = (.ok (), { f with vars := f.vars.set i v }) := rfl

@[simp] theorem exec_setVar?_none {v : Value} :
    exec (setVar? none v : Run σ Unit) f = (.ok (), f) := rfl

@[simp] theorem exec_setVar?_some {i : Nat} {v : Value} :
    exec (setVar? (some i) v : Run σ Unit) f = (.ok (), { f with vars := f.vars.set i v }) := rfl

theorem exec_outcome {r : Run σ α} : exec (outcome r) f = (.ok (exec r f).1, (exec r f).2) := rfl

@[simp] theorem exec_resume {out : Except ObjectRef α} :
    exec (resume out : Run σ α) f = (out, f) := by
  cases out <;> rfl

end Run

namespace Activation

open Effect

variable {σ : Type} {act : Activation σ} {f f' f'' : Frame σ} {v : Value} {thrown : ObjectRef}

/-! ### Variables -/

/-- A variable that has been set. -/
theorem getD_set {vars : List Value} {i : Nat} {v : Value} (hi : i < vars.length) :
    (vars.set i v).getD i .null = v := by
  simp [List.getD_eq_getElem?_getD, hi]

theorem getD_set_ne {vars : List Value} {i j : Nat} {v : Value} (hij : i ≠ j) :
    (vars.set i v).getD j .null = vars.getD j .null := by
  simp [List.getD_eq_getElem?_getD, hij]

/-! ### Expressions -/

section

attribute [local simp] eval evalReceiver evalAll

@[simp] theorem exec_eval_const {l : Literal} :
    exec (act.eval (.const l)) f = (.ok (.ofLiteral l), f) := by
  simp

@[simp] theorem exec_eval_var {i : Nat} :
    exec (act.eval (.var i)) f = (.ok (f.vars.getD i .null), f) := by
  rw [eval, exec_bind_ok exec_get, exec_pure]

@[simp] theorem exec_eval_this : exec (act.eval .this) f = (.ok (.object act.this), f) := by
  simp

@[simp] theorem exec_eval_arg {i : Nat} :
    exec (act.eval (.arg i)) f = (.ok (act.args.getD i .null), f) := by
  simp

@[simp] theorem exec_eval_classOf {ty : Ty} :
    exec (act.eval (.classOf ty)) f = (.ok (.classOf ty), f) := by
  simp

theorem exec_eval_cast {ty : Ty} {e : Expr} (he : exec (act.eval e) f = (.ok v, f')) :
    exec (act.eval (.cast ty e)) f = exec (act.cast ty v) f' := by
  rw [eval, exec_bind_ok he]

theorem exec_eval_unbox {p : Primitive} {e : Expr} (he : exec (act.eval e) f = (.ok v, f')) :
    exec (act.eval (.unbox p e)) f = exec (act.unbox p v) f' := by
  rw [eval, exec_bind_ok he]

theorem exec_eval_field {r : FieldRef} {e : Expr} {o : ObjectRef}
    (he : exec (act.eval e) f = (.ok (.object o), f')) :
    exec (act.eval (.field r e)) f = exec (Run.outside (act.env.getField o r)) f' := by
  rw [eval, exec_bind_ok he]
  rfl

/-! ### Lists of expressions -/

@[simp] theorem exec_evalAll_nil : exec (act.evalAll []) f = (.ok [], f) := by
  simp

theorem exec_evalAll_cons {e : Expr} {es : List Expr} {vs : List Value}
    (he : exec (act.eval e) f = (.ok v, f')) (hes : exec (act.evalAll es) f' = (.ok vs, f'')) :
    exec (act.evalAll (e :: es)) f = (.ok (v :: vs), f'') := by
  rw [evalAll, exec_bind_ok he, exec_bind_ok hes, exec_pure]

theorem exec_evalAll_cons_error {e : Expr} {es : List Expr}
    (he : exec (act.eval e) f = (.error thrown, f')) :
    exec (act.evalAll (e :: es)) f = (.error thrown, f') := by
  rw [evalAll, exec_bind_error he]

theorem exec_evalAll_singleton {e : Expr} (he : exec (act.eval e) f = (.ok v, f')) :
    exec (act.evalAll [e]) f = (.ok [v], f') :=
  exec_evalAll_cons he exec_evalAll_nil

theorem exec_eval_new {className : String} {params : List Ty} {args : List Expr}
    {vs : List Value} (hes : exec (act.evalAll args) f = (.ok vs, f')) :
    exec (act.eval (.new className params args)) f =
      exec (Run.outside (act.env.create className params vs)) f' := by
  rw [eval, exec_bind_ok hes]

/-! ### Calls -/

theorem exec_eval_call {callee : Callee} {receiver : Expr} {args : List Expr} {vs : List Value}
    (hr : exec (act.eval receiver) f = (.ok v, f'))
    (hes : exec (act.evalAll args) f' = (.ok vs, f'')) :
    exec (act.eval (.call callee (some receiver) args)) f =
      exec (act.invoke callee (some v) vs) f'' := by
  have hreceiver : exec (act.evalReceiver (some receiver)) f = (.ok (some v), f') := by
    rw [evalReceiver, exec_bind_ok hr, exec_pure]
  rw [eval, exec_bind_ok hreceiver, exec_bind_ok hes]

theorem exec_eval_call_static {callee : Callee} {args : List Expr} {vs : List Value}
    (hes : exec (act.evalAll args) f = (.ok vs, f')) :
    exec (act.eval (.call callee none args)) f = exec (act.invoke callee none vs) f' := by
  have hreceiver : exec (act.evalReceiver none) f = (.ok none, f) := by
    rw [evalReceiver, exec_pure]
  rw [eval, exec_bind_ok hreceiver, exec_bind_ok hes]

end

/-- An expression whose operand fails, for the expressions with one operand. -/
theorem exec_eval_cast_error {ty : Ty} {e : Expr} (he : exec (act.eval e) f = (.error thrown, f')) :
    exec (act.eval (.cast ty e)) f = (.error thrown, f') := by
  rw [eval, exec_bind_error he]

theorem exec_eval_call_error {callee : Callee} {receiver : Expr} {args : List Expr}
    (hr : exec (act.eval receiver) f = (.error thrown, f')) :
    exec (act.eval (.call callee (some receiver) args)) f = (.error thrown, f') := by
  have hreceiver : exec (act.evalReceiver (some receiver)) f = (.error thrown, f') := by
    rw [evalReceiver, exec_bind_error hr]
  rw [eval, exec_bind_error hreceiver]

/-- A call whose arguments fail. -/
theorem exec_eval_call_args_error {callee : Callee} {receiver : Expr} {args : List Expr}
    (hr : exec (act.eval receiver) f = (.ok v, f'))
    (hes : exec (act.evalAll args) f' = (.error thrown, f'')) :
    exec (act.eval (.call callee (some receiver) args)) f = (.error thrown, f'') := by
  have hreceiver : exec (act.evalReceiver (some receiver)) f = (.ok (some v), f') := by
    rw [evalReceiver, exec_bind_ok hr, exec_pure]
  rw [eval, exec_bind_ok hreceiver, exec_bind_error hes]

/-! ### Casts and calls of values -/

theorem cast_of_isSubtype {ty : Ty} {o : ObjectRef}
    (ho : act.env.isSubtype o.className ty.name = true) :
    act.cast ty (.object o) = pure (.object o) := by
  rw [cast, if_pos ho, ite_self]

theorem invoke_static {callee : Callee} {args : List Value} :
    act.invoke callee none args = Run.outside (act.env.invoke callee none args) := rfl

/-- A call of a method that the instance itself has. -/
theorem invoke_own {callee : Callee} {o : ObjectRef} {args : List Value}
    {run : List Value → Effect σ Value} (ho : o.id = act.this.id)
    (hown : act.callOwn callee = some run) :
    act.invoke callee (some (.object o)) args = Run.outside (run args) := by
  simp [invoke, ho, hown]

/-- A call of any other method goes to the environment. -/
theorem invoke_outside {callee : Callee} {o : ObjectRef} {args : List Value}
    (hown : o.id = act.this.id → act.callOwn callee = none) :
    act.invoke callee (some (.object o)) args =
      Run.outside (act.env.invoke callee (some (.object o)) args) := by
  simp only [invoke]
  split
  · rename_i ho
    rw [hown ho]
  · rfl

/-! ### Conditions -/

theorem exec_test_isTrue {e : Expr} (he : exec (act.eval e) f = (.ok v, f')) :
    exec (act.test (.isTrue e)) f = (.ok v.isTrue, f') := by
  rw [test, exec_bind_ok he, exec_pure]

theorem exec_test_isFalse {e : Expr} (he : exec (act.eval e) f = (.ok v, f')) :
    exec (act.test (.isFalse e)) f = (.ok (!v.isTrue), f') := by
  rw [test, exec_bind_ok he, exec_pure]

theorem exec_test_isNull {e : Expr} (he : exec (act.eval e) f = (.ok v, f')) :
    exec (act.test (.isNull e)) f = (.ok v.isNull, f') := by
  rw [test, exec_bind_ok he, exec_pure]

theorem exec_test_notNull {e : Expr} (he : exec (act.eval e) f = (.ok v, f')) :
    exec (act.test (.notNull e)) f = (.ok (!v.isNull), f') := by
  rw [test, exec_bind_ok he, exec_pure]

/-! ### Statements -/

section

attribute [local simp] stmt block switchCase firstHandler exitBlock

theorem exec_stmt_assign {i : Nat} {e : Expr} (he : exec (act.eval e) f = (.ok v, f')) :
    exec (act.stmt (.assign i e)) f = (.ok .normal, { f' with vars := f'.vars.set i v }) := by
  rw [stmt, exec_bind_ok he, exec_bind_ok Run.exec_setVar, exec_pure]

theorem exec_stmt_assign_error {i : Nat} {e : Expr}
    (he : exec (act.eval e) f = (.error thrown, f')) :
    exec (act.stmt (.assign i e)) f = (.error thrown, f') := by
  rw [stmt, exec_bind_error he]

theorem exec_stmt_eval {e : Expr} (he : exec (act.eval e) f = (.ok v, f')) :
    exec (act.stmt (.eval e)) f = (.ok .normal, f') := by
  rw [stmt, exec_bind_ok he, exec_pure]

theorem exec_stmt_eval_error {e : Expr} (he : exec (act.eval e) f = (.error thrown, f')) :
    exec (act.stmt (.eval e)) f = (.error thrown, f') := by
  rw [stmt, exec_bind_error he]

theorem exec_stmt_cond {c : Cond} {yes no : Block} {b : Bool}
    (hc : exec (act.test c) f = (.ok b, f')) :
    exec (act.stmt (.cond c yes no)) f = exec (act.block (if b then yes else no)) f' := by
  rw [stmt, exec_bind_ok hc]
  cases b <;> rfl

theorem exec_stmt_switch {key : Expr} {cases : List (Int32 × Block)} {otherwise : Block}
    {k : Int32} (he : exec (act.eval key) f = (.ok (.int k), f')) :
    exec (act.stmt (.switch key cases otherwise)) f =
      exec (act.switchCase k cases (act.block otherwise)) f' := by
  rw [stmt, exec_bind_ok he]

theorem exec_stmt_throw {e : Expr} {o : ObjectRef}
    (he : exec (act.eval e) f = (.ok (.object o), f')) :
    exec (act.stmt (.throw e)) f = (.error o, f') := by
  rw [stmt, exec_bind_ok he, exec_throw]

theorem exec_stmt_throw_error {e : Expr} (he : exec (act.eval e) f = (.error thrown, f')) :
    exec (act.stmt (.throw e)) f = (.error thrown, f') := by
  rw [stmt, exec_bind_error he]

@[simp] theorem exec_stmt_ret_none :
    exec (act.stmt (.ret none)) f = (.ok (.returned .void), f) := by
  simp

theorem exec_stmt_ret {e : Expr} (he : exec (act.eval e) f = (.ok v, f')) :
    exec (act.stmt (.ret (some e))) f = (.ok (.returned v), f') := by
  rw [stmt, exec_bind_ok he, exec_pure]

theorem exec_stmt_ret_error {e : Expr} (he : exec (act.eval e) f = (.error thrown, f')) :
    exec (act.stmt (.ret (some e))) f = (.error thrown, f') := by
  rw [stmt, exec_bind_error he]

/-! ### Blocks -/

@[simp] theorem exec_block_nil : exec (act.block []) f = (.ok .normal, f) := by
  simp

variable {s : Stmt} {rest : Block}

theorem exec_block_normal (hs : exec (act.stmt s) f = (.ok .normal, f')) :
    exec (act.block (s :: rest)) f = exec (act.block rest) f' := by
  rw [block, exec_bind_ok hs]

theorem exec_block_returned (hs : exec (act.stmt s) f = (.ok (.returned v), f')) :
    exec (act.block (s :: rest)) f = (.ok (.returned v), f') := by
  rw [block, exec_bind_ok hs, exec_pure]

theorem exec_block_error (hs : exec (act.stmt s) f = (.error thrown, f')) :
    exec (act.block (s :: rest)) f = (.error thrown, f') := by
  rw [block, exec_bind_error hs]

theorem exec_block_append {first : Block} (hs : exec (act.block first) f = (.ok .normal, f')) :
    exec (act.block (first ++ rest)) f = exec (act.block rest) f' := by
  induction first generalizing f with
  | nil =>
    rw [exec_block_nil] at hs
    cases hs
    rfl
  | cons s first ih =>
    rcases hstep : exec (act.stmt s) f with ⟨thrown | flow, f₁⟩
    · rw [exec_block_error hstep] at hs
      cases hs
    · cases flow with
      | returned v =>
        rw [exec_block_returned hstep] at hs
        cases hs
      | normal =>
        rw [exec_block_normal hstep] at hs
        rw [List.cons_append, exec_block_normal hstep, ih hs]

/-- A block that ends before the statements behind it. -/
theorem exec_block_append_of_ne_normal {first : Block} {out : Except ObjectRef Flow}
    (hs : exec (act.block first) f = (out, f')) (hout : out ≠ .ok .normal) :
    exec (act.block (first ++ rest)) f = (out, f') := by
  induction first generalizing f with
  | nil =>
    rw [exec_block_nil] at hs
    cases hs
    exact absurd rfl hout
  | cons s first ih =>
    rcases hstep : exec (act.stmt s) f with ⟨thrown | flow, f₁⟩
    · rw [exec_block_error hstep] at hs
      rw [List.cons_append, exec_block_error hstep, hs]
    · cases flow with
      | returned v =>
        rw [exec_block_returned hstep] at hs
        rw [List.cons_append, exec_block_returned hstep, hs]
      | normal =>
        rw [exec_block_normal hstep] at hs
        rw [List.cons_append, exec_block_normal hstep, ih hs]

/-- A statement by itself. -/
theorem exec_block_singleton : exec (act.block [s]) f = exec (act.stmt s) f := by
  rcases hs : exec (act.stmt s) f with ⟨thrown | flow, f₁⟩
  · exact exec_block_error hs
  · cases flow with
    | returned v => exact exec_block_returned hs
    | normal => rw [exec_block_normal hs, exec_block_nil]

/-! ### Regions -/

variable {guarded : Run σ Flow} {handlers : List Handler} {flow : Flow}

theorem exec_handle_ok (hg : exec guarded f = (.ok flow, f')) :
    exec (act.handle guarded handlers) f = (.ok flow, f') := by
  rw [handle, Run.guard, exec_bind_ok Run.exec_outcome, hg]
  rfl

theorem exec_handle_error (hg : exec guarded f = (.error thrown, f')) :
    exec (act.handle guarded handlers) f = exec (act.firstHandler thrown handlers) f' := by
  rw [handle, Run.guard, exec_bind_ok Run.exec_outcome, hg]

@[simp] theorem exec_firstHandler_nil :
    exec (act.firstHandler thrown []) f = (.error thrown, f) := by
  simp

/-- A handler that takes the failure. -/
theorem exec_firstHandler_taken {x : Handler} (hx : act.catches x.caught thrown = true) :
    exec (act.firstHandler thrown (x :: handlers)) f =
      exec (act.block x.body) { f with vars := f.vars.set x.binding (.object thrown) } := by
  obtain ⟨caught, binding, body⟩ := x
  rw [firstHandler, if_pos hx, exec_bind_ok Run.exec_setVar]

/-- A handler that lets the failure pass. -/
theorem exec_firstHandler_passed {x : Handler} (hx : act.catches x.caught thrown = false) :
    exec (act.firstHandler thrown (x :: handlers)) f =
      exec (act.firstHandler thrown handlers) f := by
  obtain ⟨caught, binding, body⟩ := x
  have hx : act.catches caught thrown = false := hx
  rw [firstHandler, hx]
  rfl

@[simp] theorem exec_stmt_region {body : Block} {exit : Option ExitBlock} :
    exec (act.stmt (.region body handlers exit)) f =
      exec (act.exitBlock (act.handle (act.block body) handlers) exit) f := by
  simp [handle]

@[simp] theorem exec_exitBlock_none {region : Run σ Flow} :
    exec (act.exitBlock region none) f = exec region f := by
  simp

/-- An exit block that completes leaves the outcome as it is. -/
theorem exec_exitBlock_normal {region : Run σ Flow} {body : Block}
    {out : Except ObjectRef Flow} (hr : exec region f = (out, f'))
    (hb : exec (act.block body) f' = (.ok .normal, f'')) :
    exec (act.exitBlock region (some ⟨none, body⟩)) f = (out, f'') := by
  rw [exitBlock, exec_bind_ok Run.exec_outcome, hr, exec_bind_ok Run.exec_setVar?_none,
    exec_bind_ok hb, Run.exec_resume]

end

end Activation

/-! ### Methods -/

namespace Blueprint

open Effect

variable {σ : Type} {b : Blueprint} {env : Environment σ} {this : ObjectRef} {depth : Nat}
  {m : Method} {args : List Value} {w : σ}

/-- A running method of an instance. -/
def activation (b : Blueprint) (env : Environment σ) (this : ObjectRef) (depth : Nat)
    (args : List Value) : Activation σ where
  env := env
  this := this
  args := args
  callOwn := fun callee => (b.ownMethod? callee).map (b.runMethod env this depth)

/-- What a method returns that ends with an outcome. -/
def resultOf : Except ObjectRef Flow → Except ObjectRef Value
  | .ok .normal => .ok .void
  | .ok (.returned v) => .ok v
  | .error thrown => .error thrown

/-- A method starts with its variables at zero, and ends as its block does. -/
theorem exec_runMethod {body : Body} {out : Except ObjectRef Flow} {f : Frame σ}
    (hbody : m.body = some body)
    (hrun : exec ((b.activation env this depth args).block body.block)
      ⟨body.vars.map fun v => .zero v.type, w⟩ = (out, f)) :
    exec (b.runMethod env this (depth + 1) m args) w = (resultOf out, f.world) := by
  rw [runMethod, hbody]
  show (match exec ((b.activation env this depth args).block body.block)
      ⟨body.vars.map fun v => .zero v.type, w⟩ with
    | (.ok .normal, frame) => (Except.ok Value.void, frame.world)
    | (.ok (.returned v), frame) => (Except.ok v, frame.world)
    | (.error thrown, frame) => (Except.error thrown, frame.world)) = _
  rw [hrun]
  rcases out with thrown | _ | v <;> rfl

end Blueprint

end ComponentViews
