import ComponentViews.Proofs.Execution.Effect

/-!
# Logs of calls

An environment keeps a *log* if each call that leaves the running class adds one event to it,
with how the call ended, and nothing else changes it (`Environment.Logs`). Every environment
can be made to keep one (`Environment.logged`).

* `Activation.calls_eval`: the calls that an expression makes are among those that it
  mentions (`Expr.callees`), and its evaluation changes no variable;
* `Activation.exec_invoke_events`: a call is one event at most, with its outcome;
* `Activation.Steps`: what statements call and which variables they change, in the same way;
* `Activation.PassesOn`: a run without handlers ends with the failure of a call that it makes.

Own methods of the instance are out of the picture: what is said of a call holds where the
instance has no such method, or where the receiver is another object.
-/

namespace ComponentViews

open Effect

/-- A call that left the running class, and how it ended. -/
structure CallEvent where
  callee : Callee
  receiver : Option Value
  args : List Value
  outcome : Except ObjectRef Value

/-- The call has returned. -/
def CallEvent.Returned (e : CallEvent) : Prop := ∃ v, e.outcome = .ok v

theorem CallEvent.Returned.outcome_ne {e : CallEvent} {thrown : ObjectRef} (he : e.Returned) :
    e.outcome ≠ .error thrown := by
  obtain ⟨v, hv⟩ := he
  simp [hv]

/-! ### Environments that keep a log -/

namespace Environment

variable {σ : Type}

/-- A part of the state holds the calls so far, in order. -/
structure Logs (env : Environment σ) (log : σ → List CallEvent) : Prop where
  allocate : ∀ className w, log (env.allocate className w).2 = log w
  create : ∀ className params args w, log (exec (env.create className params args) w).2 = log w
  getField : ∀ o f w, log (exec (env.getField o f) w).2 = log w
  invoke : ∀ callee receiver args w, log (exec (env.invoke callee receiver args) w).2 =
    log w ++ [⟨callee, receiver, args, (exec (env.invoke callee receiver args) w).1⟩]

/-- A computation beside which a log stays as it is. -/
def beside {α : Type} (x : Effect σ α) : Effect (σ × List CallEvent) α :=
  ExceptT.mk fun s => ((exec x s.1).1, ((exec x s.1).2, s.2))

/-- The environment with a log in its state. -/
def logged (env : Environment σ) : Environment (σ × List CallEvent) where
  allocate className := fun s =>
    ((env.allocate className s.1).1, ((env.allocate className s.1).2, s.2))
  create className params args := beside (env.create className params args)
  invoke callee receiver args := ExceptT.mk fun s =>
    let (out, w) := exec (env.invoke callee receiver args) s.1
    (out, (w, s.2 ++ [⟨callee, receiver, args, out⟩]))
  getField o f := beside (env.getField o f)
  setField o f v := beside (env.setField o f v)
  isSubtype := env.isSubtype

theorem logs_logged (env : Environment σ) : env.logged.Logs Prod.snd where
  allocate _ _ := rfl
  create _ _ _ _ := rfl
  getField _ _ _ := rfl
  invoke _ _ _ _ := rfl

/-- A new failure is made without a call. -/
theorem Logs.fail {env : Environment σ} {log : σ → List CallEvent} (hlog : env.Logs log)
    {α : Type} (className : String) (w : σ) :
    ∃ thrown w', exec (env.fail className : Effect σ α) w = (.error thrown, w') ∧
      log w' = log w := by
  have hcreate := hlog.create className [] [] w
  refine ⟨(env.failure className w).1, (env.failure className w).2, rfl, ?_⟩
  rcases hout : exec (env.create className [] []) w with ⟨out, w'⟩
  have hrun : (env.create className [] []).run w = (out, w') := hout
  rw [hout] at hcreate
  simp only [failure, bind, StateT.bind, hrun]
  rcases out with thrown | v
  · exact hcreate
  · cases v with
    | object o => exact hcreate
    | _ => exact (hlog.allocate _ _).trans hcreate

end Environment

/-! ### What expressions call -/

namespace Expr

mutual

/-- The methods that an expression mentions in calls. -/
def callees : Expr → List Callee
  | .const _ | .var _ | .this | .arg _ | .classOf _ => []
  | .field _ e | .item e _ | .box e | .unbox _ e | .cast _ e => callees e
  | .new _ _ es | .array _ es => calleesAll es
  | .call callee receiver args => calleesOf receiver ++ calleesAll args ++ [callee]

/-- The callees in the receiver of a call, if it has one. -/
def calleesOf : Option Expr → List Callee
  | none => []
  | some e => callees e

/-- The callees in expressions, from left to right. -/
def calleesAll : List Expr → List Callee
  | [] => []
  | e :: rest => callees e ++ calleesAll rest

end

theorem calleesAll_eq_nil {es : List Expr} (hes : ∀ e ∈ es, e.callees = []) :
    calleesAll es = [] := by
  induction es with
  | nil => rw [calleesAll]
  | cons e rest ih =>
    rw [calleesAll, hes e List.mem_cons_self, ih fun e he => hes e (List.mem_cons_of_mem _ he)]
    rfl

end Expr

namespace Activation

variable {σ α β : Type} {act : Activation σ} {log : σ → List CallEvent} {cs ds : List Callee}

/-- From one frame to another no variable has changed, and calls have been made of these
    methods only. -/
def Calls (log : σ → List CallEvent) (cs : List Callee) (f f' : Frame σ) : Prop :=
  f'.vars = f.vars ∧ ∃ events, log f'.world = log f.world ++ events ∧
    ∀ e ∈ events, e.callee ∈ cs

namespace Calls

variable {f f' f'' : Frame σ}

theorem refl (cs : List Callee) (f : Frame σ) : Calls log cs f f :=
  ⟨rfl, [], (List.append_nil _).symm, fun _ he => absurd he List.not_mem_nil⟩

theorem mono (h : Calls log cs f f') (hcs : cs ⊆ ds) : Calls log ds f f' := by
  obtain ⟨hvars, events, hlog, hevents⟩ := h
  exact ⟨hvars, events, hlog, fun e he => hcs (hevents e he)⟩

theorem trans (h : Calls log cs f f') (h' : Calls log cs f' f'') : Calls log cs f f'' := by
  obtain ⟨hvars, events, hlog, hevents⟩ := h
  obtain ⟨hvars', events', hlog', hevents'⟩ := h'
  refine ⟨hvars'.trans hvars, events ++ events', by rw [hlog', hlog, List.append_assoc], ?_⟩
  exact List.forall_mem_append.2 ⟨hevents, hevents'⟩

/-- Where nothing can be called, nothing has been. -/
theorem log_eq (h : Calls log [] f f') : log f'.world = log f.world := by
  obtain ⟨-, events, hlog, hevents⟩ := h
  rw [hlog, List.eq_nil_iff_forall_not_mem.2 fun e he => List.not_mem_nil (hevents e he),
    List.append_nil]

end Calls

/-- However it ends, a computation calls these methods only, and changes no variable. -/
def CallsOnly (log : σ → List CallEvent) (cs : List Callee) (x : Run σ α) : Prop :=
  ∀ f, Calls log cs f (exec x f).2

namespace CallsOnly

theorem pure (cs : List Callee) (a : α) : CallsOnly log cs (pure a : Run σ α) :=
  fun f => .refl cs f

theorem bind {x : Run σ α} {k : α → Run σ β} (hx : CallsOnly log cs x)
    (hk : ∀ a, CallsOnly log cs (k a)) : CallsOnly log cs (x >>= k) := by
  intro f
  have hf := hx f
  rw [exec_bind]
  rcases hout : exec x f with ⟨_ | a, f'⟩ <;> rw [hout] at hf
  · exact hf
  · exact hf.trans (hk a f')

theorem mono {x : Run σ α} (hx : CallsOnly log cs x) (hcs : cs ⊆ ds) : CallsOnly log ds x :=
  fun f => (hx f).mono hcs

/-- A computation of the environment that leaves the log as it is. -/
theorem outside {x : Effect σ α} (hx : ∀ w, log (exec x w).2 = log w) (cs : List Callee) :
    CallsOnly log cs (Run.outside x) :=
  fun f => ⟨rfl, [], by rw [List.append_nil]; exact hx f.world,
    fun _ he => absurd he List.not_mem_nil⟩

end CallsOnly

section

variable (hlog : act.env.Logs log)

include hlog

theorem callsOnly_fail (className : String) (cs : List Callee) :
    CallsOnly log cs (act.fail className : Run σ α) := by
  refine .outside (fun w => ?_) cs
  obtain ⟨thrown, w', hexec, hw⟩ := hlog.fail (α := α) className w
  rw [hexec]
  exact hw

/-- A call that does not reach a method of the instance itself is one event at most, and
    none only where there is nobody to call, or a string answers. -/
theorem exec_invoke_events (callee : Callee) (receiver : Option Value) (args : List Value)
    (hown : ∀ o, receiver = some (.object o) → o.id = act.this.id → act.callOwn callee = none)
    (f : Frame σ) :
    ∃ out w events, exec (act.invoke callee receiver args) f = (out, ⟨f.vars, w⟩) ∧
      log w = log f.world ++ events ∧ (events = [⟨callee, receiver, args, out⟩] ∨ events = [] ∧
        (receiver = some .null ∨ callee.name = "hashCode" ∨ callee.name = "equals")) := by
  have houtside : ∃ out w events,
      exec (Run.outside (act.env.invoke callee receiver args)) f = (out, ⟨f.vars, w⟩) ∧
      log w = log f.world ++ events ∧ (events = [⟨callee, receiver, args, out⟩] ∨ events = [] ∧
        (receiver = some .null ∨ callee.name = "hashCode" ∨ callee.name = "equals")) :=
    ⟨_, _, _, rfl, hlog.invoke callee receiver args f.world, .inl rfl⟩
  rcases receiver with _ | v
  · exact houtside
  · cases v with
    | null =>
      obtain ⟨thrown, w, hfail, hw⟩ := hlog.fail (α := Value) Known.nullPointerException f.world
      exact ⟨_, w, [], Run.exec_outside hfail, by rw [hw, List.append_nil], .inr ⟨rfl, .inl rfl⟩⟩
    | string s =>
      simp only [invoke]
      split
      · rename_i hname
        exact ⟨_, _, [], rfl, (List.append_nil _).symm, .inr ⟨rfl, .inr (.inl hname)⟩⟩
      · split
        · rename_i hname
          exact ⟨_, _, [], rfl, (List.append_nil _).symm, .inr ⟨rfl, .inr (.inr hname)⟩⟩
        · exact houtside
    | object o =>
      rw [invoke_outside (hown o rfl)]
      exact houtside
    | void | bool | int | long | float | double | array | classOf => exact houtside

theorem callsOnly_invoke {callee : Callee} {receiver : Option Value} {args : List Value}
    (hown : ∀ o, receiver = some (.object o) → o.id = act.this.id → act.callOwn callee = none)
    (hmem : callee ∈ cs) : CallsOnly log cs (act.invoke callee receiver args) := by
  intro f
  obtain ⟨out, w, events, hexec, hw, hevents⟩ := exec_invoke_events hlog callee receiver args hown f
  rw [hexec]
  refine ⟨rfl, events, hw, fun e he => ?_⟩
  rcases hevents with rfl | ⟨rfl, -⟩
  · rw [List.mem_singleton.1 he]
    exact hmem
  · exact absurd he List.not_mem_nil

theorem callsOnly_cast (ty : Ty) (v : Value) (cs : List Callee) :
    CallsOnly log cs (act.cast ty v) := by
  unfold cast
  split
  · split
    · exact .pure _ _
    · split
      · exact .pure _ _
      · split
        · exact .pure _ _
        · exact callsOnly_fail hlog _ _
  · exact .pure _ _

theorem callsOnly_unbox (p : Primitive) (v : Value) (cs : List Callee) :
    CallsOnly log cs (act.unbox p v) := by
  unfold unbox
  split
  · exact callsOnly_fail hlog _ _
  · exact .pure _ _

theorem callsOnly_item (v : Value) (i : Int32) (cs : List Callee) :
    CallsOnly log cs (act.item v i) := by
  unfold item
  split
  · split
    · exact .pure _ _
    · exact callsOnly_fail hlog _ _
  · exact callsOnly_fail hlog _ _
  · exact callsOnly_fail hlog _ _

theorem callsOnly_dereference (v : Value) (cs : List Callee) :
    CallsOnly log cs (act.dereference v) := by
  unfold dereference
  split
  · exact .pure _ _
  · exact callsOnly_fail hlog _ _
  · exact callsOnly_fail hlog _ _

end

mutual

/-- An expression calls what it mentions, where the instance has no such methods itself. -/
theorem calls_eval (hlog : act.env.Logs log) : ∀ e : Expr, (∀ c ∈ e.callees, act.callOwn c = none) →
    CallsOnly log e.callees (act.eval e)
  | .const l, _ => by rw [eval]; exact .pure _ _
  | .var i, _ => fun f => by rw [exec_eval_var]; exact .refl _ f
  | .this, _ => by rw [eval]; exact .pure _ _
  | .arg i, _ => by rw [eval]; exact .pure _ _
  | .classOf ty, _ => by rw [eval]; exact .pure _ _
  | .field r e, hown => by
    rw [eval, Expr.callees]
    rw [Expr.callees] at hown
    refine (calls_eval hlog e hown).bind fun v => (callsOnly_dereference hlog v _).bind fun o => ?_
    exact .outside (fun w => hlog.getField o r w) _
  | .new className params args, hown => by
    rw [eval, Expr.callees]
    rw [Expr.callees] at hown
    exact (calls_evalAll hlog args hown).bind fun vs => .outside (fun w => hlog.create _ _ _ w) _
  | .array element items, hown => by
    rw [eval, Expr.callees]
    rw [Expr.callees] at hown
    exact (calls_evalAll hlog items hown).bind fun vs => .pure _ _
  | .item e i, hown => by
    rw [eval, Expr.callees]
    rw [Expr.callees] at hown
    exact (calls_eval hlog e hown).bind fun v => callsOnly_item hlog v i _
  | .box e, hown => by
    rw [eval, Expr.callees]
    rw [Expr.callees] at hown
    exact calls_eval hlog e hown
  | .unbox p e, hown => by
    rw [eval, Expr.callees]
    rw [Expr.callees] at hown
    exact (calls_eval hlog e hown).bind fun v => callsOnly_unbox hlog p v _
  | .cast ty e, hown => by
    rw [eval, Expr.callees]
    rw [Expr.callees] at hown
    exact (calls_eval hlog e hown).bind fun v => callsOnly_cast hlog ty v _
  | .call callee receiver args, hown => by
    rw [eval, Expr.callees]
    simp only [Expr.callees, List.forall_mem_append, List.forall_mem_singleton] at hown
    obtain ⟨⟨hreceiver, hargs⟩, hcallee⟩ := hown
    -- Receiver and arguments come first, and what they call is listed before the callee.
    refine ((calls_evalReceiver hlog receiver hreceiver).mono ?_).bind fun v =>
      ((calls_evalAll hlog args hargs).mono ?_).bind fun vs =>
        callsOnly_invoke hlog (fun _ _ _ => hcallee) (by simp)
    · intro c hc
      simp [hc]
    · intro c hc
      simp [hc]

theorem calls_evalReceiver (hlog : act.env.Logs log) :
    ∀ e : Option Expr, (∀ c ∈ Expr.calleesOf e, act.callOwn c = none) →
      CallsOnly log (Expr.calleesOf e) (act.evalReceiver e)
  | none, _ => by rw [evalReceiver]; exact .pure _ _
  | some e, hown => by
    rw [evalReceiver, Expr.calleesOf]
    rw [Expr.calleesOf] at hown
    exact (calls_eval hlog e hown).bind fun v => .pure _ _

theorem calls_evalAll (hlog : act.env.Logs log) :
    ∀ es : List Expr, (∀ c ∈ Expr.calleesAll es, act.callOwn c = none) →
      CallsOnly log (Expr.calleesAll es) (act.evalAll es)
  | [], _ => by rw [evalAll]; exact .pure _ _
  | e :: rest, hown => by
    rw [evalAll, Expr.calleesAll]
    simp only [Expr.calleesAll, List.forall_mem_append] at hown
    refine ((calls_eval hlog e hown.1).mono (List.subset_append_left _ _)).bind fun v =>
      ((calls_evalAll hlog rest hown.2).mono (List.subset_append_right _ _)).bind fun vs =>
        .pure _ _

end

/-! ### Statements -/

/-- From one frame to another only variables in these places have changed, and these calls
    have been made. -/
structure Leads (log : σ → List CallEvent) (is : List Nat) (f : Frame σ)
    (events : List CallEvent) (f' : Frame σ) : Prop where
  length : f'.vars.length = f.vars.length
  keeps : ∀ i ∉ is, f'.vars.getD i .null = f.vars.getD i .null
  logged : log f'.world = log f.world ++ events

namespace Leads

variable {is js : List Nat} {f f' f'' : Frame σ} {events events' : List CallEvent}

theorem refl (is : List Nat) (f : Frame σ) : Leads log is f [] f :=
  ⟨rfl, fun _ _ => rfl, (List.append_nil _).symm⟩

theorem mono (h : Leads log is f events f') (his : is ⊆ js) : Leads log js f events f' :=
  ⟨h.length, fun i hi => h.keeps i fun h => hi (his h), h.logged⟩

theorem trans (h : Leads log is f events f') (h' : Leads log is f' events' f'') :
    Leads log is f (events ++ events') f'' :=
  ⟨h'.length.trans h.length, fun i hi => (h'.keeps i hi).trans (h.keeps i hi),
    by rw [h'.logged, h.logged, List.append_assoc]⟩

/-- A variable gets a value. -/
theorem set (h : Leads log is f events f') {i : Nat} (hi : i ∈ is) (v : Value) :
    Leads log is f events ⟨f'.vars.set i v, f'.world⟩ := by
  refine ⟨by rw [List.length_set, h.length], fun j hj => ?_, h.logged⟩
  have hij : i ≠ j := fun h => hj (h ▸ hi)
  rw [← h.keeps j hj]
  exact getD_set_ne hij

end Leads

/-- From one frame to another only variables in these places have changed, and calls have
    been made of these methods only. -/
def Steps (log : σ → List CallEvent) (cs : List Callee) (is : List Nat) (f f' : Frame σ) : Prop :=
  ∃ events, Leads log is f events f' ∧ ∀ e ∈ events, e.callee ∈ cs

namespace Steps

variable {is js : List Nat} {f f' f'' : Frame σ}

theorem refl (cs : List Callee) (is : List Nat) (f : Frame σ) : Steps log cs is f f :=
  ⟨[], .refl is f, fun _ he => absurd he List.not_mem_nil⟩

theorem keeps (h : Steps log cs is f f') {i : Nat} (hi : i ∉ is) :
    f'.vars.getD i .null = f.vars.getD i .null := by
  obtain ⟨events, hleads, -⟩ := h
  exact hleads.keeps i hi

theorem mono (h : Steps log cs is f f') (hcs : cs ⊆ ds) (his : is ⊆ js) :
    Steps log ds js f f' := by
  obtain ⟨events, hleads, hevents⟩ := h
  exact ⟨events, hleads.mono his, fun e he => hcs (hevents e he)⟩

theorem trans (h : Steps log cs is f f') (h' : Steps log cs is f' f'') :
    Steps log cs is f f'' := by
  obtain ⟨events, hleads, hevents⟩ := h
  obtain ⟨events', hleads', hevents'⟩ := h'
  exact ⟨events ++ events', hleads.trans hleads', List.forall_mem_append.2 ⟨hevents, hevents'⟩⟩

theorem ofCalls (h : Calls log cs f f') (is : List Nat) : Steps log cs is f f' := by
  obtain ⟨hvars, events, hlog, hevents⟩ := h
  exact ⟨events, ⟨by rw [hvars], fun i _ => by rw [hvars], hlog⟩, hevents⟩

theorem set (h : Steps log cs is f f') {i : Nat} (hi : i ∈ is) (v : Value) :
    Steps log cs is f ⟨f'.vars.set i v, f'.world⟩ := by
  obtain ⟨events, hleads, hevents⟩ := h
  exact ⟨events, hleads.set hi v, hevents⟩

theorem eval {e : Expr} (he : Calls log cs f (exec (act.eval e) f).2) :
    Steps log cs is f (exec (act.stmt (.eval e)) f).2 := by
  rcases hout : exec (act.eval e) f with ⟨_ | v, f'⟩ <;> rw [hout] at he
  · rw [exec_stmt_eval_error hout]
    exact .ofCalls he is
  · rw [exec_stmt_eval hout]
    exact .ofCalls he is

theorem assign {e : Expr} (he : Calls log cs f (exec (act.eval e) f).2) {i : Nat} (hi : i ∈ is) :
    Steps log cs is f (exec (act.stmt (.assign i e)) f).2 := by
  rcases hout : exec (act.eval e) f with ⟨_ | v, f'⟩ <;> rw [hout] at he
  · rw [exec_stmt_assign_error hout]
    exact .ofCalls he is
  · rw [exec_stmt_assign hout]
    exact Steps.set (.ofCalls he is) hi v

theorem ret {e : Expr} (he : Calls log cs f (exec (act.eval e) f).2) :
    Steps log cs is f (exec (act.stmt (.ret (some e))) f).2 := by
  rcases hout : exec (act.eval e) f with ⟨_ | v, f'⟩ <;> rw [hout] at he
  · rw [exec_stmt_ret_error hout]
    exact .ofCalls he is
  · rw [exec_stmt_ret hout]
    exact .ofCalls he is

/-- A block whose statements keep to these calls and variables where an invariant holds, which
    such steps preserve. -/
theorem block {I : Frame σ → Prop} (hI : ∀ f f', I f → Steps log cs is f f' → I f') {b : Block}
    (hb : ∀ s ∈ b, ∀ f, I f → Steps log cs is f (exec (act.stmt s) f).2) {f : Frame σ} (hf : I f) :
    Steps log cs is f (exec (act.block b) f).2 := by
  induction b generalizing f with
  | nil =>
    rw [exec_block_nil]
    exact .refl cs is f
  | cons s rest ih =>
    have hs := hb s List.mem_cons_self f hf
    rcases hout : exec (act.stmt s) f with ⟨_ | flow, f'⟩ <;> rw [hout] at hs
    · rw [exec_block_error hout]
      exact hs
    · cases flow with
      | returned v =>
        rw [exec_block_returned hout]
        exact hs
      | normal =>
        rw [exec_block_normal hout]
        exact hs.trans (ih (fun s hs => hb s (List.mem_cons_of_mem _ hs)) (hI f f' hf hs))

end Steps

/-- However it ends, a computation changes these variables and calls these methods only. -/
def StepsOnly (log : σ → List CallEvent) (cs : List Callee) (is : List Nat) (x : Run σ α) : Prop :=
  ∀ f, Steps log cs is f (exec x f).2

namespace StepsOnly

variable {is : List Nat} {e : Expr}

theorem eval (he : CallsOnly log cs (act.eval e)) : StepsOnly log cs is (act.stmt (.eval e)) :=
  fun f => .eval (he f)

theorem assign (he : CallsOnly log cs (act.eval e)) {i : Nat} (hi : i ∈ is) :
    StepsOnly log cs is (act.stmt (.assign i e)) :=
  fun f => .assign (he f) hi

theorem ret (he : CallsOnly log cs (act.eval e)) :
    StepsOnly log cs is (act.stmt (.ret (some e))) :=
  fun f => .ret (he f)

/-- A condition with one branch. -/
theorem condTrue (he : CallsOnly log cs (act.eval e)) {yes no : Block}
    (hyes : StepsOnly log cs is (act.block yes)) (hno : StepsOnly log cs is (act.block no)) :
    StepsOnly log cs is (act.stmt (.cond (.isTrue e) yes no)) := by
  intro f
  have hf := he f
  rcases hout : exec (act.eval e) f with ⟨thrown | v, f'⟩ <;> rw [hout] at hf
  · have htest : exec (act.test (.isTrue e)) f = (.error thrown, f') := by
      rw [test, exec_bind_error hout]
    rw [stmt, exec_bind_error htest]
    exact .ofCalls hf is
  · rw [exec_stmt_cond (exec_test_isTrue hout)]
    cases v.isTrue
    · exact Steps.trans (.ofCalls hf is) (hno f')
    · exact Steps.trans (.ofCalls hf is) (hyes f')

theorem throw (hlog : act.env.Logs log) (he : CallsOnly log cs (act.eval e)) :
    StepsOnly log cs is (act.stmt (.throw e)) := by
  intro f
  have hf := he f
  rcases hout : exec (act.eval e) f with ⟨_ | v, f'⟩ <;> rw [hout] at hf
  · rw [exec_stmt_throw_error hout]
    exact .ofCalls hf is
  · rw [stmt, exec_bind_ok hout]
    refine Steps.trans (.ofCalls hf is) ?_
    split
    · exact .refl cs is f'
    · exact .ofCalls (callsOnly_fail hlog _ cs f') is
    · exact .ofCalls (callsOnly_fail hlog _ cs f') is

theorem block {b : Block} (hb : ∀ s ∈ b, StepsOnly log cs is (act.stmt s)) :
    StepsOnly log cs is (act.block b) :=
  fun _ => Steps.block (I := fun _ => True) (fun _ _ _ _ => trivial)
    (fun s hs f _ => hb s hs f) trivial

end StepsOnly

/-- A throw ends with a failure, if not with the one that is meant. -/
theorem exec_stmt_throw_fails {e : Expr} (f : Frame σ) :
    ∃ thrown f', exec (act.stmt (.throw e)) f = (.error thrown, f') := by
  rcases hout : exec (act.eval e) f with ⟨_ | v, f'⟩
  · exact ⟨_, _, exec_stmt_throw_error hout⟩
  · rw [stmt, exec_bind_ok hout]
    split
    · exact ⟨_, _, rfl⟩
    · exact ⟨_, _, rfl⟩
    · exact ⟨_, _, rfl⟩

/-! ### Failures of calls -/

/-- What has come of a frame passes failures on: if a call that has been made from there has
    failed, then this is the failure with which all has ended. -/
def PassesOn (log : σ → List CallEvent) (f : Frame σ) (r : Except ObjectRef α × Frame σ) : Prop :=
  ∃ events, log r.2.world = log f.world ++ events ∧
    ∀ e ∈ events, ∀ thrown, e.outcome = .error thrown → r.1 = .error thrown

namespace PassesOn

variable {f : Frame σ} {e : Expr}

/-- Where nothing has been called, nothing can have failed. -/
theorem quiet {r : Except ObjectRef α × Frame σ} (h : log r.2.world = log f.world) :
    PassesOn log f r :=
  ⟨[], by rw [h, List.append_nil], fun _ he => absurd he List.not_mem_nil⟩

/-- A log tells which calls have been made. -/
theorem eq_error {r : Except ObjectRef α × Frame σ} (h : PassesOn log f r)
    {events : List CallEvent} (hlog : log r.2.world = log f.world ++ events) :
    ∀ e ∈ events, ∀ thrown, e.outcome = .error thrown → r.1 = .error thrown := by
  obtain ⟨events', hlog', hevents⟩ := h
  rw [hlog, List.append_cancel_left_eq] at hlog'
  rw [hlog']
  exact hevents

theorem bind {x : Run σ α} {k : α → Run σ β} (hx : PassesOn log f (exec x f))
    (hk : ∀ a f', exec x f = (.ok a, f') → PassesOn log f' (exec (k a) f')) :
    PassesOn log f (exec (x >>= k) f) := by
  rw [exec_bind]
  rcases hout : exec x f with ⟨thrown | a, f'⟩ <;> rw [hout] at hx <;>
    obtain ⟨events, hlog, hevents⟩ := hx
  · refine ⟨events, hlog, fun e he thrown' hfailed => ?_⟩
    rw [Except.error.inj (hevents e he thrown' hfailed)]
  · obtain ⟨events', hlog', hevents'⟩ := hk a f' hout
    refine ⟨events ++ events', by rw [hlog', hlog, List.append_assoc], ?_⟩
    refine List.forall_mem_append.2 ⟨fun e he thrown hfailed => ?_, hevents'⟩
    -- As there has been a result, none of the calls before it has failed.
    exact absurd (hevents e he thrown hfailed) (by simp)

theorem assign (he : PassesOn log f (exec (act.eval e) f)) (i : Nat) :
    PassesOn log f (exec (act.stmt (.assign i e)) f) := by
  rw [stmt]
  exact he.bind fun _ _ _ => .quiet rfl

theorem eval (he : PassesOn log f (exec (act.eval e) f)) :
    PassesOn log f (exec (act.stmt (.eval e)) f) := by
  rw [stmt]
  exact he.bind fun _ _ _ => .quiet rfl

theorem cast (hlog : act.env.Logs log) (he : PassesOn log f (exec (act.eval e) f)) (ty : Ty) :
    PassesOn log f (exec (act.eval (.cast ty e)) f) := by
  rw [Activation.eval]
  exact he.bind fun v f' _ => .quiet (callsOnly_cast hlog ty v [] f').log_eq

theorem cons {s : Stmt} {rest : Block} (hs : PassesOn log f (exec (act.stmt s) f))
    (hrest : ∀ f', exec (act.stmt s) f = (.ok .normal, f') →
      PassesOn log f' (exec (act.block rest) f')) :
    PassesOn log f (exec (act.block (s :: rest)) f) := by
  rw [block]
  refine hs.bind fun flow f' hout => ?_
  cases flow with
  | normal => exact hrest f' hout
  | returned v => exact .quiet rfl

theorem append {first rest : Block} (hfirst : PassesOn log f (exec (act.block first) f))
    (hrest : ∀ f', exec (act.block first) f = (.ok .normal, f') →
      PassesOn log f' (exec (act.block rest) f')) :
    PassesOn log f (exec (act.block (first ++ rest)) f) := by
  rcases hout : exec (act.block first) f with ⟨out, f'⟩
  by_cases hnormal : out = .ok .normal
  · subst hnormal
    obtain ⟨events, hlog, hevents⟩ := hout ▸ hfirst
    obtain ⟨events', hlog', hevents'⟩ := hrest f' hout
    rw [exec_block_append hout]
    refine ⟨events ++ events', by rw [hlog', hlog, List.append_assoc], ?_⟩
    exact List.forall_mem_append.2
      ⟨fun e he thrown hfailed => absurd (hevents e he thrown hfailed) (by simp), hevents'⟩
  · rw [exec_block_append_of_ne_normal hout hnormal, ← hout]
    exact hfirst

/-- A block passes failures on if its statements do where an invariant holds, which they
    preserve. -/
theorem block {I : Frame σ → Prop} {b : Block}
    (hb : ∀ s ∈ b, ∀ f, I f → PassesOn log f (exec (act.stmt s) f) ∧ I (exec (act.stmt s) f).2)
    (hf : I f) : PassesOn log f (exec (act.block b) f) := by
  induction b generalizing f with
  | nil => exact .quiet (by rw [exec_block_nil])
  | cons s rest ih =>
    obtain ⟨hs, hkept⟩ := hb s List.mem_cons_self f hf
    refine hs.cons fun f' hout => ih (fun s hs => hb s (List.mem_cons_of_mem _ hs)) ?_
    rw [hout] at hkept
    exact hkept

end PassesOn

/-- A call that leaves the running class ends with the failure that it meets. -/
theorem passesOn_invoke (hlog : act.env.Logs log) {callee : Callee} {receiver : Option Value}
    {args : List Value}
    (hown : ∀ o, receiver = some (.object o) → o.id = act.this.id → act.callOwn callee = none)
    (f : Frame σ) : PassesOn log f (exec (act.invoke callee receiver args) f) := by
  obtain ⟨out, w, events, hexec, hw, hevents⟩ := exec_invoke_events hlog callee receiver args hown f
  rw [hexec]
  refine ⟨events, hw, fun e he thrown hfailed => ?_⟩
  rcases hevents with rfl | ⟨rfl, -⟩
  · rw [← hfailed, List.mem_singleton.1 he]
  · exact absurd he List.not_mem_nil

end Activation

end ComponentViews
