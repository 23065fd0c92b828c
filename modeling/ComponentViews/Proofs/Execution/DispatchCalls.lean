import ComponentViews.Proofs.Execution.CallLog
import ComponentViews.Proofs.Synthesis.Dispatch

/-!
# The calls of a dispatch method

What a run of a standard dispatch method calls, part by part, in an environment that keeps a
log (`DispatchSite.Observed`):

* the start only checks the state of an endpoint (`stepsOnly_prologue`), and leaves an object
  other than the instance to note failures in (`holdsOther_of_prologue`);
* the guarded block may ask whether arguments are needed, then announces the call, and calls
  the target once at most, if the announcement has returned (`exec_guarded`);
* the note of a failure, the hook behind the call and the cleanup are one call each
  (`exec_note`, `exec_conclude`, `exec_cleanup`).
-/

namespace ComponentViews

open Effect

/-! ### What environments promise -/

namespace Environment

variable {σ : Type}

/-- Nothing that the environment hands out is the instance: fields hold other objects, and
    calls give other objects. -/
structure Apart (env : Environment σ) (this : ObjectRef) : Prop where
  field : ∀ o f w, ∃ o' w', exec (env.getField o f) w = (.ok (.object o'), w') ∧ o'.id ≠ this.id
  create : ∀ className params args w o,
    (exec (env.create className params args) w).1 = .ok (.object o) → o.id ≠ this.id
  invoke : ∀ callee receiver args w o,
    (exec (env.invoke callee receiver args) w).1 = .ok (.object o) → o.id ≠ this.id

end Environment

namespace Hook

/-- The method that a call of the hook names. -/
def callee (h : Hook) : Callee := ⟨.virtual, h.owner, h.name, h.params, h.result⟩

/-- The hooks that are called on an endpoint. -/
def ofEndpoint : List Hook := [checkState, endpointPreInvoke, endpointPostInvoke]

/-- The hooks of standard dispatch methods. -/
def standard : List Hook :=
  [preInvoke, preInvokeStatelessCreate, postInvoke, postInvokeStatelessCreate, failureCleanup,
    invokeChain, needsArguments, setChecked, setUncheckedRemote, setUncheckedLocal, checkState,
    endpointPreInvoke, endpointPostInvoke]

theorem ofEndpoint_subset : ofEndpoint ⊆ standard := by
  simp [ofEndpoint, standard]

theorem setUnchecked_mem_standard (isRmi : Bool) : setUnchecked isRmi ∈ standard := by
  cases isRmi <;> simp [setUnchecked, standard]

theorem failureCleanup_mem_standard : failureCleanup ∈ standard := by
  simp [standard]

theorem name_of_mem_standard : ∀ h ∈ standard, h.name ≠ "hashCode" ∧ h.name ≠ "equals" := by
  decide

end Hook

/-! ### Expressions that complete without a call -/

namespace Activation

variable {σ : Type} {act : Activation σ} {log : σ → List CallEvent}

/-- The evaluation completes, without a call. -/
def Settles (act : Activation σ) (log : σ → List CallEvent) (e : Expr) : Prop :=
  ∀ f, ∃ v f', exec (act.eval e) f = (.ok v, f') ∧ Calls log [] f f'

/-- The evaluation completes with an object other than the instance, or with the instance
    where `self` allows it, without a call. -/
def SettlesOn (act : Activation σ) (log : σ → List CallEvent) (self : Prop) (e : Expr) : Prop :=
  ∀ f, ∃ o f', exec (act.eval e) f = (.ok (.object o), f') ∧ Calls log [] f f' ∧
    (o.id = act.this.id → self)

/-- A variable that holds an object holds another one than the instance. -/
def HoldsOther (act : Activation σ) (i : Nat) (f : Frame σ) : Prop :=
  ∀ o, f.vars.getD i .null = .object o → o.id ≠ act.this.id

theorem HoldsOther.congr {i : Nat} {f f' : Frame σ} (h : act.HoldsOther i f)
    (heq : f'.vars.getD i .null = f.vars.getD i .null) : act.HoldsOther i f' :=
  fun o ho => h o (heq ▸ ho)

theorem SettlesOn.settles {self : Prop} {e : Expr} (he : act.SettlesOn log self e) :
    act.Settles log e := by
  intro f
  obtain ⟨o, f', hexec, hcalls, -⟩ := he f
  exact ⟨.object o, f', hexec, hcalls⟩

theorem Settles.callsOnly {e : Expr} (he : act.Settles log e) (cs : List Callee) :
    CallsOnly log cs (act.eval e) := by
  intro f
  obtain ⟨v, f', hexec, hcalls⟩ := he f
  rw [hexec]
  exact hcalls.mono (List.nil_subset _)

theorem settles_const (l : Literal) : act.Settles log (.const l) :=
  fun f => ⟨_, f, exec_eval_const, .refl [] f⟩

theorem settles_var (i : Nat) : act.Settles log (.var i) :=
  fun f => ⟨_, f, exec_eval_var, .refl [] f⟩

theorem settles_arg (i : Nat) : act.Settles log (.arg i) :=
  fun f => ⟨_, f, exec_eval_arg, .refl [] f⟩

theorem settles_forwardArgs (n : Nat) : ∀ e ∈ Expr.forwardArgs n, act.Settles log e := by
  simp only [Expr.forwardArgs, List.forall_mem_map]
  exact fun i _ => settles_arg i

theorem settlesOn_this : act.SettlesOn log True .this :=
  fun f => ⟨_, f, exec_eval_this, .refl [] f, fun _ => trivial⟩

theorem settles_evalAll {es : List Expr} (hes : ∀ e ∈ es, act.Settles log e) (f : Frame σ) :
    ∃ vs f', exec (act.evalAll es) f = (.ok vs, f') ∧ Calls log [] f f' := by
  induction es generalizing f with
  | nil => exact ⟨[], f, exec_evalAll_nil, .refl [] f⟩
  | cons e rest ih =>
    obtain ⟨v, f₁, he, hcalls⟩ := hes e List.mem_cons_self f
    obtain ⟨vs, f₂, hrest, hcalls'⟩ := ih (fun e he => hes e (List.mem_cons_of_mem _ he)) f₁
    exact ⟨v :: vs, f₂, exec_evalAll_cons he hrest, hcalls.trans hcalls'⟩

/-- A field of an object holds another object. -/
theorem settlesOn_field (hlog : act.env.Logs log) (hapart : act.env.Apart act.this)
    {self : Prop} {e : Expr} (he : act.SettlesOn log self e) (r : FieldRef) :
    act.SettlesOn log False (.field r e) := by
  intro f
  obtain ⟨o, f₁, hexec, hcalls, -⟩ := he f
  obtain ⟨o', w, hfield, hne⟩ := hapart.field o r f₁.world
  have hw : log w = log f₁.world := by
    have := hlog.getField o r f₁.world
    rwa [hfield] at this
  refine ⟨o', ⟨f₁.vars, w⟩, ?_, hcalls.trans ⟨rfl, [], ?_, fun _ he => absurd he List.not_mem_nil⟩,
    hne⟩
  · rw [exec_eval_field hexec]
    exact Run.exec_outside hfield
  · rw [hw, List.append_nil]

/-- A hook that is called on an object with settled arguments is one event; what it gives is
    not the instance. -/
theorem exec_hook (hlog : act.env.Logs log) (hapart : act.env.Apart act.this) {hook : Hook}
    {self : Prop} (hown : self → act.callOwn hook.callee = none) {receiver : Expr}
    {args : List Expr} (hr : act.SettlesOn log self receiver)
    (hargs : ∀ e ∈ args, act.Settles log e) (f : Frame σ) :
    ∃ out w event, exec (act.eval (hook.invoke receiver args)) f = (out, ⟨f.vars, w⟩) ∧
      log w = log f.world ++ [event] ∧ event.callee = hook.callee ∧ event.outcome = out ∧
      ∀ o, out = .ok (.object o) → o.id ≠ act.this.id := by
  obtain ⟨o, f₁, hreceiver, hcalls, hself⟩ := hr f
  obtain ⟨vs, f₂, hvs, hcalls'⟩ := settles_evalAll hargs f₁
  have hquiet := hcalls.trans hcalls'
  rcases hinvoke : exec (act.env.invoke hook.callee (some (.object o)) vs) f₂.world with ⟨out, w⟩
  have hw := hlog.invoke hook.callee (some (.object o)) vs f₂.world
  rw [hinvoke, hquiet.log_eq] at hw
  refine ⟨out, w, ⟨hook.callee, some (.object o), vs, out⟩, ?_, hw, rfl, rfl, fun o' ho' => ?_⟩
  · rw [Hook.invoke, Expr.invoke, exec_eval_call hreceiver hvs]
    show exec (act.invoke hook.callee (some (.object o)) vs) f₂ = _
    rw [invoke_outside fun h => hown (hself h), Run.exec_outside hinvoke, hquiet.1]
  · refine hapart.invoke hook.callee (some (.object o)) vs f₂.world o' ?_
    rw [hinvoke, ho']

theorem callsOnly_hook (hlog : act.env.Logs log) (hapart : act.env.Apart act.this) {hook : Hook}
    {self : Prop} (hown : self → act.callOwn hook.callee = none) {receiver : Expr}
    {args : List Expr} (hr : act.SettlesOn log self receiver)
    (hargs : ∀ e ∈ args, act.Settles log e) :
    CallsOnly log [hook.callee] (act.eval (hook.invoke receiver args)) := by
  intro f
  obtain ⟨out, w, event, hexec, hw, hcallee, -, -⟩ := exec_hook hlog hapart hown hr hargs f
  rw [hexec]
  refine ⟨rfl, [event], hw, fun e he => ?_⟩
  rw [List.mem_singleton.1 he, hcallee]
  exact List.mem_cons_self

/-- A call on a new object reaches no method of the instance. -/
theorem callsOnly_call_new (hlog : act.env.Logs log) (hapart : act.env.Apart act.this)
    {className : String} {params : List Ty} {callee : Callee} {es args : List Expr}
    (hes : ∀ e ∈ es, act.Settles log e) (hargs : ∀ e ∈ args, act.Settles log e) :
    CallsOnly log [callee] (act.eval (.call callee (some (.new className params es)) args)) := by
  intro f
  obtain ⟨vs, f₁, hvs, hcalls⟩ := settles_evalAll hes f
  rcases hcreate : exec (act.env.create className params vs) f₁.world with ⟨out, w⟩
  have hnew : exec (act.eval (.new className params es)) f = (out, ⟨f₁.vars, w⟩) := by
    rw [exec_eval_new hvs, Run.exec_outside hcreate]
  have hquiet : Calls log [] f ⟨f₁.vars, w⟩ := by
    refine hcalls.trans ⟨rfl, [], ?_, fun _ he => absurd he List.not_mem_nil⟩
    have := hlog.create className params vs f₁.world
    rw [hcreate] at this
    rw [List.append_nil, this]
  rcases out with thrown | v
  · rw [exec_eval_call_error hnew]
    exact hquiet.mono (List.nil_subset _)
  · obtain ⟨us, f₂, hus, hcalls'⟩ := settles_evalAll hargs ⟨f₁.vars, w⟩
    rw [exec_eval_call hnew hus]
    refine ((hquiet.trans hcalls').mono (List.nil_subset _)).trans ?_
    refine callsOnly_invoke hlog (fun o ho hid => ?_) List.mem_cons_self f₂
    obtain rfl := Option.some.inj ho
    exact absurd hid (hapart.create className params vs f₁.world o (by rw [hcreate]))

/-- What a cast gives refers to what it is of. -/
theorem cast_gives {ty : Ty} {v v' : Value} {f f' : Frame σ}
    (hcast : exec (act.cast ty v) f = (.ok v', f')) {o : ObjectRef} (ho : v' = .object o) :
    ∃ o', v = .object o' ∧ o'.id = o.id := by
  subst ho
  cases v with
  | object o' =>
    refine ⟨o', rfl, ?_⟩
    simp only [cast] at hcast
    split at hcast
    · cases hcast
      rfl
    split at hcast
    · cases hcast
      rfl
    split at hcast
    · cases hcast
      rfl
    · cases hcast
  | _ => cases hcast

/-- What a statement that calls a hook comes to: it completes with the call, or fails with
    the call or without one. -/
inductive Calling (callee : Callee) : Except ObjectRef Flow → List CallEvent → Prop
  | returned {e : CallEvent} : e.callee = callee → e.Returned → Calling callee (.ok .normal) [e]
  | failed {e : CallEvent} {thrown : ObjectRef} : e.callee = callee →
      e.outcome = .error thrown → Calling callee (.error thrown) [e]
  | missed {thrown : ObjectRef} : Calling callee (.error thrown) []

end Activation

/-! ### Dispatch methods -/

namespace DispatchSite

open Activation

variable (site : DispatchSite) (m : ExposedOperation)

/-- The hook that announces a call. -/
def preHook : Hook :=
  if site.kind.isEndpoint then .endpointPreInvoke
  else if site.statelessCreate then .preInvokeStatelessCreate
  else .preInvoke

/-- The hook behind a call. -/
def postHook : Hook :=
  if site.kind.isEndpoint then .endpointPostInvoke
  else if site.statelessCreate then .postInvokeStatelessCreate
  else .postInvoke

/-- The hook that notes failures that are not declared. -/
def recorder (m : ExposedOperation) : Hook := .setUnchecked m.isRmi

/-- What failures are noted in: an endpoint has one support for all its calls. -/
def supportValue : Expr :=
  if site.kind.isEndpoint then site.kind.supportExpr site.unit
  else .new Known.deployedSupport [] []

/-- What is called in the end: the interceptors, or the bean method itself. -/
def targetCallee : Callee :=
  if m.policy.interceptors then Hook.invokeChain.callee
  else ⟨.virtual, site.beanClass, site.target, m.op.params, m.op.result⟩

/-- What gives a failure its cause. -/
def causeCallee : Callee :=
  ⟨.virtual, Known.throwable, "initCause", [.named Known.throwable], .named Known.throwable⟩

theorem postHook_mem_standard : site.postHook ∈ Hook.standard := by
  simp only [postHook]
  split
  · simp [Hook.standard]
  · split <;> simp [Hook.standard]

theorem recorder_mem_standard : recorder m ∈ Hook.standard := Hook.setUnchecked_mem_standard _

theorem announce_eq : site.announce m =
    if site.kind.isEndpoint then
      site.preHook.invoke site.base [idExpr m, .var (places m).args]
    else
      site.preHook.invoke site.container
        [site.base, idExpr m, .var (places m).support, .var (places m).args] := by
  rw [announce, preHook]
  split <;> rfl

theorem conclude_eq : site.conclude m =
    if site.kind.isEndpoint then site.postHook.invoke site.base []
    else site.postHook.invoke site.container
      [site.base, idExpr m, .var (places m).support] := by
  rw [conclude, postHook]
  split <;> rfl

/-- A method runs in an environment that keeps a log and hands out no reference to the
    instance. If it is one of an endpoint, which calls its hooks on itself, none of the methods
    of the instance is one of these hooks. -/
structure Observed {σ : Type} (act : Activation σ) (log : σ → List CallEvent) : Prop where
  logs : act.env.Logs log
  apart : act.env.Apart act.this
  own : site.kind = .endpoint → ∀ hook ∈ Hook.ofEndpoint, act.callOwn hook.callee = none

/-- Of the endpoints only those with interfaces are their own base. -/
theorem kind_eq_endpoint {kind : ViewKind} (hself : kind.baseAccess = .self)
    (hendpoint : kind.isEndpoint = true) : kind = .endpoint := by
  cases kind <;> simp_all [ViewKind.baseAccess, ViewKind.isEndpoint]

variable {site m} {σ : Type} {act : Activation σ} {log : σ → List CallEvent} {f : Frame σ}

section

variable (hobs : site.Observed act log)

include hobs

theorem settlesOn_base : act.SettlesOn log (site.kind.baseAccess = .self) site.base := by
  rw [base, ViewKind.baseExpr]
  split
  · rename_i hself
    have hthis : act.SettlesOn log True .this := settlesOn_this
    intro f
    obtain ⟨o, f', hexec, hcalls, -⟩ := hthis f
    exact ⟨o, f', hexec, hcalls, fun _ => hself⟩
  · intro f
    obtain ⟨o, f', hexec, hcalls, hother⟩ :=
      settlesOn_field hobs.logs hobs.apart settlesOn_this _ f
    exact ⟨o, f', hexec, hcalls, fun h => (hother h).elim⟩

/-- Where the base of an endpoint is the instance, its hooks are not methods of its own. -/
theorem callOwn_ofEndpoint (hendpoint : site.kind.isEndpoint = true) {hook : Hook}
    (hhook : hook ∈ Hook.ofEndpoint) (hself : site.kind.baseAccess = .self) :
    act.callOwn hook.callee = none :=
  hobs.own (kind_eq_endpoint hself hendpoint) hook hhook

theorem settlesOn_container : act.SettlesOn log False site.container :=
  settlesOn_field hobs.logs hobs.apart (settlesOn_base hobs) _

/-- The announcement is one call, and gives no reference to the instance. -/
theorem exec_announce (f : Frame σ) :
    ∃ out w event, exec (act.eval (site.announce m)) f = (out, ⟨f.vars, w⟩) ∧
      log w = log f.world ++ [event] ∧ event.callee = site.preHook.callee ∧
      event.outcome = out ∧ ∀ o, out = .ok (.object o) → o.id ≠ act.this.id := by
  have hbase := settlesOn_base hobs
  have hid : act.Settles log (idExpr m) := settles_const _
  rw [announce_eq]
  split
  · rename_i hendpoint
    have hhook : site.preHook ∈ Hook.ofEndpoint := by
      simp [preHook, hendpoint, Hook.ofEndpoint]
    refine exec_hook hobs.logs hobs.apart (callOwn_ofEndpoint hobs hendpoint hhook) hbase ?_ f
    simp only [List.forall_mem_cons]
    exact ⟨hid, settles_var _, by simp⟩
  · refine exec_hook hobs.logs hobs.apart False.elim (settlesOn_container hobs) ?_ f
    simp only [List.forall_mem_cons]
    exact ⟨hbase.settles, hid, settles_var _, settles_var _, by simp⟩

/-- The hook behind the call is one call. -/
theorem exec_conclude (f : Frame σ) :
    ∃ out w event, exec (act.eval (site.conclude m)) f = (out, ⟨f.vars, w⟩) ∧
      log w = log f.world ++ [event] ∧ event.callee = site.postHook.callee ∧
      event.outcome = out ∧ ∀ o, out = .ok (.object o) → o.id ≠ act.this.id := by
  have hbase := settlesOn_base hobs
  have hid : act.Settles log (idExpr m) := settles_const _
  rw [conclude_eq]
  split
  · rename_i hendpoint
    have hhook : site.postHook ∈ Hook.ofEndpoint := by
      simp [postHook, hendpoint, Hook.ofEndpoint]
    exact exec_hook hobs.logs hobs.apart (callOwn_ofEndpoint hobs hendpoint hhook) hbase
      (by simp) f
  · refine exec_hook hobs.logs hobs.apart False.elim (settlesOn_container hobs) ?_ f
    simp only [List.forall_mem_cons]
    exact ⟨hbase.settles, hid, settles_var _, by simp⟩

/-- The cleanup is one call. -/
theorem exec_cleanup (f : Frame σ) :
    ∃ out f' cleaned,
      exec (act.stmt (.eval (Hook.failureCleanup.invoke site.container
        [.var (places m).support]))) f = (out, f') ∧
      Leads log [] f cleaned f' ∧ Calling Hook.failureCleanup.callee out cleaned ∧
      cleaned ≠ [] := by
  have hargs : ∀ e ∈ [Expr.var (places m).support], act.Settles log e := by
    simp only [List.forall_mem_singleton]
    exact settles_var _
  obtain ⟨out, w, event, hexec, hw, hcallee, hout, -⟩ :=
    exec_hook hobs.logs hobs.apart False.elim (settlesOn_container hobs) hargs f
  have hleads : Leads log [] f [event] ⟨f.vars, w⟩ := ⟨rfl, fun _ _ => rfl, hw⟩
  rcases out with thrown | v
  · exact ⟨_, _, [event], exec_stmt_eval_error hexec, hleads, .failed hcallee hout, by simp⟩
  · exact ⟨_, _, [event], exec_stmt_eval hexec, hleads, .returned hcallee ⟨v, hout⟩, by simp⟩

/-- A failure is noted with one call, if there is something to note it in. -/
theorem exec_note {hook : Hook} (hhook : hook ∈ Hook.standard) (failure : Nat)
    (hother : act.HoldsOther (places m).support f) :
    ∃ out f' noted,
      exec (act.stmt (.eval (hook.invoke (.var (places m).support) [.var failure]))) f =
        (out, f') ∧
      Leads log [] f noted f' ∧ Calling hook.callee out noted ∧
      (∀ e ∈ noted, e.args = [f.vars.getD failure .null]) ∧
      (f.vars.getD (places m).support .null ≠ .null → noted ≠ []) := by
  obtain ⟨out, w, events, hinvoke, hw, hevents⟩ :=
    exec_invoke_events hobs.logs hook.callee (some (f.vars.getD (places m).support .null))
      [f.vars.getD failure .null]
      (fun o ho hid => absurd hid (hother o (Option.some.inj ho))) f
  have heval : exec (act.eval (hook.invoke (.var (places m).support) [.var failure])) f =
      (out, ⟨f.vars, w⟩) := by
    rw [Hook.invoke, Expr.invoke,
      exec_eval_call exec_eval_var (exec_evalAll_singleton exec_eval_var)]
    exact hinvoke
  have hleads : Leads log [] f events ⟨f.vars, w⟩ := ⟨rfl, fun _ _ => rfl, hw⟩
  rcases hevents with rfl | ⟨rfl, hmissed⟩
  · rcases out with thrown | v
    · exact ⟨_, _, _, exec_stmt_eval_error heval, hleads, .failed rfl rfl, by simp, by simp⟩
    · exact ⟨_, _, _, exec_stmt_eval heval, hleads, .returned rfl ⟨v, rfl⟩, by simp, by simp⟩
  · -- Only null has no such method; a string would be asked for another one.
    obtain ⟨hhash, hequals⟩ := Hook.name_of_mem_standard _ hhook
    have hnull : f.vars.getD (places m).support .null = .null := by
      rcases hmissed with hnull | hname | hname
      · exact Option.some.inj hnull
      · exact absurd hname hhash
      · exact absurd hname hequals
    rw [hnull] at hinvoke
    obtain ⟨thrown, w', hfail, -⟩ := hobs.logs.fail (α := Value) Known.nullPointerException f.world
    have hfails : exec (act.invoke hook.callee (some .null) [f.vars.getD failure .null]) f =
        (.error thrown, ⟨f.vars, w'⟩) := Run.exec_outside hfail
    rw [hfails] at hinvoke
    cases hinvoke
    exact ⟨_, _, _, exec_stmt_eval_error heval, hleads, .missed, by simp,
      fun h => absurd hnull h⟩

/-! ### The start -/

/-- The start calls nothing but the hook that checks the state of an endpoint. -/
theorem stepsOnly_prologue :
    StepsOnly log [Hook.checkState.callee]
      ((places m).support :: (places m).failed :: (places m).result.toList)
      (act.block (site.prologue m)) := by
  have hid : act.Settles log (idExpr m) := settles_const _
  have hsupport : act.Settles log (site.kind.supportExpr site.unit) :=
    (settlesOn_field hobs.logs hobs.apart (settlesOn_base hobs) _).settles
  refine .block ?_
  simp only [prologue, List.forall_mem_append, List.forall_mem_map]
  refine ⟨⟨?_, ?_⟩, ?_⟩
  · intro rv hrv
    exact .assign (Settles.callsOnly (settles_const _) _) (by simp [hrv])
  · split
    · rename_i hendpoint
      have hhook : Hook.checkState ∈ Hook.ofEndpoint := by simp [Hook.ofEndpoint]
      simp only [List.forall_mem_cons]
      refine ⟨.eval ?_, .assign (hsupport.callsOnly _) (by simp), by simp⟩
      refine callsOnly_hook hobs.logs hobs.apart (callOwn_ofEndpoint hobs hendpoint hhook)
        (settlesOn_base hobs) ?_
      simp only [List.forall_mem_cons]
      exact ⟨hid, settles_const _, settles_const _, by simp⟩
    · simp only [List.forall_mem_singleton]
      have hnew := calls_eval hobs.logs (.new Known.deployedSupport [] [])
        (by simp [Expr.callees, Expr.calleesAll])
      exact .assign (hnew.mono (by simp [Expr.callees, Expr.calleesAll])) (by simp)
  · simp only [List.forall_mem_singleton]
    exact .assign (Settles.callsOnly (settles_const _) _) (by simp)

omit hobs in
/-- Behind the start the flag that asks for the cleanup is down. -/
theorem failed_of_prologue {f' : Frame σ} (hfailed : (places m).failed < f'.vars.length)
    (hstart : exec (act.block (site.prologue m)) f = (.ok .normal, f')) :
    f'.vars.getD (places m).failed .null = .bool false := by
  obtain ⟨first, hprologue⟩ : ∃ first,
      site.prologue m = first ++ [.assign (places m).failed (.bool false)] := ⟨_, rfl⟩
  rw [hprologue] at hstart
  rcases hfirst : exec (act.block first) f with ⟨out, f₁⟩
  by_cases hout : out = .ok .normal
  · subst hout
    have hlower : exec (act.stmt (.assign (places m).failed (.bool false))) f₁ =
        (.ok .normal, ⟨f₁.vars.set (places m).failed (.bool false), f₁.world⟩) :=
      exec_stmt_assign exec_eval_const
    rw [exec_block_append hfirst, exec_block_singleton] at hstart
    cases hlower.symm.trans hstart
    exact getD_set (by simpa using hfailed)
  · rw [exec_block_append_of_ne_normal hfirst hout] at hstart
    cases hstart
    exact absurd rfl hout

omit hobs in
/-- Behind the start the variable for the support holds what has been evaluated for it. -/
theorem support_of_prologue {f' : Frame σ} (hsupport : (places m).support < f'.vars.length)
    (hstart : exec (act.block (site.prologue m)) f = (.ok .normal, f')) :
    ∃ f₁ f₂, exec (act.eval site.supportValue) f₁ =
      (.ok (f'.vars.getD (places m).support .null), f₂) := by
  obtain ⟨first, hprologue⟩ : ∃ first, site.prologue m = first ++
      [.assign (places m).support site.supportValue, .assign (places m).failed (.bool false)] := by
    rw [prologue, supportValue]
    generalize (places m).result.toList.map _ = results
    split
    · exact ⟨results ++ [.eval (Hook.checkState.invoke site.base
        [idExpr m, .null, .int Hook.businessMethodState])], by simp⟩
    · exact ⟨results, by simp⟩
  -- The last two statements of the start set the support and lower the flag.
  rw [hprologue] at hstart
  rcases hfirst : exec (act.block first) f with ⟨out, f₁⟩
  by_cases hout : out = .ok .normal
  · subst hout
    rw [exec_block_append hfirst] at hstart
    rcases heval : exec (act.eval site.supportValue) f₁ with ⟨thrown | v, f₂⟩
    · rw [exec_block_error (exec_stmt_assign_error heval)] at hstart
      cases hstart
    · have hlower : exec (act.stmt (.assign (places m).failed (.bool false)))
          ⟨f₂.vars.set (places m).support v, f₂.world⟩ =
          (.ok .normal, ⟨(f₂.vars.set (places m).support v).set (places m).failed (.bool false),
            f₂.world⟩) := exec_stmt_assign exec_eval_const
      rw [exec_block_normal (exec_stmt_assign heval), exec_block_singleton] at hstart
      cases hlower.symm.trans hstart
      simp only [List.length_set] at hsupport
      rw [getD_set_ne (by simp [places]), getD_set hsupport]
      exact ⟨f₁, f₂, heval⟩
  · rw [exec_block_append_of_ne_normal hfirst hout] at hstart
    cases hstart
    exact absurd rfl hout

/-- The support of a call is another object than the instance. -/
theorem holdsOther_of_prologue {f' : Frame σ} (hsupport : (places m).support < f'.vars.length)
    (hstart : exec (act.block (site.prologue m)) f = (.ok .normal, f')) :
    act.HoldsOther (places m).support f' := by
  intro o ho
  obtain ⟨f₁, f₂, heval⟩ := support_of_prologue hsupport hstart
  rw [ho, supportValue] at heval
  split at heval
  · obtain ⟨o', f₃, hexec, -, hother⟩ :=
      settlesOn_field hobs.logs hobs.apart (settlesOn_base hobs) _ f₁
    cases hexec.symm.trans heval
    exact hother
  · rw [exec_eval_new exec_evalAll_nil] at heval
    rcases hcreate : exec (act.env.create Known.deployedSupport [] []) f₁.world with ⟨out, w⟩
    rw [Run.exec_outside hcreate] at heval
    cases heval
    exact hobs.apart.create _ _ _ _ _ (congrArg Prod.fst hcreate)

/-! ### The guarded block -/

omit hobs in
theorem callsOnly_boxedArgs (hlog : act.env.Logs log) (params : List Ty) :
    CallsOnly log [] (act.eval (Expr.boxedArgs params)) := by
  have hnone : (Expr.boxedArgs params).callees = [] := by
    rw [Expr.boxedArgs, Expr.objectArray, Expr.callees]
    refine Expr.calleesAll_eq_nil ?_
    simp [Expr.forwardArgs, Expr.callees]
  have hcalls := calls_eval hlog (Expr.boxedArgs params) (by simp [hnone])
  rwa [hnone] at hcalls

/-- Collecting the arguments calls nothing but the hook that tells whether they are needed. -/
theorem stepsOnly_collectArgs :
    StepsOnly log [Hook.needsArguments.callee] [(places m).args]
      (act.block (site.collectArgs m)) := by
  have hneeds : CallsOnly log [Hook.needsArguments.callee]
      (act.eval (Hook.needsArguments.invoke site.container [site.base])) := by
    refine callsOnly_hook hobs.logs hobs.apart False.elim (settlesOn_container hobs) ?_
    simp only [List.forall_mem_cons]
    exact ⟨(settlesOn_base hobs).settles, by simp⟩
  have hcollect : StepsOnly log [Hook.needsArguments.callee] [(places m).args]
      (act.stmt (.assign (places m).args (Expr.boxedArgs m.op.params))) :=
    .assign ((callsOnly_boxedArgs hobs.logs _).mono (List.nil_subset _)) List.mem_cons_self
  have hnull : act.Settles log .null := settles_const _
  refine .block ?_
  simp only [collectArgs, List.forall_mem_cons]
  refine ⟨.assign (hnull.callsOnly _) List.mem_cons_self, ?_⟩
  split
  · simpa using hcollect
  split
  · simp
  · simp only [List.forall_mem_singleton]
    exact .condTrue hneeds (.block (by simpa using hcollect)) (.block (by simp))

/-- One call of the target at most, and no change to a variable. -/
def CallsTarget (site : DispatchSite) (m : ExposedOperation) (log : σ → List CallEvent)
    (f f' : Frame σ) : Prop :=
  ∃ called, Leads log [] f called f' ∧
    (called = [] ∨ ∃ e : CallEvent, called = [e] ∧ e.callee = site.targetCallee m)

omit hobs in
theorem CallsTarget.quiet {f f' f'' : Frame σ} (h : site.CallsTarget m log f f')
    (h' : Calls log [] f' f'') : site.CallsTarget m log f f'' := by
  obtain ⟨called, hleads, hcalled⟩ := h
  refine ⟨called, ⟨by rw [h'.1, hleads.length], ?_, by rw [h'.log_eq, hleads.logged]⟩, hcalled⟩
  rw [h'.1]
  exact hleads.keeps

/-- The interceptors are one call. -/
theorem callsTarget_chain (hinterceptors : m.policy.interceptors = true) (f : Frame σ) :
    site.CallsTarget m log f (exec (act.eval (site.chain m)) f).2 := by
  have hargs : ∀ e ∈ [Expr.var (places m).support, .null], act.Settles log e := by
    simp only [List.forall_mem_cons]
    exact ⟨settles_var _, settles_const _, by simp⟩
  obtain ⟨out, w, event, hexec, hw, hcallee, -, -⟩ :=
    exec_hook hobs.logs hobs.apart False.elim (settlesOn_container hobs) hargs f
  rw [chain, hexec]
  refine ⟨[event], ⟨rfl, fun _ _ => rfl, hw⟩, .inr ⟨event, rfl, ?_⟩⟩
  rw [hcallee, targetCallee, if_pos hinterceptors]

/-- The bean method is called on another object than the instance, once at most. -/
theorem callsTarget_directCall (hinterceptors : m.policy.interceptors = false) (f : Frame σ)
    (hbean : act.HoldsOther (places m).bean f) :
    site.CallsTarget m log f
      (exec (act.eval (site.directCall m (.var (places m).bean))) f).2 := by
  have hargs : ∀ e ∈ Expr.forwardArgs m.op.params.length, act.Settles log e :=
    settles_forwardArgs _
  obtain ⟨vs, f₁, hvs, hcalls⟩ := settles_evalAll hargs f
  have htarget : site.targetCallee m =
      ⟨.virtual, site.beanClass, site.target, m.op.params, m.op.result⟩ := by
    rw [targetCallee, hinterceptors]
    rfl
  obtain ⟨out, w, events, hinvoke, hw, hevents⟩ :=
    exec_invoke_events hobs.logs (site.targetCallee m)
      (some (f.vars.getD (places m).bean .null)) vs
      (fun o ho hid => absurd hid (hbean o (Option.some.inj ho))) f₁
  rw [directCall, Expr.invoke, ← htarget, exec_eval_call exec_eval_var hvs, hinvoke]
  refine ⟨events, ⟨by rw [hcalls.1], fun _ _ => by rw [hcalls.1], by rw [hw, hcalls.log_eq]⟩, ?_⟩
  rcases hevents with rfl | ⟨rfl, -⟩
  · exact .inr ⟨_, rfl, rfl⟩
  · exact .inl rfl

/-- A result as one of the declared type is no call. -/
theorem callsTarget_fromObject {e : Expr} {f : Frame σ}
    (he : site.CallsTarget m log f (exec (act.eval e) f).2) (ty : Ty) :
    site.CallsTarget m log f (exec (act.eval (Expr.fromObject ty e)) f).2 := by
  rcases hout : exec (act.eval e) f with ⟨thrown | v, f₁⟩ <;> rw [hout] at he
  · rw [Expr.fromObject]
    split
    · rw [eval, exec_bind_error hout]
      exact he
    split
    · rw [hout]
      exact he
    · rw [exec_eval_cast_error hout]
      exact he
  · rw [Expr.fromObject]
    split
    · rw [exec_eval_unbox hout]
      exact he.quiet (callsOnly_unbox hobs.logs _ _ _ f₁)
    split
    · rw [hout]
      exact he
    · rw [exec_eval_cast hout]
      exact he.quiet (callsOnly_cast hobs.logs _ _ _ f₁)

/-- The call itself reaches the target once at most, and keeps what it gives. -/
theorem exec_performCall (f : Frame σ)
    (hbean : act.HoldsOther (places m).bean f) :
    ∃ called, Leads log (places m).result.toList f called
        (exec (act.stmt (site.performCall m)) f).2 ∧
      (called = [] ∨ ∃ e : CallEvent, called = [e] ∧ e.callee = site.targetCallee m) := by
  obtain ⟨e, hperform, he⟩ : ∃ e, site.performCall m = .keep (places m).result e ∧
      site.CallsTarget m log f (exec (act.eval e) f).2 := by
    rw [performCall]
    cases hinterceptors : m.policy.interceptors
    · exact ⟨_, rfl, callsTarget_directCall hobs hinterceptors f hbean⟩
    · cases (places m).result with
      | none => exact ⟨_, rfl, callsTarget_chain hobs hinterceptors f⟩
      | some rv =>
        exact ⟨_, rfl, callsTarget_fromObject hobs (callsTarget_chain hobs hinterceptors f) _⟩
  rw [hperform]
  obtain ⟨called, hleads, hcalled⟩ := he
  refine ⟨called, ?_, hcalled⟩
  rcases hout : exec (act.eval e) f with ⟨thrown | v, f₁⟩ <;> rw [hout] at hleads <;>
    cases (places m).result
  · rw [Stmt.keep, exec_stmt_eval_error hout]
    exact hleads
  · rw [Stmt.keep, exec_stmt_assign_error hout]
    exact hleads.mono (List.nil_subset _)
  · rw [Stmt.keep, exec_stmt_eval hout]
    exact hleads
  · rw [Stmt.keep, exec_stmt_assign hout]
    exact (hleads.mono (List.nil_subset _)).set (by simp) v

/-- The calls of the announcement and of the target: the target is called once at most,
    and if the announcement has returned. -/
inductive Announced (site : DispatchSite) (m : ExposedOperation) : List CallEvent → Prop
  | nothing : Announced site m []
  | announced {pre : CallEvent} : pre.callee = site.preHook.callee → Announced site m [pre]
  | called {pre target : CallEvent} : pre.callee = site.preHook.callee → pre.Returned →
      target.callee = site.targetCallee m → Announced site m [pre, target]

/-- The places that the guarded block changes. -/
def guardedPlaces (m : ExposedOperation) : List Nat :=
  (places m).args :: (places m).bean :: (places m).result.toList

/-- The announcement and the call. -/
theorem exec_announcedCall (hlength : (places m).bean < f.vars.length) :
    ∃ called, Leads log (guardedPlaces m) f called (exec (act.block
        [.assign (places m).bean (.cast (.named site.beanClass) (site.announce m)),
          site.performCall m]) f).2 ∧ site.Announced m called := by
  obtain ⟨out, w, pre, hannounce, hw, hpre, hout, hthis⟩ := exec_announce hobs (m := m) f
  have hleads : Leads log (guardedPlaces m) f [pre] ⟨f.vars, w⟩ := ⟨rfl, fun _ _ => rfl, hw⟩
  rcases out with thrown | v
  · rw [exec_block_error (exec_stmt_assign_error (exec_eval_cast_error hannounce))]
    exact ⟨[pre], hleads, .announced hpre⟩
  -- The cast of what the announcement has given calls nothing, and may fail.
  have hcalls := callsOnly_cast hobs.logs (.named site.beanClass) v [] ⟨f.vars, w⟩
  rcases hcast : exec (act.cast (.named site.beanClass) v) ⟨f.vars, w⟩ with ⟨thrown | v', f₁⟩
  · rw [hcast] at hcalls
    rw [exec_block_error (exec_stmt_assign_error ((exec_eval_cast hannounce).trans hcast))]
    refine ⟨[pre], ⟨by rw [hcalls.1], fun _ _ => by rw [hcalls.1], ?_⟩, .announced hpre⟩
    rw [hcalls.log_eq, hw]
  · rw [hcast] at hcalls
    have hassign := exec_stmt_assign (i := (places m).bean)
      ((exec_eval_cast hannounce).trans hcast)
    have hleads₁ : Leads log (guardedPlaces m) f [pre]
        ⟨f₁.vars.set (places m).bean v', f₁.world⟩ := by
      refine Leads.set ⟨by rw [hcalls.1], fun _ _ => by rw [hcalls.1], ?_⟩
        (by simp [guardedPlaces]) v'
      rw [hcalls.log_eq, hw]
    have hbean : act.HoldsOther (places m).bean ⟨f₁.vars.set (places m).bean v', f₁.world⟩ := by
      intro o ho
      rw [getD_set (by rw [hcalls.1]; exact hlength)] at ho
      obtain ⟨o', rfl, hid⟩ := cast_gives hcast ho
      rw [← hid]
      exact hthis o' rfl
    obtain ⟨called, hperform, hcalled⟩ :=
      exec_performCall hobs ⟨f₁.vars.set (places m).bean v', f₁.world⟩ hbean
    rw [exec_block_normal hassign, exec_block_singleton]
    refine ⟨[pre] ++ called, hleads₁.trans (hperform.mono ?_), ?_⟩
    · simp [guardedPlaces]
    · rcases hcalled with rfl | ⟨target, rfl, htarget⟩
      · exact .announced hpre
      · exact .called hpre ⟨v, hout⟩ htarget

/-- The guarded block may ask whether arguments are needed, and then announces the call and
    makes it. -/
theorem exec_guarded (hlength : (places m).bean < f.vars.length) :
    ∃ asked called, Leads log (guardedPlaces m) f (asked ++ called)
        (exec (act.block (site.guarded m)) f).2 ∧
      (∀ e ∈ asked, e.callee = Hook.needsArguments.callee) ∧ site.Announced m called := by
  obtain ⟨asked, hleads, hasked⟩ := stepsOnly_collectArgs hobs (m := m) f
  have hasked : ∀ e ∈ asked, e.callee = Hook.needsArguments.callee :=
    fun e he => List.mem_singleton.1 (hasked e he)
  rcases hout : exec (act.block (site.collectArgs m)) f with ⟨out, f₁⟩
  rw [hout] at hleads
  have hmade : Leads log (guardedPlaces m) f asked f₁ := hleads.mono (by simp [guardedPlaces])
  by_cases hnormal : out = .ok .normal
  · subst hnormal
    obtain ⟨called, hcalled, hannounced⟩ :=
      exec_announcedCall hobs (m := m) (f := f₁) (by rw [hmade.length]; exact hlength)
    rw [guarded, exec_block_append hout]
    exact ⟨asked, called, hmade.trans hcalled, hasked, hannounced⟩
  · rw [guarded, exec_block_append_of_ne_normal hout hnormal]
    exact ⟨asked, [], by rwa [List.append_nil], hasked, .nothing⟩

end

end DispatchSite

/-! ### A method that fails -/

namespace Environment

/-- An environment in which the calls of one method fail, and all else goes well. It numbers the
    objects that it makes, from 3 on. Nothing in it has the identity 0. -/
def failingAt (name : String) (failure : ObjectRef) : Environment Nat where
  allocate className n := (⟨n + 3, className⟩, n + 1)
  create className _ _ := ExceptT.mk fun n => (.ok (.object ⟨n + 3, className⟩), n + 1)
  invoke callee receiver _ :=
    if callee.name = name then throw failure
    else match receiver with
      | some (.object ⟨n + 1, className⟩) =>
        pure (.object ⟨n + 1, if callee = DispatchSite.causeCallee then className
          else callee.result.name⟩)
      | _ => pure (.object ⟨1, callee.result.name⟩)
  getField _ f := pure (.object ⟨1, f.type.name⟩)
  setField _ _ _ := pure ()
  isSubtype sub sup := sub == sup || sup == Known.object

theorem apart_failingAt (name className : String) (failure : ObjectRef) :
    (failingAt name failure).logged.Apart ⟨0, className⟩ where
  field _ f w := ⟨⟨1, f.type.name⟩, w, rfl, Nat.one_ne_zero⟩
  create className _ _ w o ho := by
    have ho : (.ok (.object ⟨w.1 + 3, className⟩) : Except ObjectRef Value) = .ok (.object o) := ho
    cases ho
    exact Nat.succ_ne_zero _
  invoke callee receiver args w o ho := by
    have ho : (exec ((failingAt name failure).invoke callee receiver args) w.1).1 =
      .ok (.object o) := ho
    simp only [failingAt] at ho
    split at ho
    · cases ho
    split at ho
    · cases ho
      exact Nat.succ_ne_zero _
    · cases ho
      exact Nat.one_ne_zero

end Environment

end ComponentViews
