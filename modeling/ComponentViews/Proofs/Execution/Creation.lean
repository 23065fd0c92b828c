import ComponentViews.Proofs.Execution.ExitHooks
import ComponentViews.Proofs.Synthesis.HomeImplementation

/-!
# Creating beans with a state

A creating operation of a home makes a bean context and runs the methods that construct the bean.
At the end it either reports that this failed or completes the bean, whatever the container, the
bean and the environment do:

* `exec_construction`: of the steps of the construction one announces the bean, and none is a
  report;
* `passesOn_construction`: if one of the steps fails, then the construction fails with this;
* `exec_settled`: a failure of the construction enters a handler, which raises a flag, and ends
  with the failure or with what callers get in its place (`AnswersWith`);
* `exec_endCreation`: the flags decide which report is made, and it is one at most.

`create_run` says of a whole run what comes of this (`CreationProtocol`).
-/

namespace ComponentViews

open Effect Activation

namespace HomeContext

/-! ### What is called -/

/-- The method of the container's home that is called by a name. -/
def homeCallee (name : String) (isLocal : Bool) (params : List Ty) (result : Ty) : Callee :=
  ⟨.special, Known.home, if isLocal then name ++ Known.localSuffix else name, params, result⟩

/-- What makes a bean context. -/
def opening : Callee := homeCallee "createBeanO" false [] (.named Known.beanContext)

/-- What announces a bean. -/
def announcement : Callee := homeCallee "preEjbCreate" false [.named Known.beanContext] .boolean

/-- The reports at the end. -/
def report (name : String) : Callee := homeCallee name false [.named Known.beanContext] .void

/-- The report that creating has failed. -/
def failureReport : Callee := report "createFailure"

/-- The report that creating has been completed. -/
def completionReport : Callee := report "afterPostCreateCompletion"

/-- What gives local callers the failure in place of one that is not declared. -/
def replacement : Callee :=
  homeCallee "newCreateFailureException" true [.named Known.throwable] (.named Known.ejbException)

variable (c : HomeContext) (m : HomeMethod)

/-- A method of the bean with the parameters of the operation. -/
def beanCallee (name : String) (result : Ty) : Callee :=
  ⟨.virtual, c.beanClass, name, m.op.params, result⟩

/-- What constructs the bean once it has been announced. -/
def construct : Block := if c.isEntity then c.constructEntity m else c.constructSession m

/-- What a creating operation does before it reports. -/
def construction : Block := c.beginCreation ++ c.construct m

/-- What is called to construct the bean. -/
def constructCallees : List Callee :=
  if c.isEntity then
    [c.beanCallee m (HomeOperation.entityMethod m.op.name) c.keyType,
      homeCallee "postCreate" m.isLocal [.named Known.beanContext, .object, .boolean]
        (handedOut m.isLocal),
      c.beanCallee m (HomeOperation.postCreateMethod m.op.name) .void,
      homeCallee "afterPostCreate" false [.named Known.beanContext, .object] .void]
  else
    [c.beanCallee m (c.request.initMethod m.op) (c.beanResult m (c.request.initMethod m.op)),
      homeCallee "postCreate" m.isLocal [.named Known.beanContext] (handedOut m.isLocal)]

/-- What is called before the reports. -/
def stepCallees : List Callee :=
  opening :: Hook.beanInstance.callee :: announcement :: c.constructCallees m

/-- The places that the construction changes. -/
def constructionPlaces : List Nat := [created, createdContext, createdBean, isAnnounced, createdKey]

/-- What constructs the bean neither announces it nor reports on it. -/
theorem ne_of_mem_constructCallees {callee : Callee} (h : callee ∈ c.constructCallees m) :
    callee ≠ announcement ∧ callee ≠ failureReport ∧ callee ≠ completionReport := by
  have hbean : ∀ name result, c.beanCallee m name result ≠ announcement ∧
      c.beanCallee m name result ≠ failureReport ∧
        c.beanCallee m name result ≠ completionReport := by
    intro name result
    refine ⟨?_, ?_, ?_⟩ <;>
    · intro h
      exact absurd (congrArg Callee.kind h) (by decide : CallKind.virtual ≠ .special)
  -- The callees of the bean are told apart by how they are called, those of the home by name.
  have hhome : ∀ isLocal, ∀ callee ∈
      [homeCallee "postCreate" isLocal [.named Known.beanContext, .object, .boolean]
        (handedOut isLocal),
      homeCallee "afterPostCreate" false [.named Known.beanContext, .object] .void,
      homeCallee "postCreate" isLocal [.named Known.beanContext] (handedOut isLocal)],
      callee ≠ announcement ∧ callee ≠ failureReport ∧ callee ≠ completionReport := by
    decide
  have hhome := hhome m.isLocal
  simp only [List.forall_mem_cons] at hhome
  rw [constructCallees] at h
  split at h <;> simp only [List.mem_cons, List.not_mem_nil, or_false] at h
  · rcases h with rfl | rfl | rfl | rfl
    · exact hbean _ _
    · exact hhome.1
    · exact hbean _ _
    · exact hhome.2.1
  · rcases h with rfl | rfl
    · exact hbean _ _
    · exact hhome.2.2.1

/-- No step of the construction is a report. -/
theorem ne_report_of_mem_stepCallees {callee : Callee} (h : callee ∈ c.stepCallees m) :
    callee ≠ failureReport ∧ callee ≠ completionReport := by
  simp only [stepCallees, List.mem_cons] at h
  rcases h with rfl | rfl | rfl | h
  · decide
  · decide
  · decide
  · exact (ne_of_mem_constructCallees c m h).2

end HomeContext

/-! ### What environments promise -/

/-- What the environment gives for these calls is not the instance. -/
def Environment.GivesOthers {σ : Type} (env : Environment σ) (asked : List Callee)
    (this : ObjectRef) : Prop :=
  ∀ callee ∈ asked, ∀ receiver args w o,
    (exec (env.invoke callee receiver args) w).1 = .ok (.object o) → o.id ≠ this.id

theorem Environment.Apart.givesOthers {σ : Type} {env : Environment σ} {this : ObjectRef}
    (h : env.Apart this) (asked : List Callee) : env.GivesOthers asked this :=
  fun callee _ receiver args w o => h.invoke callee receiver args w o

/-- Neither a bean context nor a bean that the environment hands out is the instance. -/
def Environment.HandsOutOthers {σ : Type} (env : Environment σ) (this : ObjectRef) : Prop :=
  ∀ callee ∈ [HomeContext.opening, Hook.beanInstance.callee], ∀ receiver args w o,
    (exec (env.invoke callee receiver args) w).1 = .ok (.object o) → o.id ≠ this.id

theorem Environment.Apart.handsOutOthers {σ : Type} {env : Environment σ} {this : ObjectRef}
    (h : env.Apart this) : env.HandsOutOthers this :=
  h.givesOthers _

namespace HomeContext

open Environment (failingAt apart_failingAt)

variable {c : HomeContext} {m : HomeMethod} {σ : Type} {act : Activation σ}
  {log : σ → List CallEvent} {f f' : Frame σ}

/-- A method runs in an environment that keeps a log and gives other objects than the instance
    for the calls `asked`, and does not have the methods of the container's home itself. -/
structure Observing (act : Activation σ) (log : σ → List CallEvent) (asked : List Callee) :
    Prop where
  logs : act.env.Logs log
  others : act.env.GivesOthers asked act.this
  own : ∀ callee : Callee, callee.kind = .special → callee.owner = Known.home →
    act.callOwn callee = none

/-- What a creating operation asks for are the bean context and the bean. -/
abbrev Observed (act : Activation σ) (log : σ → List CallEvent) : Prop :=
  Observing act log [opening, Hook.beanInstance.callee]

section

variable {asked : List Callee} (hobs : Observing act log asked)

include hobs

/-- An inherited method is one call. -/
theorem exec_inherited (name : String) (isLocal : Bool) (params : List Ty) (result : Ty)
    {args : List Expr} {vs : List Value} (hargs : exec (act.evalAll args) f = (.ok vs, f)) :
    ∃ out w, exec (act.eval (inherited name isLocal params result args)) f = (out, ⟨f.vars, w⟩) ∧
      log w = log f.world ++
        [⟨homeCallee name isLocal params result, some (.object act.this), vs, out⟩] ∧
      exec (act.env.invoke (homeCallee name isLocal params result) (some (.object act.this)) vs)
        f.world = (out, w) := by
  rcases hinvoke : exec (act.env.invoke (homeCallee name isLocal params result)
    (some (.object act.this)) vs) f.world with ⟨out, w⟩
  have hlog := hobs.logs.invoke (homeCallee name isLocal params result)
    (some (.object act.this)) vs f.world
  rw [hinvoke] at hlog
  refine ⟨out, w, ?_, hlog, rfl⟩
  have heval : exec (act.eval (inherited name isLocal params result args)) f =
      exec (act.invoke (homeCallee name isLocal params result) (some (.object act.this)) vs) f :=
    exec_eval_call exec_eval_this hargs
  rw [heval, invoke_outside fun _ => hobs.own _ rfl rfl]
  exact Run.exec_outside hinvoke

theorem calls_inherited (name : String) (isLocal : Bool) (params : List Ty) (result : Ty)
    {args : List Expr} {vs : List Value} (hargs : exec (act.evalAll args) f = (.ok vs, f)) :
    Calls log [homeCallee name isLocal params result] f
      (exec (act.eval (inherited name isLocal params result args)) f).2 := by
  obtain ⟨out, w, hexec, hlog, -⟩ := exec_inherited hobs name isLocal params result hargs
  rw [hexec]
  exact ⟨rfl, _, hlog, fun e he => by rw [List.mem_singleton.1 he]; exact List.mem_cons_self⟩

omit hobs in
/-- A cast calls nothing. -/
theorem calls_cast (hlogs : act.env.Logs log) {cs : List Callee} {ty : Ty} {e : Expr}
    (he : Calls log cs f (exec (act.eval e) f).2) :
    Calls log cs f (exec (act.eval (.cast ty e)) f).2 := by
  rcases hout : exec (act.eval e) f with ⟨t | v, f₁⟩ <;> rw [hout] at he
  · rw [exec_eval_cast_error hout]
    exact he
  · rw [exec_eval_cast hout]
    exact he.trans ((callsOnly_cast hlogs ty v [] f₁).mono (List.nil_subset _))

/-- A variable gets what an inherited method gives. -/
theorem exec_assign_inherited (name : String) (isLocal : Bool) (params : List Ty) (result : Ty)
    {args : List Expr} {vs : List Value} (hargs : exec (act.evalAll args) f = (.ok vs, f)) {i : Nat}
    (hlength : i < f.vars.length) :
    ∃ out f' e, exec (act.stmt (.assign i (inherited name isLocal params result args))) f =
        (out, f') ∧ Leads log [i] f [e] f' ∧ e.callee = homeCallee name isLocal params result ∧
      ((∃ t, out = .error t ∧ e.outcome = .error t ∧ f'.vars = f.vars) ∨
        out = .ok .normal ∧ e.outcome = .ok (f'.vars.getD i .null) ∧
          (homeCallee name isLocal params result ∈ asked → act.HoldsOther i f')) := by
  obtain ⟨out, w, hexec, hlog, hinvoke⟩ := exec_inherited hobs name isLocal params result hargs
  have hleads : Leads log [i] f [_] ⟨f.vars, w⟩ := ⟨rfl, fun _ _ => rfl, hlog⟩
  rcases out with t | v
  · exact ⟨_, _, _, exec_stmt_assign_error hexec, hleads, rfl, .inl ⟨t, rfl, rfl, rfl⟩⟩
  · have hget : (f.vars.set i v).getD i .null = v := getD_set hlength
    refine ⟨_, _, _, exec_stmt_assign hexec, hleads.set (by simp) v, rfl, .inr ⟨rfl, by rw [hget],
      fun hasked o ho => ?_⟩⟩
    rw [hget] at ho
    exact hobs.others _ hasked _ _ _ o (congrArg Prod.fst (ho ▸ hinvoke))

/-- An inherited method is called for what it does. -/
theorem exec_stmt_inherited (name : String) (isLocal : Bool) (params : List Ty) (result : Ty)
    {args : List Expr} {vs : List Value} (hargs : exec (act.evalAll args) f = (.ok vs, f)) :
    ∃ out f' e, exec (act.stmt (.eval (inherited name isLocal params result args))) f =
        (out, f') ∧ Leads log [] f [e] f' ∧ e.callee = homeCallee name isLocal params result ∧
      e.args = vs ∧ ((∃ t, out = .error t ∧ e.outcome = .error t) ∨
        out = .ok .normal ∧ e.Returned) := by
  obtain ⟨out, w, hexec, hlog, -⟩ := exec_inherited hobs name isLocal params result hargs
  have hleads : Leads log [] f [_] ⟨f.vars, w⟩ := ⟨rfl, fun _ _ => rfl, hlog⟩
  rcases out with t | v
  · exact ⟨_, _, _, exec_stmt_eval_error hexec, hleads, rfl, rfl, .inl ⟨t, rfl, rfl⟩⟩
  · exact ⟨_, _, _, exec_stmt_eval hexec, hleads, rfl, rfl, .inr ⟨rfl, v, rfl⟩⟩

/-- The bean in a context is asked for with one call at most. It is not the instance. -/
theorem exec_beanIn (hasked : Hook.beanInstance.callee ∈ asked) {context : Nat}
    (hcontext : act.HoldsOther context f) :
    ∃ out f₁, exec (act.eval (c.beanIn context)) f = (out, f₁) ∧
      Calls log [Hook.beanInstance.callee] f f₁ ∧
      ∀ v o, out = .ok v → v = .object o → o.id ≠ act.this.id := by
  let v := f.vars.getD context .null
  have hcall : exec (act.eval (Hook.beanInstance.invoke (.var context) [])) f =
      exec (act.invoke Hook.beanInstance.callee (some v) []) f :=
    exec_eval_call exec_eval_var exec_evalAll_nil
  have hcalls : Calls log [Hook.beanInstance.callee] f
      (exec (act.invoke Hook.beanInstance.callee (some v) []) f).2 :=
    callsOnly_invoke hobs.logs (fun o ho hid => absurd hid (hcontext o (Option.some.inj ho)))
      List.mem_cons_self f
  have hgives : ∀ o f₁, exec (act.invoke Hook.beanInstance.callee (some v) []) f =
      (.ok (.object o), f₁) → o.id ≠ act.this.id := by
    intro o f₁ hinvoke
    -- The context is whatever the environment has given; only on null is nothing called.
    have houtside : act.invoke Hook.beanInstance.callee (some v) [] =
        Run.outside (act.env.invoke Hook.beanInstance.callee (some v) []) ∨ v = .null := by
      cases hv : v with
      | object o => exact .inl (invoke_outside fun h => absurd h (hcontext o hv))
      | null => exact .inr rfl
      | _ => exact .inl rfl
    rcases houtside with houtside | hnull
    · rcases hresult : exec (act.env.invoke Hook.beanInstance.callee (some v) []) f.world
        with ⟨out, w⟩
      rw [houtside, Run.exec_outside hresult] at hinvoke
      cases hinvoke
      exact hobs.others _ hasked _ _ _ o (congrArg Prod.fst hresult)
    · obtain ⟨t, w, hfail, -⟩ := hobs.logs.fail (α := Value) Known.nullPointerException f.world
      have hthrows : exec (act.invoke Hook.beanInstance.callee (some v) []) f =
          (.error t, ⟨f.vars, w⟩) := by
        rw [hnull]
        exact Run.exec_outside hfail
      rw [hthrows] at hinvoke
      cases hinvoke
  rcases hinvoke : exec (act.invoke Hook.beanInstance.callee (some v) []) f with ⟨t | v', f₁⟩ <;>
    rw [hinvoke] at hcalls
  · exact ⟨_, f₁, exec_eval_cast_error (hcall.trans hinvoke), hcalls, by simp⟩
  · have hquiet := callsOnly_cast hobs.logs (.named c.beanClass) v' [] f₁
    rcases hcast : exec (act.cast (.named c.beanClass) v') f₁ with ⟨out, f₂⟩
    rw [hcast] at hquiet
    refine ⟨out, f₂, (exec_eval_cast (hcall.trans hinvoke)).trans hcast,
      hcalls.trans (hquiet.mono (List.nil_subset _)), fun w o hout hw => ?_⟩
    subst hout
    obtain ⟨o', rfl, hid⟩ := cast_gives hcast hw
    rw [← hid]
    exact hgives o' f₁ hinvoke

/-- The bean is obtained from its context. -/
theorem exec_obtainBean (hasked : Hook.beanInstance.callee ∈ asked) {context bean : Nat}
    (hlength : bean < f.vars.length) (hcontext : act.HoldsOther context f) :
    ∃ out f', exec (act.stmt (.assign bean (c.beanIn context))) f = (out, f') ∧
      Steps log [Hook.beanInstance.callee] [bean] f f' ∧
      ((∃ t, out = .error t) ∨ out = .ok .normal ∧ act.HoldsOther bean f') := by
  obtain ⟨out, f₁, hexec, hcalls, hgives⟩ := exec_beanIn hobs (c := c) hasked hcontext
  have hsteps : Steps log [Hook.beanInstance.callee] [bean] f f₁ := .ofCalls hcalls _
  rcases out with t | v
  · exact ⟨_, _, exec_stmt_assign_error hexec, hsteps, .inl ⟨t, rfl⟩⟩
  · refine ⟨_, _, exec_stmt_assign hexec, hsteps.set (by simp) v, .inr ⟨rfl, fun o ho => ?_⟩⟩
    rw [getD_set (by rw [hcalls.1]; exact hlength)] at ho
    exact hgives v o rfl ho

/-- A method of the bean is one call at most, if the bean is another object than the instance. -/
theorem exec_beanCall {bean : Nat} (hbean : act.HoldsOther bean f) (name : String) (result : Ty) :
    ∃ out w events, exec (act.eval (c.beanCall m bean name result)) f = (out, ⟨f.vars, w⟩) ∧
      log w = log f.world ++ events ∧
      ∀ e ∈ events, events = [e] ∧ e.callee = c.beanCallee m name result ∧ e.outcome = out := by
  have hsettles : ∀ e ∈ Expr.forwardArgs m.op.params.length, act.Settles log e :=
    settles_forwardArgs _
  obtain ⟨vs, f₁, hvs, hcalls⟩ := settles_evalAll hsettles f
  obtain ⟨out, w, events, hinvoke, hlog, hevents⟩ :=
    exec_invoke_events hobs.logs (c.beanCallee m name result) (some (f.vars.getD bean .null)) vs
      (fun o ho hid => absurd hid (hbean o (Option.some.inj ho))) f₁
  refine ⟨out, w, events, ?_, by rw [hlog, hcalls.log_eq], ?_⟩
  · rw [← hcalls.1, ← hinvoke]
    exact exec_eval_call exec_eval_var hvs
  · rcases hevents with rfl | ⟨rfl, -⟩ <;> simp

theorem calls_beanCall {bean : Nat} (hbean : act.HoldsOther bean f) (name : String) (result : Ty) :
    Calls log [c.beanCallee m name result] f
      (exec (act.eval (c.beanCall m bean name result)) f).2 := by
  obtain ⟨out, w, events, hexec, hlog, hevents⟩ := exec_beanCall hobs (m := m) hbean name result
  rw [hexec]
  exact ⟨rfl, events, hlog, fun e he => by simp [(hevents e he).2.1]⟩

/-! ### Failures of these calls -/

theorem passesOn_inherited (name : String) (isLocal : Bool) (params : List Ty) (result : Ty)
    {args : List Expr} {vs : List Value} (hargs : exec (act.evalAll args) f = (.ok vs, f)) :
    PassesOn log f (exec (act.eval (inherited name isLocal params result args)) f) := by
  obtain ⟨out, w, hexec, hlog, -⟩ := exec_inherited hobs name isLocal params result hargs
  rw [hexec]
  refine ⟨_, hlog, fun e he thrown hfailed => ?_⟩
  rw [← hfailed, List.mem_singleton.1 he]

theorem passesOn_beanIn {context : Nat} (hcontext : act.HoldsOther context f) :
    PassesOn log f (exec (act.eval (c.beanIn context)) f) := by
  have hcall : exec (act.eval (Hook.beanInstance.invoke (.var context) [])) f =
      exec (act.invoke Hook.beanInstance.callee (some (f.vars.getD context .null)) []) f :=
    exec_eval_call exec_eval_var exec_evalAll_nil
  refine .cast hobs.logs ?_ _
  rw [hcall]
  exact passesOn_invoke hobs.logs
    (fun o ho hid => absurd hid (hcontext o (Option.some.inj ho))) f

theorem passesOn_beanCall {bean : Nat} (hbean : act.HoldsOther bean f) (name : String)
    (result : Ty) : PassesOn log f (exec (act.eval (c.beanCall m bean name result)) f) := by
  obtain ⟨out, w, events, hexec, hlog, hevents⟩ := exec_beanCall hobs (m := m) hbean name result
  rw [hexec]
  refine ⟨events, hlog, fun e he thrown hfailed => ?_⟩
  rw [← hfailed, (hevents e he).2.2]

end

section

variable (hobs : Observed act log)

include hobs

/-! ### The construction -/

omit hobs in
/-- A block that only assigns and evaluates ends with a failure, or at its end. -/
theorem block_ends {b : Block}
    (hb : ∀ s ∈ b, (∃ e, s = .eval e) ∨ ∃ i e, s = .assign i e) (f : Frame σ) :
    (∃ t, (exec (act.block b) f).1 = .error t) ∨ (exec (act.block b) f).1 = .ok .normal := by
  induction b generalizing f with
  | nil => exact .inr (by rw [exec_block_nil])
  | cons s rest ih =>
    have hs : (∃ t f', exec (act.stmt s) f = (.error t, f')) ∨
        ∃ f', exec (act.stmt s) f = (.ok .normal, f') := by
      rcases hb s List.mem_cons_self with ⟨e, rfl⟩ | ⟨i, e, rfl⟩ <;>
        rcases hout : exec (act.eval e) f with ⟨t | v, f₁⟩
      · exact .inl ⟨t, f₁, exec_stmt_eval_error hout⟩
      · exact .inr ⟨f₁, exec_stmt_eval hout⟩
      · exact .inl ⟨t, f₁, exec_stmt_assign_error hout⟩
      · exact .inr ⟨_, exec_stmt_assign hout⟩
    rcases hs with ⟨t, f₁, hs⟩ | ⟨f₁, hs⟩
    · exact .inl ⟨t, by rw [exec_block_error hs]⟩
    · rw [exec_block_normal hs]
      exact ih (fun s hs => hb s (List.mem_cons_of_mem _ hs)) f₁

/-- Each statement that constructs the bean calls methods for this only, and passes failures on. -/
theorem steps_construct_stmt : ∀ s ∈ c.construct m, ∀ f, act.HoldsOther createdBean f →
    Steps log (c.constructCallees m) [created, createdKey] f (exec (act.stmt s) f).2 ∧
      PassesOn log f (exec (act.stmt s) f) := by
  have hkeyed : ∀ f : Frame σ, exec (act.evalAll [.var createdContext, .var createdKey]) f =
      (.ok [f.vars.getD createdContext .null, f.vars.getD createdKey .null], f) :=
    fun f => exec_evalAll_cons exec_eval_var (exec_evalAll_singleton exec_eval_var)
  have hposted : ∀ f : Frame σ,
      exec (act.evalAll [.var createdContext, .var createdKey, .bool true]) f =
        (.ok [f.vars.getD createdContext .null, f.vars.getD createdKey .null, .bool true], f) :=
    fun f => exec_evalAll_cons exec_eval_var
      (exec_evalAll_cons exec_eval_var (exec_evalAll_singleton exec_eval_const))
  have hcontext : ∀ f : Frame σ, exec (act.evalAll [.var createdContext]) f =
      (.ok [f.vars.getD createdContext .null], f) :=
    fun f => exec_evalAll_singleton exec_eval_var
  -- An entity is created and activated in four statements, a session in two.
  rw [construct, constructCallees]
  split
  · simp only [constructEntity, List.forall_mem_cons]
    refine ⟨fun f hf => ⟨.assign ((calls_beanCall hobs hf _ _).mono (by simp)) (by simp),
        .assign (passesOn_beanCall hobs hf _ _) _⟩,
      fun f _ => ⟨.assign (calls_cast hobs.logs
        ((calls_inherited hobs _ _ _ _ (hposted f)).mono (by simp))) (by simp),
        .assign (.cast hobs.logs (passesOn_inherited hobs _ _ _ _ (hposted f)) _) _⟩,
      fun f hf => ⟨.eval ((calls_beanCall hobs hf _ _).mono (by simp)),
        .eval (passesOn_beanCall hobs hf _ _)⟩,
      fun f _ => ⟨.eval ((calls_inherited hobs _ _ _ _ (hkeyed f)).mono (by simp)),
        .eval (passesOn_inherited hobs _ _ _ _ (hkeyed f))⟩, by simp⟩
  · simp only [constructSession, List.forall_mem_cons]
    refine ⟨fun f hf => ⟨.eval ((calls_beanCall hobs hf _ _).mono (by simp)),
        .eval (passesOn_beanCall hobs hf _ _)⟩,
      fun f _ => ⟨.assign (calls_cast hobs.logs
        ((calls_inherited hobs _ _ _ _ (hcontext f)).mono (by simp))) (by simp),
        .assign (.cast hobs.logs (passesOn_inherited hobs _ _ _ _ (hcontext f)) _) _⟩, by simp⟩

/-- Once it has been announced, the bean is constructed by the methods for this, and a failure of
    one of them is that of the construction. -/
theorem steps_construct (hbean : act.HoldsOther createdBean f) :
    Steps log (c.constructCallees m) [created, createdKey] f
        (exec (act.block (c.construct m)) f).2 ∧
      PassesOn log f (exec (act.block (c.construct m)) f) := by
  have hkept : ∀ f f', act.HoldsOther createdBean f →
      Steps log (c.constructCallees m) [created, createdKey] f f' →
        act.HoldsOther createdBean f' :=
    fun f f' hf hsteps => hf.congr (hsteps.keeps (by simp [created, createdBean, createdKey]))
  have hstmt := steps_construct_stmt hobs (c := c) (m := m)
  exact ⟨Steps.block hkept (fun s hs f hf => (hstmt s hs f hf).1) hbean,
    PassesOn.block (fun s hs f hf =>
      ⟨(hstmt s hs f hf).2, hkept f _ hf (hstmt s hs f hf).1⟩) hbean⟩

/-- The context is made, and the bean obtained from it. -/
theorem exec_openBean (hlength : createdBean < f.vars.length) :
    ∃ out f', exec (act.block [.assign createdContext
        (inherited "createBeanO" false [] (.named Known.beanContext) []),
        .assign createdBean (c.beanIn createdContext)]) f = (out, f') ∧
      Steps log [opening, Hook.beanInstance.callee] [createdContext, createdBean] f f' ∧
      PassesOn log f (out, f') ∧
      ((∃ t, out = .error t) ∨ out = .ok .normal ∧ act.HoldsOther createdBean f') := by
  have hplace : createdContext < f.vars.length := by
    simp only [createdContext, createdBean] at hlength ⊢
    omega
  obtain ⟨out, f₁, e, hopen, hleads, hcallee, hend⟩ := exec_assign_inherited hobs "createBeanO"
    false [] (.named Known.beanContext) exec_evalAll_nil hplace
  have hopened : Steps log [opening, Hook.beanInstance.callee] [createdContext, createdBean] f f₁ :=
    ⟨[e], hleads.mono (by simp), by simp [hcallee, opening]⟩
  have hpasses : PassesOn log f _ :=
    .assign (passesOn_inherited hobs "createBeanO" false [] (.named Known.beanContext)
      exec_evalAll_nil) createdContext
  rcases hend with ⟨t, rfl, -⟩ | ⟨rfl, -, hcontext⟩
  · exact ⟨_, f₁, exec_block_error hopen, hopened, hopen ▸ hpasses, .inl ⟨t, rfl⟩⟩
  · have hplace₂ : createdBean < f₁.vars.length := hleads.length ▸ hlength
    have hcontext := hcontext (by simp [opening])
    obtain ⟨out, f₂, hobtain, hsteps₂, hend⟩ :=
      exec_obtainBean hobs (c := c) (by simp) hplace₂ hcontext
    have hrest : exec (act.block [.assign createdBean (c.beanIn createdContext)]) f₁ = (out, f₂) :=
      exec_block_singleton.trans hobtain
    have hexec := (exec_block_normal hopen).trans hrest
    refine ⟨out, f₂, hexec, hopened.trans (hsteps₂.mono (by simp) (by simp)), ?_, hend⟩
    rw [← hexec]
    -- A failure of the second statement is passed on like one of the first.
    refine hpasses.cons fun f' hopen' => ?_
    cases hopen.symm.trans hopen'
    rw [exec_block_singleton]
    exact .assign (passesOn_beanIn hobs hcontext) createdBean

omit hobs in
theorem construct_ends (f : Frame σ) : (∃ t, (exec (act.block (c.construct m)) f).1 = .error t) ∨
    (exec (act.block (c.construct m)) f).1 = .ok .normal := by
  refine block_ends ?_ f
  rw [construct]
  split <;> simp [constructEntity, constructSession]

omit hobs in
/-- Of the steps of the construction only one announces the bean. -/
theorem filter_announcement {opened constructed : List CallEvent} {e : CallEvent}
    (hopened : ∀ e ∈ opened, e.callee ∈ [opening, Hook.beanInstance.callee])
    (hannounced : e.callee = announcement)
    (hconstructed : ∀ e ∈ constructed, e.callee ∈ c.constructCallees m) :
    (opened ++ [e] ++ constructed).filter (·.callee = announcement) = [e] := by
  have hbefore : opened.filter (·.callee = announcement) = [] := by
    have hne : ∀ callee ∈ [opening, Hook.beanInstance.callee], callee ≠ announcement := by decide
    exact List.filter_eq_nil_iff.2 fun e he => by simpa using hne _ (hopened e he)
  have hafter : constructed.filter (·.callee = announcement) = [] := by
    refine List.filter_eq_nil_iff.2 fun e he => ?_
    simpa using (ne_of_mem_constructCallees c m (hconstructed e he)).1
  rw [List.filter_append, List.filter_append, hbefore, hafter]
  simp [hannounced]

omit hobs in
/-- The parts of the construction. -/
theorem construction_eq : c.construction m = [.assign createdContext
    (inherited "createBeanO" false [] (.named Known.beanContext) []),
    .assign createdBean (c.beanIn createdContext)] ++ .assign isAnnounced
      (inherited "preEjbCreate" false [.named Known.beanContext] .boolean
        [.var createdContext]) :: c.construct m := rfl

/-- The construction ends with the failure of a call that it makes. -/
theorem passesOn_construction (hlength : createdBean < f.vars.length) :
    PassesOn log f (exec (act.block (c.construction m)) f) := by
  have hargs : ∀ f : Frame σ, exec (act.evalAll [.var createdContext]) f =
      (.ok [f.vars.getD createdContext .null], f) :=
    fun f => exec_evalAll_singleton exec_eval_var
  rw [construction_eq]
  obtain ⟨out, f₁, hopen, -, hpasses, hend⟩ := exec_openBean hobs (c := c) hlength
  refine .append (hopen ▸ hpasses) fun f' hopen' => ?_
  cases hopen.symm.trans hopen'
  rcases hend with ⟨t, ⟨⟩⟩ | ⟨-, hbean⟩
  refine .cons (.assign (passesOn_inherited hobs _ _ _ _ (hargs f₁)) _) fun f₂ hannounce => ?_
  have hkept : Steps log _ [isAnnounced] f₁ _ :=
    .assign (calls_inherited hobs "preEjbCreate" false [.named Known.beanContext] .boolean
      (hargs f₁)) (List.mem_singleton_self _)
  rw [hannounce] at hkept
  have hbean₂ := hbean.congr (hkept.keeps (by simp [createdBean, isAnnounced]))
  exact (steps_construct hobs (c := c) (m := m) hbean₂).2

/-- The construction is a run of its steps. If it completes, the bean has been announced once, and
    the flag tells what the announcement has given. -/
theorem exec_construction (hlength : isAnnounced < f.vars.length) :
    ∃ out f' steps, exec (act.block (c.construction m)) f = (out, f') ∧
      Leads log constructionPlaces f steps f' ∧ (∀ e ∈ steps, e.callee ∈ c.stepCallees m) ∧
      ((∃ t, out = .error t) ∨ out = .ok .normal ∧ ∃ e,
        steps.filter (·.callee = announcement) = [e] ∧
        e.outcome = .ok (f'.vars.getD isAnnounced .null)) := by
  have hplace : createdBean < f.vars.length := by
    simp only [isAnnounced, createdBean] at hlength ⊢
    omega
  -- Three parts, of which each may fail: opening the bean, announcing it, constructing it.
  rw [construction_eq]
  obtain ⟨out, f₁, hopen, ⟨opened, hleads₁, hopened⟩, -, hend⟩ := exec_openBean hobs (c := c) hplace
  have hmade₁ : Leads log constructionPlaces f opened f₁ :=
    hleads₁.mono (by simp [constructionPlaces])
  have hcallees₁ : ∀ e ∈ opened, e.callee ∈ c.stepCallees m := fun e he =>
    List.mem_append_left (announcement :: c.constructCallees m) (hopened e he)
  rcases hend with ⟨t, rfl⟩ | ⟨rfl, hbean⟩
  · refine ⟨_, f₁, opened, ?_, hmade₁, hcallees₁, .inl ⟨t, rfl⟩⟩
    exact exec_block_append_of_ne_normal hopen (by simp)
  rw [exec_block_append hopen]
  obtain ⟨out, f₂, e, hannounce, hleads₂, hannounced, hend⟩ := exec_assign_inherited hobs
    "preEjbCreate" false [.named Known.beanContext] .boolean (exec_evalAll_singleton exec_eval_var)
    (i := isAnnounced) (by rw [hmade₁.length]; exact hlength)
  have hmade₂ := hmade₁.trans (hleads₂.mono (by simp [constructionPlaces]))
  have hcallees₂ : ∀ e' ∈ opened ++ [e], e'.callee ∈ c.stepCallees m := by
    refine List.forall_mem_append.2 ⟨hcallees₁, ?_⟩
    simp [stepCallees, hannounced, announcement]
  rcases hend with ⟨t, rfl, -⟩ | ⟨rfl, hgiven, -⟩
  · exact ⟨_, f₂, _, exec_block_error hannounce, hmade₂, hcallees₂, .inl ⟨t, rfl⟩⟩
  rw [exec_block_normal hannounce]
  have hbean₂ : act.HoldsOther createdBean f₂ :=
    hbean.congr (hleads₂.keeps _ (by simp [createdBean, isAnnounced]))
  obtain ⟨⟨constructed, hleads₃, hconstructed⟩, -⟩ :=
    steps_construct hobs (c := c) (m := m) hbean₂
  have hends : (∃ t, (exec (act.block (c.construct m)) f₂).1 = .error t) ∨ _ := construct_ends f₂
  rcases hconstruct : exec (act.block (c.construct m)) f₂ with ⟨out, f₃⟩
  rw [hconstruct] at hleads₃ hends
  have hcallees₃ : ∀ e' ∈ opened ++ [e] ++ constructed, e'.callee ∈ c.stepCallees m := by
    refine List.forall_mem_append.2 ⟨hcallees₂, fun e' he' => ?_⟩
    simp [stepCallees, hconstructed e' he']
  refine ⟨out, f₃, _, rfl, hmade₂.trans (hleads₃.mono (by simp [constructionPlaces])), hcallees₃,
    hends.imp_right fun hout => ⟨hout, e, ?_, ?_⟩⟩
  · exact filter_announcement hopened hannounced hconstructed
  · -- What constructs the bean leaves the flag as the announcement has set it.
    rw [hleads₃.keeps _ (by simp [isAnnounced, created, createdKey])]
    exact hgiven

/-! ### Failures -/

omit hobs in
/-- A value that is thrown: if it is an object, that is the failure. -/
theorem exec_throw_value (hlogs : act.env.Logs log) {e : Expr} {v : Value}
    (he : exec (act.eval e) f = (.ok v, f')) :
    ∃ t f₂, exec (act.stmt (.throw e)) f = (.error t, f₂) ∧ Leads log [] f' [] f₂ ∧
      ∀ o, v = .object o → t = o := by
  have hfail : ∀ className, ∃ t f₂, exec (act.fail className : Run σ Flow) f' = (.error t, f₂) ∧
      Leads log [] f' [] f₂ := by
    intro className
    obtain ⟨t, w, hexec, hw⟩ := hlogs.fail (α := Flow) className f'.world
    exact ⟨t, ⟨f'.vars, w⟩, Run.exec_outside hexec, rfl, fun _ _ => rfl,
      by rw [List.append_nil]; exact hw⟩
  rw [stmt, exec_bind_ok he]
  cases v with
  | object o => exact ⟨o, f', exec_throw, .refl _ f', fun o' ho' => Value.object.inj ho'⟩
  | null =>
    obtain ⟨t, f₂, hexec, hleads⟩ := hfail Known.nullPointerException
    exact ⟨t, f₂, hexec, hleads, by simp⟩
  | _ =>
    obtain ⟨t, f₂, hexec, hleads⟩ := hfail Known.classCastException
    exact ⟨t, f₂, hexec, hleads, by simp⟩

end

/-- The failure is one of those declared. -/
def isDeclared (c : HomeContext) (m : HomeMethod) (isSubtype : String → String → Bool)
    (className : String) : Bool :=
  (c.applicationFailures m).any fun failure => isSubtype className failure.name

/-- The failure `t` is what callers get for the failure `thrown`, where the environment is left in
    the state `w` and has been asked by the calls `asked` for one to give instead. -/
structure AnswersWith (m : HomeMethod) (env : Environment σ) (covered : Bool)
    (thrown : ObjectRef) (w : σ) (asked : List CallEvent) (t : ObjectRef) : Prop where
  /-- A declared failure reaches the caller as it is. -/
  passed : covered = true → t = thrown
  /-- Remote callers get the failure to create in place of any other, -/
  remote : covered = false → m.isLocal = false → ∀ o w',
    exec (env.create Known.createFailureException [.named Known.throwable] [.object thrown]) w =
      (.ok (.object o), w') → t = o
  /-- and local callers get what the home makes of it. -/
  container : covered = false → m.isLocal = true → ∃ e, asked = [e] ∧ e.callee = replacement ∧
    e.args = [.object thrown] ∧ ∀ o, e.outcome = .ok (.object o) → t = o

/-- The handlers of a creating operation. -/
def creationCatches (c : HomeContext) (m : HomeMethod) : List Catch :=
  let flag := Stmt.assign hasFailed (.bool true)
  c.rethrow m [flag] ++ [.all "failure" fun e => [flag, .throw (undeclaredFailure m (.var e))]]

/-- A declared failure enters a handler that throws it again behind what it does before; no other
    failure enters one. -/
theorem find?_rethrow (c : HomeContext) (m : HomeMethod) (act : Activation σ) (before : Block)
    (thrown : ObjectRef) :
    (c.isDeclared m act.env.isSubtype thrown.className = true →
      ∃ h, (c.rethrow m before).find? (fun h => act.catches h.caught thrown) = some h ∧
        ∀ i, h.body i = before ++ [.throw (.var i)]) ∧
    (c.isDeclared m act.env.isSubtype thrown.className = false →
      (c.rethrow m before).find? (fun h => act.catches h.caught thrown) = none) := by
  have hcaught : ((fun h : Catch => act.catches h.caught thrown) ∘ fun failure : Ty =>
      Catch.ofFailure "createFailure" failure fun e => before ++ [.throw (.var e)]) =
      fun failure => act.env.isSubtype thrown.className failure.name := rfl
  rw [isDeclared, rethrow, List.find?_map, hcaught, List.any_eq_true, List.any_eq_false]
  refine ⟨fun hany => ?_, fun hnone => ?_⟩
  · obtain ⟨failure, hmem, hsub⟩ := hany
    have hsome : ((c.applicationFailures m).find? fun failure =>
        act.env.isSubtype thrown.className failure.name).isSome :=
      List.find?_isSome.2 ⟨failure, hmem, hsub⟩
    obtain ⟨first, hfirst⟩ := Option.isSome_iff_exists.1 hsome
    exact ⟨_, by rw [hfirst]; rfl, fun i => rfl⟩
  · rw [List.find?_eq_none.2 hnone]
    rfl

/-- What a handler does: it raises the flag, and ends with its failure or with another. -/
theorem find?_creationCatches (act : Activation σ) (thrown : ObjectRef) :
    ∃ h, (c.creationCatches m).find? (fun h => act.catches h.caught thrown) = some h ∧
      ∀ i, h.body i = [.assign hasFailed (.bool true), .throw
        (if c.isDeclared m act.env.isSubtype thrown.className then .var i
        else undeclaredFailure m (.var i))] := by
  obtain ⟨htaken, hpassed⟩ := c.find?_rethrow m act [.assign hasFailed (.bool true)] thrown
  rw [creationCatches, List.find?_append]
  cases hdeclared : c.isDeclared m act.env.isSubtype thrown.className with
  | false => exact ⟨_, by rw [hpassed hdeclared]; rfl, fun i => rfl⟩
  | true =>
    obtain ⟨h, hfind, hbody⟩ := htaken hdeclared
    exact ⟨h, by rw [hfind]; rfl, hbody⟩

section

variable (hobs : Observed act log)

include hobs

/-- What is thrown in place of a failure that is not declared. -/
theorem exec_throw_undeclared {i : Nat} {thrown : ObjectRef}
    (hi : f.vars.getD i .null = .object thrown) :
    ∃ t f' asked, exec (act.stmt (.throw (undeclaredFailure m (.var i)))) f = (.error t, f') ∧
      Leads log [] f asked f' ∧ (∀ e ∈ asked, e.callee = replacement) ∧
      AnswersWith m act.env false thrown f.world asked t := by
  have hargs : exec (act.evalAll [.var i]) f = (.ok [.object thrown], f) :=
    exec_evalAll_singleton (exec_eval_var.trans (by rw [hi]))
  -- A remote view makes the failure itself; a local view asks the instance for it.
  cases hlocal : m.isLocal
  · have hworld := hobs.logs.create Known.createFailureException [.named Known.throwable]
      [.object thrown] f.world
    rcases hcreate : exec (act.env.create Known.createFailureException [.named Known.throwable]
      [.object thrown]) f.world with ⟨out, w⟩
    rw [hcreate] at hworld
    have hleads : Leads log [] f [] ⟨f.vars, w⟩ :=
      ⟨rfl, fun _ _ => rfl, by rw [List.append_nil]; exact hworld⟩
    have heval : exec (act.eval (undeclaredFailure m (.var i))) f = (out, ⟨f.vars, w⟩) := by
      rw [undeclaredFailure, if_neg (by simp [hlocal]), failureToCreate, exec_eval_new hargs]
      exact Run.exec_outside hcreate
    rcases out with t | v
    · refine ⟨t, _, [], exec_stmt_throw_error heval, hleads, by simp, by simp, ?_, by simp [hlocal]⟩
      rintro - - o w' h
      rw [hcreate] at h
      cases h
    · obtain ⟨t, f₂, hthrow, hleads', ht⟩ := exec_throw_value hobs.logs heval
      refine ⟨t, f₂, _, hthrow, hleads.trans hleads', by simp, by simp, ?_, by simp [hlocal]⟩
      rintro - - o w' h
      rw [hcreate] at h
      cases h
      exact ht o rfl
  · obtain ⟨out, w, hexec, hlog, -⟩ := exec_inherited hobs "newCreateFailureException" true
      [.named Known.throwable] (.named Known.ejbException) hargs
    have hleads : Leads log [] f [_] ⟨f.vars, w⟩ := ⟨rfl, fun _ _ => rfl, hlog⟩
    have heval : exec (act.eval (undeclaredFailure m (.var i))) f = (out, ⟨f.vars, w⟩) := by
      rw [undeclaredFailure, if_pos hlocal]
      exact hexec
    rcases out with t | v
    · refine ⟨t, _, _, exec_stmt_throw_error heval, hleads, by simp [replacement], by simp,
        by simp [hlocal], fun _ _ => ⟨_, rfl, rfl, rfl, by simp⟩⟩
    · obtain ⟨t, f₂, hthrow, hleads', ht⟩ := exec_throw_value hobs.logs heval
      refine ⟨t, f₂, _, hthrow, hleads.trans hleads', by simp [replacement], by simp,
        by simp [hlocal], fun _ _ => ⟨_, rfl, rfl, rfl, fun o ho => ?_⟩⟩
      exact ht o (Except.ok.inj ho)

/-- A handler that is entered raises the flag, and ends with what the caller gets. -/
theorem exec_entered (covered : Bool) {i : Nat} {thrown : ObjectRef} (hplace : hasFailed ≠ i)
    (hlength : hasFailed < f.vars.length) (hi : f.vars.getD i .null = .object thrown) :
    ∃ t f' asked, exec (act.block [.assign hasFailed (.bool true),
        .throw (if covered then .var i else undeclaredFailure m (.var i))]) f = (.error t, f') ∧
      Leads log [hasFailed] f asked f' ∧ f'.vars.getD hasFailed .null = .bool true ∧
      (∀ e ∈ asked, e.callee = replacement) ∧
      AnswersWith m act.env covered thrown f.world asked t := by
  let f₁ : Frame σ := ⟨f.vars.set hasFailed (.bool true), f.world⟩
  have hraise : exec (act.stmt (.assign hasFailed (.bool true))) f = (.ok .normal, f₁) :=
    exec_stmt_assign exec_eval_const
  have hleads₁ : Leads log [hasFailed] f [] f₁ :=
    Leads.set (.refl _ f) (List.mem_singleton_self _) _
  have hi₁ : f₁.vars.getD i .null = .object thrown := (getD_set_ne hplace).trans hi
  obtain ⟨t, f', asked, hthrow, hleads, hasked, hanswers⟩ : ∃ t f' asked,
      exec (act.stmt (.throw (if covered then .var i else undeclaredFailure m (.var i)))) f₁ =
        (.error t, f') ∧ Leads log [] f₁ asked f' ∧ (∀ e ∈ asked, e.callee = replacement) ∧
      AnswersWith m act.env covered thrown f.world asked t := by
    cases covered
    · exact exec_throw_undeclared hobs hi₁
    · refine ⟨thrown, f₁, [], exec_stmt_throw (exec_eval_var.trans (by rw [hi₁])), .refl _ f₁,
        by simp, fun _ => rfl, by simp, by simp⟩
  refine ⟨t, f', asked, (exec_block_normal hraise).trans (exec_block_singleton.trans hthrow),
    hleads₁.trans (hleads.mono (List.nil_subset _)), ?_, hasked, hanswers⟩
  rw [hleads.keeps _ List.not_mem_nil]
  exact getD_set hlength

/-! ### The reports -/

/-- The report that the flags ask for. -/
def reportsFor (failed announced : Bool) : List Callee :=
  if failed then [failureReport] else if announced then [completionReport] else []

/-- A report is one call. -/
theorem exec_report (name : String) (f : Frame σ) :
    ∃ out f' e, exec (act.block [.eval (inherited name false [.named Known.beanContext] .void
        [.var createdContext])]) f = (out, f') ∧ log f'.world = log f.world ++ [e] ∧
      e.callee = report name ∧ (e.Returned → out = .ok .normal) := by
  obtain ⟨out, f', e, hexec, hleads, hcallee, -, hend⟩ := exec_stmt_inherited hobs name false
    [.named Known.beanContext] .void (f := f) (exec_evalAll_singleton exec_eval_var)
  refine ⟨out, f', e, exec_block_singleton.trans hexec, hleads.logged, hcallee, fun h => ?_⟩
  rcases hend with ⟨t, -, ht⟩ | ⟨hout, -⟩
  · exact absurd ht h.outcome_ne
  · exact hout

/-- The end reports as the flags say, and completes if the report has returned. -/
theorem exec_endCreation (f : Frame σ) :
    ∃ out f' reported, exec (act.block endCreation) f = (out, f') ∧
      log f'.world = log f.world ++ reported ∧
      reported.map (·.callee) = reportsFor (f.vars.getD hasFailed .null).isTrue
        (f.vars.getD isAnnounced .null).isTrue ∧
      ((∀ e ∈ reported, e.Returned) → out = .ok .normal) := by
  rw [endCreation, exec_block_singleton, exec_stmt_cond (exec_test_isTrue exec_eval_var),
    reportsFor]
  have hreport : ∀ name, ∃ out f' reported, exec (act.block [.eval (inherited name false
      [.named Known.beanContext] .void [.var createdContext])]) f = (out, f') ∧
      log f'.world = log f.world ++ reported ∧ reported.map (·.callee) = [report name] ∧
      ((∀ e ∈ reported, e.Returned) → out = .ok .normal) := by
    intro name
    obtain ⟨out, f', e, hexec, hlog, hcallee, hreturned⟩ := exec_report hobs name f
    exact ⟨out, f', [e], hexec, hlog, by simp [hcallee], fun h => hreturned (h e (by simp))⟩
  cases (f.vars.getD hasFailed .null).isTrue
  · simp only [Bool.false_eq_true, if_false]
    rw [exec_block_singleton, exec_stmt_cond (exec_test_isTrue exec_eval_var)]
    cases (f.vars.getD isAnnounced .null).isTrue
    · exact ⟨_, f, [], exec_block_nil, (List.append_nil _).symm, rfl, fun _ => rfl⟩
    · exact hreport "afterPostCreateCompletion"
  · exact hreport "createFailure"

end

/-! ### Runs -/

/-- The frame in which the construction starts. -/
def creationFrame (c : HomeContext) (m : HomeMethod) (w : σ) : Frame σ :=
  ⟨(((((c.create m).vars.map fun v => Value.zero v.type).set created .null).set createdContext
    .null).set hasFailed (.bool false)).set isAnnounced (.bool false), w⟩

/-- How a creating operation ends whose construction has ended as `constructed` in the state `w`,
    after the calls `steps`, and before the calls `after`. -/
structure CreationProtocol (c : HomeContext) (m : HomeMethod) (env : Environment σ)
    (constructed : Except ObjectRef Flow) (w : σ) (steps after : List CallEvent)
    (out : Except ObjectRef Value) : Prop where
  /-- The steps are calls of the methods that open, announce and construct the bean, -/
  asked : ∀ e ∈ steps, e.callee ∈ c.stepCallees m
  /-- and if one of them fails, then the construction fails with this. -/
  passed : ∀ e ∈ steps, ∀ thrown, e.outcome = .error thrown → constructed = .error thrown
  /-- The construction fails or comes to its end. -/
  ends : (∃ thrown, constructed = .error thrown) ∨ constructed = .ok .normal
  /-- If it fails, this is reported once, and nothing is completed. -/
  failed : ∀ thrown, constructed = .error thrown →
    (steps ++ after).countP (·.callee = failureReport) = 1 ∧
      (steps ++ after).countP (·.callee = completionReport) = 0
  /-- If not, no failure is reported, and the creation is completed once if the announcement, which
      has been made once, has said so, and else never. -/
  completed : constructed = .ok .normal →
    (steps ++ after).countP (·.callee = failureReport) = 0 ∧
      ∃ e v, steps.filter (·.callee = announcement) = [e] ∧ e.outcome = .ok v ∧
        (steps ++ after).countP (·.callee = completionReport) = if v.isTrue then 1 else 0
  /-- A bean that has been completed is returned. -/
  returned : constructed = .ok .normal → (∀ e ∈ after, e.Returned) → ∃ v, out = .ok v
  /-- A failure reaches the caller, or another one in its place. -/
  answered : ∀ thrown, constructed = .error thrown → (∀ e ∈ after, e.Returned) →
    ∃ t asked reported, out = .error t ∧ after = asked ++ [reported] ∧
      AnswersWith m env (c.isDeclared m env.isSubtype thrown.className) thrown w asked t

/-- The place of the first variable of a handler. -/
def firstHandler (c : HomeContext) : Nat := if c.isEntity then 6 else 5

theorem block_create (c : HomeContext) (m : HomeMethod) : (c.create m).block =
    [.assign created .null, .assign createdContext .null, .assign hasFailed (.bool false),
      .assign isAnnounced (.bool false)] ++
    [.region (c.construction m) (Catch.handlers c.firstHandler (c.creationCatches m))
        (some ⟨none, endCreation⟩), .ret (some (.var created))] := by
  rw [create, firstHandler]
  cases hentity : c.isEntity <;> simp [construction, construct, creationCatches, hentity]

theorem length_creationFrame (c : HomeContext) (m : HomeMethod) (w : σ) :
    (c.creationFrame m w).vars.length = c.firstHandler + (c.creationCatches m).length := by
  simp only [creationFrame, List.length_set, List.length_map, create, firstHandler]
  cases c.isEntity <;> simp [creationCatches] <;> omega

/-- The flags and the first places are cleared. -/
theorem exec_clear (act : Activation σ) (c : HomeContext) (m : HomeMethod) (w : σ) :
    exec (act.block [.assign created .null, .assign createdContext .null,
      .assign hasFailed (.bool false), .assign isAnnounced (.bool false)])
      ⟨(c.create m).vars.map fun v => Value.zero v.type, w⟩ =
        (.ok .normal, c.creationFrame m w) := by
  have hstep : ∀ i l rest (f : Frame σ), exec (act.block (.assign i (.const l) :: rest)) f =
      exec (act.block rest) ⟨f.vars.set i (.ofLiteral l), f.world⟩ :=
    fun i l rest f => exec_block_normal (exec_stmt_assign exec_eval_const)
  exact (hstep created .null _ _).trans <| (hstep createdContext .null _ _).trans <|
    (hstep hasFailed (.bool false) _ _).trans <| (hstep isAnnounced (.bool false) _ _).trans
      exec_block_nil

section

variable (hobs : Observed act log)

include hobs

/-- The construction with its handlers: a failure enters the one that leads to what the caller
    gets, and raises the flag. -/
theorem exec_settled (w : σ) :
    let started := exec (act.block (c.construction m)) (c.creationFrame m w)
    ∃ out f' steps asked, exec (act.handle (act.block (c.construction m))
        (Catch.handlers c.firstHandler (c.creationCatches m))) (c.creationFrame m w) = (out, f') ∧
      log started.2.world = log w ++ steps ∧ log f'.world = log started.2.world ++ asked ∧
      (∀ e ∈ steps, e.callee ∈ c.stepCallees m) ∧
      (∀ e ∈ steps, ∀ thrown, e.outcome = .error thrown → started.1 = .error thrown) ∧
      (∀ e ∈ asked, e.callee = replacement) ∧
      ((∃ thrown t, started.1 = .error thrown ∧ out = .error t ∧
        f'.vars.getD hasFailed .null = .bool true ∧
        AnswersWith m act.env (c.isDeclared m act.env.isSubtype thrown.className) thrown
          started.2.world asked t) ∨
      started.1 = .ok .normal ∧ out = .ok .normal ∧ asked = [] ∧
        f'.vars.getD hasFailed .null = .bool false ∧
        ∃ e, steps.filter (·.callee = announcement) = [e] ∧
          e.outcome = .ok (f'.vars.getD isAnnounced .null)) := by
  intro started
  have hlength := c.length_creationFrame m w
  have hplaces : isAnnounced < c.firstHandler ∧ hasFailed < c.firstHandler := by
    rw [firstHandler]
    cases c.isEntity <;> decide
  have hcleared : (c.creationFrame m w).vars.getD hasFailed .null = .bool false := by
    rw [creationFrame, getD_set_ne (by decide)]
    refine getD_set ?_
    simp only [creationFrame, List.length_set] at hlength ⊢
    omega
  obtain ⟨out, f₁, steps, hexec, hleads, hcallees, hend⟩ :=
    exec_construction hobs (c := c) (m := m) (f := c.creationFrame m w) (by omega)
  have hstarted : started = (out, f₁) := hexec
  have hpasses : PassesOn log _ started :=
    passesOn_construction hobs (by
      simp only [isAnnounced, createdBean] at hplaces ⊢
      omega)
  have hflag : f₁.vars.getD hasFailed .null = .bool false := by
    rw [hleads.keeps _ (by decide), hcleared]
  rw [hstarted] at hpasses ⊢
  have hpassed := hpasses.eq_error hleads.logged
  -- Every failure has a handler, since the last one takes all.
  rcases hend with ⟨thrown, rfl⟩ | ⟨rfl, e, hannounced, hgiven⟩
  · obtain ⟨h, hfind, hbody⟩ := c.find?_creationCatches (m := m) act thrown
    obtain ⟨i, hfirst, hi, hentered⟩ := exec_firstHandler_find hfind c.firstHandler f₁
    have hlength₁ : f₁.vars.length = (c.creationFrame m w).vars.length := hleads.length
    obtain ⟨t, f₂, asked, hanswer, hleads₂, hraised, hasked, hanswers⟩ :=
      exec_entered hobs (m := m) (c.isDeclared m act.env.isSubtype thrown.className)
        (f := ⟨f₁.vars.set i (.object thrown), f₁.world⟩) (i := i) (by omega)
        (by simp only [List.length_set]; omega) (getD_set (by omega))
    refine ⟨_, f₂, steps, asked, (exec_handle_error hexec).trans (hentered.trans ?_),
      hleads.logged, hleads₂.logged, hcallees, hpassed, hasked,
      .inl ⟨thrown, t, rfl, rfl, hraised, hanswers⟩⟩
    rw [hbody i]
    exact hanswer
  · exact ⟨_, f₁, steps, [], exec_handle_ok hexec, hleads.logged, (List.append_nil _).symm,
      hcallees, hpassed, by simp, .inr ⟨rfl, rfl, rfl, hflag, e, hannounced, hgiven⟩⟩

omit hobs in
/-- Reports are made at the end only. -/
theorem countP_report {steps asked reported : List CallEvent} {callee : Callee}
    (hsteps : ∀ e ∈ steps, e.callee ∈ c.stepCallees m)
    (hasked : ∀ e ∈ asked, e.callee = replacement)
    (hcallee : callee = failureReport ∨ callee = completionReport) :
    (steps ++ (asked ++ reported)).countP (·.callee = callee) =
      (reported.map (·.callee)).countP (· = callee) := by
  have hnone : steps.countP (·.callee = callee) = 0 ∧ asked.countP (·.callee = callee) = 0 := by
    refine ⟨List.countP_eq_zero.2 fun e he => ?_, List.countP_eq_zero.2 fun e he => ?_⟩
    · obtain ⟨hfailure, hcompletion⟩ := ne_report_of_mem_stepCallees c m (hsteps e he)
      rcases hcallee with rfl | rfl
      · simpa using hfailure
      · simpa using hcompletion
    · rw [hasked e he]
      rcases hcallee with rfl | rfl <;> decide
  rw [List.countP_append, List.countP_append, hnone.1, hnone.2, List.countP_map, Nat.zero_add,
    Nat.zero_add]
  rfl

/-- A run of the body, by what the construction comes to. -/
theorem exec_create (w : σ) :
    let started := exec (act.block (c.construction m)) (c.creationFrame m w)
    ∃ out f' steps after, exec (act.block (c.create m).block)
        ⟨(c.create m).vars.map fun v => Value.zero v.type, w⟩ = (out, f') ∧
      log started.2.world = log w ++ steps ∧ log f'.world = log started.2.world ++ after ∧
      CreationProtocol c m act.env started.1 started.2.world steps after
        (Blueprint.resultOf out) := by
  intro started
  obtain ⟨out, f₁, steps, asked, hhandle, hsteps, hasked, hcallees, hpassed, hreplaced, hend⟩ :=
    exec_settled hobs (c := c) (m := m) w
  obtain ⟨concluded, f₂, reported, hreport, hreported, hmap, hnormal⟩ := exec_endCreation hobs f₁
  obtain ⟨final, hfinal, hends, -⟩ :=
    exec_region_ret (some created) hhandle Run.exec_setVar?_none hreport
  have hcount : ∀ callee, callee = failureReport ∨ callee = completionReport →
      (steps ++ (asked ++ reported)).countP (·.callee = callee) =
        (reported.map (·.callee)).countP (· = callee) :=
    fun _ => countP_report hcallees hreplaced
  refine ⟨final, f₂, steps, asked ++ reported, ?_, hsteps, ?_, ?_⟩
  · rw [block_create, exec_block_append (exec_clear act c m w)]
    exact hfinal
  · rw [hreported, hasked, List.append_assoc]
  rcases hend with ⟨thrown, t, hfails, rfl, hraised, hanswers⟩ |
    ⟨hcompletes, rfl, rfl, hlowered, e, hannounced, hgiven⟩
  · have hreports : reported.map (·.callee) = [failureReport] := by
      rw [hmap, hraised]
      rfl
    -- A handler has raised the flag, so the one report is that of the failure.
    refine ⟨hcallees, hpassed, .inl ⟨thrown, hfails⟩, fun _ _ => ?_, fun h => ?_, fun h => ?_,
      fun thrown' h hall => ?_⟩
    · rw [hcount _ (.inl rfl), hcount _ (.inr rfl), hreports]
      exact ⟨by decide, by decide⟩
    · exact absurd (hfails.symm.trans h) (by simp)
    · exact absurd (hfails.symm.trans h) (by simp)
    · cases hfails.symm.trans h
      obtain ⟨e, rfl, -⟩ := List.map_eq_singleton_iff.1 hreports
      have hconcluded := hnormal fun e he => hall e (List.mem_append_right _ he)
      exact ⟨t, asked, e, hends hconcluded, rfl, hanswers⟩
  · have hreports : reported.map (·.callee) =
        if (f₁.vars.getD isAnnounced .null).isTrue then [completionReport] else [] := by
      rw [hmap, hlowered]
      rfl
    -- No handler has been entered, and what the announcement gave decides on the report.
    refine ⟨hcallees, hpassed, .inr hcompletes, fun _ h => ?_, fun _ => ?_, fun _ hall => ?_,
      fun _ h => ?_⟩
    · exact absurd (hcompletes.symm.trans h) (by simp)
    · rw [hcount _ (.inl rfl), hcount _ (.inr rfl), hreports]
      refine ⟨?_, e, _, hannounced, hgiven, ?_⟩ <;>
        cases (f₁.vars.getD isAnnounced .null).isTrue <;> decide
    · exact hends (hnormal fun e he => hall e (List.mem_append_right _ he))
    · exact absurd (hcompletes.symm.trans h) (by simp)

end

/-- A home is not a superclass of itself. -/
theorem factoryName_ne_home (r : Request) : r.factoryName ≠ Known.home := by
  have hsuffix : "_HomeImpl".toList <:+ r.factoryName.toList := by
    rw [Request.factoryName, Request.qualify]
    cases r.package?
    · rw [Dotted.qualify, String.toList_append]
      exact List.suffix_append _ _
    · rw [Dotted.qualify, ← String.append_assoc, String.toList_append]
      exact List.suffix_append _ _
  intro h
  rw [h] at hsuffix
  exact absurd hsuffix (by decide)

/-- How a creating operation of a home ends, whatever the environment does. -/
theorem create_run {env : Environment σ} {this : ObjectRef}
    (hcreates : HomeOperation.ofName m.op.name = .create)
    (hstateful : c.request.componentType ≠ .stateless) (hlogs : env.Logs log)
    (hothers : env.HandsOutOthers this) (args : List Value) (w : σ) :
    let act := c.blueprint.activation env this (Blueprint.maxDepth - 1) args
    let started := exec (act.block (c.construction m)) (c.creationFrame m w)
    ∃ out w' steps after, exec (c.blueprint.run env this (c.method m) args) w = (out, w') ∧
      log started.2.world = log w ++ steps ∧ log w' = log started.2.world ++ after ∧
      CreationProtocol c m env started.1 started.2.world steps after out := by
  intro act started
  have hobs : Observed act log := by
    refine ⟨hlogs, hothers, fun callee hkind howner => ?_⟩
    have hnone : c.blueprint.ownMethod? callee = none := by
      rw [Blueprint.ownMethod?, if_pos ⟨hkind, howner ▸ (factoryName_ne_home c.request).symm⟩]
    show (c.blueprint.ownMethod? callee).map _ = none
    rw [hnone]
    rfl
  have hbody : (c.method m).body = some (c.create m) := by
    simp [method, body, hcreates, hstateful]
  obtain ⟨out, f', steps, after, hexec, hsteps, hafter, hprotocol⟩ :=
    exec_create hobs (c := c) (m := m) w
  exact ⟨_, f'.world, steps, after, Blueprint.exec_runMethod hbody hexec, hsteps, hafter, hprotocol⟩

/-! ### A cart -/

/-- The local home of a stateful session. -/
def cartHome : HomeContext where
  request := {
    component := "Cart"
    kind := .factoryLocal
    componentType := .stateful
    bean := { className := "acme.CartBean", methods := [{ name := "ejbCreate" }] } }
  hierarchy := .standard
  policy := {}

/-- The operation of a home that creates shopping carts. -/
def createCart : HomeMethod where
  op := { name := "create", result := .named "acme.CartLocal",
          throws := [.named Known.createException], owner := "acme.CartHome" }
  isLocal := true

theorem create_run_cart :
    let env := (failingAt "ejbCreate" ⟨2, Known.createException⟩).logged
    let this : ObjectRef := ⟨0, "acme.Cart_HomeImpl"⟩
    let act := cartHome.blueprint.activation env this (Blueprint.maxDepth - 1) []
    let started := exec (act.block (cartHome.construction createCart))
      (cartHome.creationFrame createCart (0, []))
    HomeOperation.ofName createCart.op.name = .create ∧
      cartHome.request.componentType ≠ .stateless ∧ env.Logs Prod.snd ∧
      env.HandsOutOthers this ∧
      ∃ out w' steps after,
        exec (cartHome.blueprint.run env this (cartHome.method createCart) []) (0, []) =
          (out, w') ∧
        started.2.world.2 = steps ∧ w'.2 = started.2.world.2 ++ after ∧
        CreationProtocol cartHome createCart env started.1 started.2.world steps after out := by
  intro env this act started
  have hcreates : HomeOperation.ofName createCart.op.name = .create := by decide
  have hstateful : cartHome.request.componentType ≠ .stateless := by decide
  have hlogs := Environment.logs_logged (failingAt "ejbCreate" ⟨2, Known.createException⟩)
  have hothers : env.HandsOutOthers this := (apart_failingAt _ _ _).handsOutOthers
  obtain ⟨out, w', steps, after, hrun, hsteps, hafter, hprotocol⟩ :=
    create_run (m := createCart) hcreates hstateful hlogs hothers [] (0, [])
  exact ⟨hcreates, hstateful, hlogs, hothers, out, w', steps, after, hrun, hsteps, hafter,
    hprotocol⟩

/-- The construction fails behind the announcement, and this is reported. -/
example : (exec (cartHome.blueprint.run
      (failingAt "ejbCreate" ⟨2, Known.createException⟩).logged ⟨0, "acme.Cart_HomeImpl"⟩
      (cartHome.method createCart) []) (0, [])).2.2.map (·.callee.name) =
    ["createBeanO", "getBeanInstance", "preEjbCreate", "ejbCreate", "createFailure"] := by
  decide

end HomeContext

end ComponentViews
