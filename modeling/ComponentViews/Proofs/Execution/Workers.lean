import ComponentViews.Proofs.Execution.Loans

/-!
# Operations that lend workers

The operations of a home that find beans or do the home's own business run their lendings
(`WorkerPool.Lending`), whatever the pool, the bean and the environment do:

* `exec_use`: a worker is asked for, its bean is called, and the worker is given back;
* `exec_recovery`: a failure of this enters the handler for it, which gives the worker back, and
  behind the handlers the exit throws away what is still held;
* `exec_useWorker`: both together are a loan.

So every run lends one worker at most (`lending_run`), and what is known of lendings holds of the
runs (`worker_run`, `handed_run`).
-/

namespace ComponentViews

open Effect Activation

/-- The methods behind the operations of a home are not those of a bean context. -/
theorem HomeOperation.entityMethod_ne_beanInstance (name : String) :
    entityMethod name ≠ Hook.beanInstance.name := by
  intro h
  have h := congrArg String.toList h
  rw [entityMethod] at h
  split at h <;> simp [String.toList_append, Hook.beanInstance] at h

namespace HomeContext

open WorkerPool
open Environment (failingAt apart_failingAt)

variable {c : HomeContext} {m : HomeMethod} {p : WorkerPool} {σ : Type} {act : Activation σ}
  {log : σ → List CallEvent} {f f' : Frame σ} {worker bean : Nat} {name : String}
  {keepIn : Option Nat} {result : Ty} {t : ObjectRef}

/-! ### Loans -/

section

variable (hobs : Observing act log [p.acquisition, Hook.beanInstance.callee])

include hobs

/-- The worker in a variable is given back, and then the variable holds none. -/
theorem exec_giveBack (hlength : worker < f.vars.length) :
    ∃ out f' back, exec (act.block [.eval (p.releaseExpr worker), .assign worker .null]) f =
        (out, f') ∧ Leads log [worker] f [back] f' ∧ back.callee = p.giveBack ∧
      back.args = [f.vars.getD worker .null] ∧
      ((∃ t, out = .error t ∧ back.outcome = .error t ∧
        f'.vars.getD worker .null = f.vars.getD worker .null) ∨
      out = .ok .normal ∧ back.Returned ∧ f'.vars.getD worker .null = .null) := by
  obtain ⟨out, f₁, back, hexec, hleads, hcallee, hargs, hend⟩ := exec_stmt_inherited hobs p.release
    false [.named Known.entityBeanContext] .void (f := f) (exec_evalAll_singleton exec_eval_var)
  have hleads₁ : Leads log [worker] f [back] f₁ := hleads.mono (List.nil_subset _)
  rcases hend with ⟨t, rfl, ht⟩ | ⟨rfl, htaken⟩
  · exact ⟨_, f₁, back, exec_block_error hexec, hleads₁, hcallee, hargs,
      .inl ⟨t, rfl, ht, hleads.keeps _ List.not_mem_nil⟩⟩
  · refine ⟨_, _, back, ?_, hleads₁.set (List.mem_singleton_self worker) .null, hcallee, hargs,
      .inr ⟨rfl, htaken, ?_⟩⟩
    · exact (exec_block_normal hexec).trans <|
        (exec_block_normal (exec_stmt_assign exec_eval_const)).trans exec_block_nil
    · exact getD_set (by rw [hleads.length]; exact hlength)

/-- The method of the bean is called, once at most. -/
theorem exec_callBean (hbean : act.HoldsOther bean f) (name : String) (result : Ty)
    (keepIn : Option Nat) :
    ∃ out f' called, exec (act.stmt (.keep keepIn (c.beanCall m bean name result))) f = (out, f') ∧
      Leads log keepIn.toList f called f' ∧
      (∀ e ∈ called, called = [e] ∧ e.callee = c.beanCallee m name result) ∧
      ((∃ t, out = .error t ∧ ∀ e ∈ called, e.outcome = .error t) ∨
        out = .ok .normal ∧ ∀ e ∈ called, e.Returned) := by
  obtain ⟨out, w, called, hexec, hlog, hcalled⟩ :=
    exec_beanCall hobs (c := c) (m := m) hbean name result
  have hleads : Leads log keepIn.toList f called ⟨f.vars, w⟩ := ⟨rfl, fun _ _ => rfl, hlog⟩
  have hcallee : ∀ e ∈ called, called = [e] ∧ e.callee = c.beanCallee m name result :=
    fun e he => ⟨(hcalled e he).1, (hcalled e he).2.1⟩
  rcases out with t | v
  · refine ⟨_, _, called, ?_, hleads, hcallee, .inl ⟨t, rfl, fun e he => (hcalled e he).2.2⟩⟩
    cases keepIn
    · exact exec_stmt_eval_error hexec
    · exact exec_stmt_assign_error hexec
  · have hreturned : ∀ e ∈ called, e.Returned := fun e he => ⟨v, (hcalled e he).2.2⟩
    cases keepIn
    · exact ⟨_, _, called, exec_stmt_eval hexec, hleads, hcallee, .inr ⟨rfl, hreturned⟩⟩
    · exact ⟨_, _, called, exec_stmt_assign hexec, hleads.set (by simp) v, hcallee,
        .inr ⟨rfl, hreturned⟩⟩

/-- The bean of the worker is asked for, and does its work. -/
theorem exec_useBean (result : Ty) (keepIn : Option Nat) (hlength : bean < f.vars.length)
    (hworker : act.HoldsOther worker f) :
    let method := c.beanCallee m (HomeOperation.entityMethod m.op.name) result
    ∃ out f' called, exec (act.block [.assign bean (c.beanIn worker),
        .keep keepIn (c.beanCall m bean (HomeOperation.entityMethod m.op.name) result)]) f =
          (out, f') ∧
      Leads log (bean :: keepIn.toList) f called f' ∧ (∀ e ∈ called, p.Aside e.callee) ∧
      ((∃ t, out = .error t ∧ ∀ e ∈ called, e.callee = method →
        e.outcome = .error t ∧ ∃ before, called = before ++ [e]) ∨
      out = .ok .normal ∧ ∀ e ∈ called, e.callee = method → e.Returned) := by
  intro method
  -- Asking for the bean is not the work, since no method for an operation has that name.
  have hne : Hook.beanInstance.callee ≠ method := fun h =>
    HomeOperation.entityMethod_ne_beanInstance _ (congrArg Callee.name h).symm
  obtain ⟨out, f₁, hobtain, ⟨asked, hleads₁, hasked⟩, hend⟩ :=
    exec_obtainBean hobs (c := c) (by simp) hlength hworker
  have hasked : ∀ e ∈ asked, e.callee = Hook.beanInstance.callee :=
    fun e he => List.mem_singleton.1 (hasked e he)
  have haside₁ : ∀ e ∈ asked, p.Aside e.callee :=
    fun e he => aside_of_virtual (by rw [hasked e he]; rfl)
  have hnot : ∀ e ∈ asked, e.callee ≠ method := fun e he => hasked e he ▸ hne
  rcases hend with ⟨t, rfl⟩ | ⟨rfl, hbean⟩
  · exact ⟨_, f₁, asked, exec_block_error hobtain, hleads₁.mono (by simp), haside₁,
      .inl ⟨t, rfl, fun e he hcallee => absurd hcallee (hnot e he)⟩⟩
  obtain ⟨out, f₂, called, hcall, hleads₂, hcalled, hend⟩ :=
    exec_callBean hobs (c := c) (m := m) hbean (HomeOperation.entityMethod m.op.name) result keepIn
  refine ⟨out, f₂, asked ++ called, ?_, (hleads₁.mono (by simp)).trans (hleads₂.mono (by simp)),
    ?_, ?_⟩
  · rw [exec_block_normal hobtain, exec_block_singleton, hcall]
  · exact List.forall_mem_append.2 ⟨haside₁, fun e he => aside_of_virtual (by
      rw [(hcalled e he).2]; rfl)⟩
  have hmem : ∀ e ∈ asked ++ called, e.callee = method → e ∈ called := fun e he hcallee =>
    (List.mem_append.1 he).resolve_left fun he => hnot e he hcallee
  rcases hend with ⟨t, rfl, hfailed⟩ | ⟨rfl, hreturned⟩
  · refine .inl ⟨t, rfl, fun e he hcallee => ?_⟩
    have he := hmem e he hcallee
    exact ⟨hfailed e he, asked, by rw [← (hcalled e he).1]⟩
  · exact .inr ⟨rfl, fun e he hcallee => hreturned e (hmem e he hcallee)⟩

/-- A worker is used, up to where handlers come in. -/
theorem exec_use (result : Ty) {first : Nat} (hlength : first + 1 < f.vars.length)
    (hkeep : ∀ i ∈ keepIn, i < first) (hnull : f.vars.getD first .null = .null) :
    ∃ out f' events, exec (act.block [.assign first p.acquireExpr,
        .assign (first + 1) (c.beanIn first),
        .keep keepIn (c.beanCall m (first + 1) (HomeOperation.entityMethod m.op.name) result),
        .eval (p.releaseExpr first), .assign first .null]) f = (out, f') ∧
      Leads log (first :: (first + 1) :: keepIn.toList) f events f' ∧
      Use p (c.beanCallee m (HomeOperation.entityMethod m.op.name) result) events out
        (f'.vars.getD first .null) := by
  -- Acquiring, using and giving back may each fail, and each leaves the worker elsewhere.
  obtain ⟨out, f₁, e, hacquire, hleads₁, hcallee, hend⟩ := exec_assign_inherited hobs p.acquire
    false [] (.named Known.entityBeanContext) (f := f) exec_evalAll_nil (i := first) (by omega)
  have hmade₁ : Leads log (first :: (first + 1) :: keepIn.toList) f [e] f₁ :=
    hleads₁.mono (by simp)
  rcases hend with ⟨t, rfl, ht, hvars⟩ | ⟨rfl, hgiven, hother⟩
  · refine ⟨_, f₁, [e], exec_block_error hacquire, hmade₁, ?_⟩
    rw [hvars, hnull]
    exact .refused hcallee ht
  have hlength₁ : first + 1 < f₁.vars.length := hleads₁.length ▸ hlength
  obtain ⟨out, f₂, called, huse, hleads₂, haside, hend⟩ := exec_useBean hobs (c := c) (m := m)
    result keepIn hlength₁ (hother (by simp [acquisition]))
  have hmade₂ := hmade₁.trans (hleads₂.mono (by simp))
  have hheld : f₂.vars.getD first .null = f₁.vars.getD first .null := by
    refine hleads₂.keeps _ fun h => ?_
    rcases List.mem_cons.1 h with h | h
    · omega
    · exact absurd (hkeep _ (Option.mem_toList.1 h)) (lt_irrefl _)
  rcases hend with ⟨t, rfl, hrelays⟩ | ⟨rfl, hreturned⟩
  · refine ⟨_, f₂, _, (exec_block_normal hacquire).trans
      (exec_block_append_of_ne_normal huse (by simp)), hmade₂, ?_⟩
    exact .failed hcallee (hheld ▸ hgiven) haside hrelays
  have hfirst : first < f₂.vars.length := by
    rw [hmade₂.length]
    omega
  obtain ⟨out, f₃, back, hgive, hleads₃, hback, hargs, hend⟩ := exec_giveBack hobs hfirst
  have hmade₃ := hmade₂.trans (hleads₃.mono (by simp))
  refine ⟨out, f₃, _, (exec_block_normal hacquire).trans ((exec_block_append huse).trans hgive),
    hmade₃, ?_⟩
  rw [hheld] at hargs
  rcases hend with ⟨t, rfl, ht, hkept⟩ | ⟨rfl, htaken, hnull⟩
  · rw [hkept, hheld]
    exact .kept hcallee hgiven haside hreturned hback hargs ht
  · rw [hnull]
    exact .done hcallee hgiven haside hreturned hback hargs htaken

/-- At the exit of a region that has failed, a worker that is still held is thrown away. -/
theorem exec_exit_failed {region : Run σ Flow} (hregion : exec region f = (.error t, f')) :
    ∃ t' f'' events, exec (act.exitBlock region (some ⟨none,
        [.cond (.notNull (.var worker)) [.eval (p.discardExpr worker)] []]⟩)) f =
          (.error t', f'') ∧
      log f''.world = log f'.world ++ events ∧
      Exit p (f'.vars.getD worker .null) t events t' := by
  have htest : exec (act.test (.notNull (.var worker))) f' =
      (.ok (!(f'.vars.getD worker .null).isNull), f') := exec_test_notNull exec_eval_var
  have hexit : exec (act.block [.cond (.notNull (.var worker)) [.eval (p.discardExpr worker)] []])
      f' = exec (act.block (if !(f'.vars.getD worker .null).isNull then
        [.eval (p.discardExpr worker)] else [])) f' :=
    exec_block_singleton.trans (exec_stmt_cond htest)
  cases hnull : (f'.vars.getD worker .null).isNull <;> rw [hnull] at hexit
  · obtain ⟨out, f'', e, hexec, hleads, hcallee, hargs, hend⟩ := exec_stmt_inherited hobs p.discard
      false [.named Known.entityBeanContext] .void (f := f') (exec_evalAll_singleton exec_eval_var)
    have hexit := hexit.trans (exec_block_singleton.trans hexec)
    rcases hend with ⟨t', rfl, ht⟩ | ⟨rfl, hreturned⟩
    · exact ⟨t', f'', [e], exec_exitBlock_replaced hregion Run.exec_setVar?_none hexit (by simp),
        hleads.logged, .failed hnull hcallee hargs ht⟩
    · exact ⟨t, f'', [e], exec_exitBlock_completed hregion Run.exec_setVar?_none hexit,
        hleads.logged, .thrownAway hnull hcallee hargs hreturned⟩
  · exact ⟨t, f', [], exec_exitBlock_completed hregion Run.exec_setVar?_none
      (hexit.trans exec_block_nil), (List.append_nil _).symm, .nothing hnull⟩

/-- A use that has failed: handlers give the worker back, or the exit throws it away. -/
theorem exec_recovery {first : Nat} {guarded : Run σ Flow}
    (hguarded : exec guarded f = (.error t, f'))
    (hlength : first + 2 + (c.workerCatches m p first).length ≤ f'.vars.length) :
    ∃ t' f'' events, exec (act.exitBlock
        (act.handle guarded (Catch.handlers (first + 2) (c.workerCatches m p first)))
        (some ⟨none, [.cond (.notNull (.var first)) [.eval (p.discardExpr first)] []]⟩)) f =
          (.error t', f'') ∧
      log f''.world = log f'.world ++ events ∧
      Recovery p (c.isDeclared m act.env.isSubtype) (f'.vars.getD first .null) t events t' := by
  obtain ⟨htaken, hpassed⟩ :=
    c.find?_rethrow m act [.eval (p.releaseExpr first), .assign first .null] t
  cases hcovers : c.isDeclared m act.env.isSubtype t.className with
  | false =>
    have hregion := (exec_handle_error hguarded).trans
      (exec_firstHandler_none (hpassed hcovers) (first + 2) f')
    obtain ⟨t', f'', events, hexec, hlog, hexit⟩ := exec_exit_failed hobs hregion
    exact ⟨t', f'', events, hexec, hlog, .passed hcovers hexit⟩
  | true =>
    obtain ⟨h, hfind, hbody⟩ := htaken hcovers
    obtain ⟨i, hfirst, hi, hentered⟩ := exec_firstHandler_find hfind (first + 2) f'
    let entered : Frame σ := ⟨f'.vars.set i (.object t), f'.world⟩
    have hi' : i < f'.vars.length := by
      rw [workerCatches] at hlength
      omega
    have hheld : entered.vars.getD first .null = f'.vars.getD first .null :=
      getD_set_ne (by omega)
    have hplace : first < entered.vars.length := by
      simp only [entered, List.length_set]
      omega
    obtain ⟨out, f₁, back, hgive, hleads, hback, hargs, hend⟩ := exec_giveBack hobs hplace
    rw [hheld] at hargs hend
    have hhandler := (exec_handle_error hguarded).trans hentered
    rw [hbody i] at hhandler
    rcases hend with ⟨t₁, rfl, ht, hkept⟩ | ⟨rfl, hreturned, hnull⟩
    · have hregion := hhandler.trans (exec_block_append_of_ne_normal hgive (by simp))
      obtain ⟨t', f'', events, hexec, hlog, hexit⟩ := exec_exit_failed hobs hregion
      refine ⟨t', f'', back :: events, hexec, ?_, .kept hcovers hback hargs ht (hkept ▸ hexit)⟩
      rw [hlog, hleads.logged, List.append_assoc]
      rfl
    · have hcaught : f₁.vars.getD i .null = .object t := by
        rw [hleads.keeps i (by simp only [List.mem_singleton]; omega)]
        exact getD_set hi'
      have hthrow : exec (act.stmt (.throw (.var i))) f₁ = (.error t, f₁) :=
        exec_stmt_throw (exec_eval_var.trans (by rw [hcaught]))
      have hregion := hhandler.trans ((exec_block_append hgive).trans (exec_block_error hthrow))
      obtain ⟨t', f'', events, hexec, hlog, hexit⟩ := exec_exit_failed hobs hregion
      -- The handler has cleared the variable, so the exit finds no worker.
      rw [hnull] at hexit
      cases hexit with
      | nothing =>
        exact ⟨t, f'', [back], hexec, by rw [hlog, List.append_nil]; exact hleads.logged,
          .givenBack hcovers hback hargs hreturned⟩
      | thrownAway hheld | failed hheld => cases hheld

/-- A worker is lent. -/
theorem exec_useWorker (result : Ty) {first : Nat}
    (hlength : first + 2 + (c.workerCatches m p first).length ≤ f.vars.length)
    (hkeep : ∀ i ∈ keepIn, i < first) :
    ∃ out f' events, exec (act.block (c.useWorker m p first (HomeOperation.entityMethod m.op.name)
        keepIn result)) f = (out, f') ∧ log f'.world = log f.world ++ events ∧
      Loan p (c.beanCallee m (HomeOperation.entityMethod m.op.name) result)
        (c.isDeclared m act.env.isSubtype) events out := by
  let f₀ : Frame σ := ⟨f.vars.set first .null, f.world⟩
  have hclear : exec (act.stmt (.assign first .null)) f = (.ok .normal, f₀) :=
    exec_stmt_assign exec_eval_const
  have hlength₀ : f₀.vars.length = f.vars.length := List.length_set
  obtain ⟨out, f₁, events, huse, hleads, hused⟩ := exec_use hobs (c := c) (m := m) (f := f₀) result
    (by omega) hkeep (getD_set (by omega))
  rw [useWorker, exec_block_normal hclear, exec_block_singleton, exec_stmt_region]
  rcases out with t | flow
  · have hlength₁ : first + 2 + (c.workerCatches m p first).length ≤ f₁.vars.length := by
      rw [hleads.length, hlength₀]
      exact hlength
    obtain ⟨t', f'', after, hexec, hlog, hrecovery⟩ := exec_recovery hobs huse hlength₁
    refine ⟨_, f'', events ++ after, hexec, ?_, .failed hused hrecovery⟩
    rw [hlog, hleads.logged, List.append_assoc]
  · generalize hheld : f₁.vars.getD first .null = held at hused
    cases hused with
    | done hcallee hgiven haside hreturned hback hargs htaken =>
      -- The worker has been given back, so the exit finds none to throw away.
      have htest : exec (act.test (.notNull (.var first))) f₁ = (.ok false, f₁) :=
        (exec_test_notNull exec_eval_var).trans (by rw [hheld]; rfl)
      have hexit : exec (act.block [.cond (.notNull (.var first)) [.eval (p.discardExpr first)] []])
          f₁ = (.ok .normal, f₁) :=
        exec_block_singleton.trans ((exec_stmt_cond htest).trans exec_block_nil)
      exact ⟨_, f₁, _, exec_exitBlock_completed (exec_handle_ok huse) Run.exec_setVar?_none hexit,
        hleads.logged, .done (.done hcallee hgiven haside hreturned hback hargs htaken)⟩

end

/-! ### Bodies -/

/-- A block lends a worker. -/
def Lends (c : HomeContext) (m : HomeMethod) (p : WorkerPool) (result : Ty) (act : Activation σ)
    (log : σ → List CallEvent) (b : Block) (f : Frame σ) : Prop :=
  ∃ out f' events, exec (act.block b) f = (out, f') ∧ log f'.world = log f.world ++ events ∧
    Lending p (c.beanCallee m (HomeOperation.entityMethod m.op.name) result)
      (c.isDeclared m act.env.isSubtype) events (Blueprint.resultOf out)

theorem callees_inherited (name : String) (isLocal : Bool) (params : List Ty) (result : Ty)
    {args : List Expr} (hargs : ∀ e ∈ args, e.callees = []) :
    (inherited name isLocal params result args).callees =
      [homeCallee name isLocal params result] := by
  rw [inherited, Expr.invoke, Expr.callees, Expr.calleesAll_eq_nil hargs]
  rfl

theorem isView_of_mem_inherited {name : String} (hname : name ∈ views) {isLocal : Bool}
    {params : List Ty} {result : Ty} {args : List Expr} (hargs : ∀ e ∈ args, e.callees = []) :
    ∀ callee ∈ (inherited name isLocal params result args).callees, IsView callee := by
  rw [callees_inherited name isLocal params result hargs, List.forall_mem_singleton]
  exact ⟨name, hname, isLocal, params, result, rfl⟩

theorem isView_of_mem_activate {key : Expr} (hkey : key.callees = []) :
    ∀ callee ∈ (activate m key).callees, IsView callee := by
  rw [activate, Expr.callees]
  exact isView_of_mem_inherited (by decide) (by simpa using hkey)

theorem isView_of_mem_foundViews {found : Expr} (hfound : found.callees = []) :
    ∀ callee ∈ (c.foundViews m found).callees, IsView callee := by
  rw [foundViews]
  split
  · exact isView_of_mem_inherited (by decide) (by simpa using hfound)
  split
  · exact isView_of_mem_inherited (by decide) (by simpa using hfound)
  · exact isView_of_mem_activate hfound

section

variable (hobs : Observing act log [p.acquisition, Hook.beanInstance.callee])

include hobs

theorem callsOnly_of_isView {e : Expr} (he : ∀ callee ∈ e.callees, IsView callee) :
    CallsOnly log e.callees (act.eval e) := by
  refine calls_eval hobs.logs e fun callee hcallee => ?_
  obtain ⟨name, -, isLocal, params, result, rfl⟩ := he callee hcallee
  exact hobs.own _ rfl rfl

/-- A worker is lent, and views are asked for behind this. -/
theorem lends_useWorker (hp : p ∈ all) {first : Nat}
    (hlength : first + 2 + (c.applicationFailures m).length ≤ f.vars.length)
    (hkeep : ∀ i ∈ keepIn, i < first) {last : Block} {cs : List Callee} {is : List Nat}
    (hlast : StepsOnly log cs is (act.block last)) (hcs : ∀ callee ∈ cs, IsView callee) :
    c.Lends m p result act log
      (c.useWorker m p first (HomeOperation.entityMethod m.op.name) keepIn result ++ last) f := by
  have hcatches : (c.workerCatches m p first).length = (c.applicationFailures m).length :=
    List.length_map _
  obtain ⟨out, f₁, loan, huse, hlog, hloan⟩ := exec_useWorker hobs (c := c) (m := m) (f := f) result
    (by omega) hkeep
  cases out with
  | error t =>
    refine ⟨_, f₁, [] ++ (loan ++ []), exec_block_append_of_ne_normal huse (by simp), by simpa, ?_⟩
    exact .once (by simp) hloan (by simp) fun t ht => by rw [ht]; rfl
  | ok flow =>
    obtain rfl : flow = .normal := by
      cases hloan with
      | done => rfl
    obtain ⟨after, hleads, hafter⟩ := hlast f₁
    refine ⟨(exec (act.block last) f₁).1, (exec (act.block last) f₁).2, [] ++ (loan ++ after),
      exec_block_append huse, ?_, ?_⟩
    · rw [hleads.logged, hlog, List.nil_append, List.append_assoc]
    · refine .once (by simp) hloan (fun e he => ?_) (by simp)
      have hview := hcs _ (hafter e he)
      exact ⟨hview.aside hp, hview.ne rfl⟩

/-- If no view of the bean is at hand, a worker looks for the bean. -/
theorem lends_search (hlength : f.vars.length = 2 + 2 + (c.applicationFailures m).length)
    (hp : p = .findByPrimaryKey) :
    c.Lends m p c.keyType act log
      [.cond (.isNull (.var 0)) (c.useWorker m .findByPrimaryKey 2
          (HomeOperation.entityMethod m.op.name) (some 1) c.keyType ++
            [.assign 0 (activate m (.var 1))]) [],
        .ret (some (.var 0))] f := by
  subst hp
  have hret : ∀ f : Frame σ, exec (act.block [.ret (some (.var 0))]) f =
      (.ok (.returned (f.vars.getD 0 .null)), f) :=
    fun f => exec_block_singleton.trans (exec_stmt_ret exec_eval_var)
  let search : Block := c.useWorker m .findByPrimaryKey 2 (HomeOperation.entityMethod m.op.name)
    (some 1) c.keyType ++ [.assign 0 (activate m (.var 1))]
  have hcond : exec (act.stmt (.cond (.isNull (.var 0)) search [])) f =
      exec (act.block (if (f.vars.getD 0 .null).isNull then search else [])) f :=
    exec_stmt_cond (exec_test_isNull exec_eval_var)
  -- A view that is at hand is returned, and no worker is taken.
  cases hnull : (f.vars.getD 0 .null).isNull <;> rw [hnull] at hcond
  · have hcond := hcond.trans exec_block_nil
    exact ⟨_, f, [], (exec_block_normal hcond).trans (hret f), (List.append_nil _).symm,
      .without (by simp)⟩
  have hviews : ∀ callee ∈ (activate m (.var 1)).callees, IsView callee :=
    isView_of_mem_activate (by rw [Expr.callees])
  have hlast : StepsOnly log (activate m (.var 1)).callees [0]
      (act.block [.assign 0 (activate m (.var 1))]) := by
    refine .block ?_
    rw [List.forall_mem_singleton]
    exact .assign (callsOnly_of_isView hobs hviews) (by simp)
  have hkeep : ∀ i ∈ some 1, i < 2 := by simp
  obtain ⟨out, f', events, hlend, hlog, hlending⟩ :
      c.Lends m .findByPrimaryKey c.keyType act log search f :=
    lends_useWorker hobs (by simp [all]) hlength.ge hkeep hlast hviews
  have hlend := hcond.trans hlend
  rcases out with t | _ | v
  · exact ⟨_, f', events, exec_block_error hlend, hlog, hlending⟩
  · exact ⟨_, f', events, (exec_block_normal hlend).trans (hret f'), hlog,
      hlending.congr (by simp [Blueprint.resultOf])⟩
  · exact ⟨_, f', events, exec_block_returned hlend, hlog, hlending⟩

/-- The view of the bean with a key is asked for before a worker is. -/
theorem lends_findByPrimaryKey (hp : p = .findByPrimaryKey) (w : σ) :
    c.Lends m p c.keyType act log (c.findByPrimaryKey m).block
      ⟨(c.findByPrimaryKey m).vars.map fun v => .zero v.type, w⟩ := by
  subst hp
  have hp : WorkerPool.findByPrimaryKey ∈ all := by simp [all]
  let f : Frame σ := ⟨(c.findByPrimaryKey m).vars.map fun v => .zero v.type, w⟩
  let cached : Expr := .cast m.op.result (inherited "getBean" m.isLocal [.object]
    (handedOut m.isLocal) (Expr.forwardArgs (min m.op.params.length 1)))
  have hviews : ∀ callee ∈ cached.callees, IsView callee :=
    isView_of_mem_inherited (by decide) (by simp [Expr.forwardArgs, Expr.callees])
  -- Asking for the view is aside of any loan, whether it fails or gives one.
  obtain ⟨asked, hleads, hasked⟩ : Steps log cached.callees [0] f
      (exec (act.stmt (.assign 0 cached)) f).2 :=
    .assign (callsOnly_of_isView hobs hviews f) (by simp)
  have hasked : ∀ e ∈ asked, IsView e.callee := fun e he => hviews _ (hasked e he)
  rcases hcached : exec (act.eval cached) f with ⟨t | v, f₁⟩
  · have hassign : exec (act.stmt (.assign 0 cached)) f = (.error t, f₁) :=
      exec_stmt_assign_error hcached
    rw [hassign] at hleads
    exact ⟨_, f₁, asked, exec_block_error hassign, hleads.logged,
      .without fun e he => (hasked e he).aside hp⟩
  · have hassign : exec (act.stmt (.assign 0 cached)) f =
        (.ok .normal, ⟨f₁.vars.set 0 v, f₁.world⟩) := exec_stmt_assign hcached
    rw [hassign] at hleads
    obtain ⟨out, f₂, events, hlend, hlog, hlending⟩ : c.Lends m .findByPrimaryKey c.keyType act
        log _ ⟨f₁.vars.set 0 v, f₁.world⟩ := by
      refine lends_search hobs (hleads.length.trans ?_) rfl
      simp only [f, findByPrimaryKey, List.length_map, List.length_append, length_workerVariables,
        List.length_cons, List.length_nil]
      omega
    refine ⟨out, f₂, asked ++ events, (exec_block_normal hassign).trans hlend, ?_,
      hlending.prepend hp rfl hasked⟩
    rw [hlog, hleads.logged, List.append_assoc]

theorem lends_find (hp : p = .finder) (w : σ) :
    c.Lends m p (c.foundType m) act log (c.find m).block
      ⟨(c.find m).vars.map fun v => .zero v.type, w⟩ := by
  subst hp
  let f : Frame σ := ⟨((c.find m).vars.map fun v => .zero v.type).set 0 .null, w⟩
  have hlength : 1 + 2 + (c.applicationFailures m).length ≤ f.vars.length := by
    simp only [f, find, List.length_set, List.length_map, List.length_cons, length_workerVariables]
    omega
  have hviews : ∀ callee ∈ (c.foundViews m (.var 0)).callees, IsView callee :=
    isView_of_mem_foundViews (by rw [Expr.callees])
  have hlast : StepsOnly log (c.foundViews m (.var 0)).callees []
      (act.block [.ret (some (c.foundViews m (.var 0)))]) := by
    refine .block ?_
    rw [List.forall_mem_singleton]
    exact .ret (callsOnly_of_isView hobs hviews)
  have hclear : exec (act.stmt (.assign 0 .null)) ⟨(c.find m).vars.map fun v => .zero v.type, w⟩ =
      (.ok .normal, f) := exec_stmt_assign exec_eval_const
  have hkeep : ∀ i ∈ some 0, i < 1 := by simp
  obtain ⟨out, f', events, hlend, hlog, hlending⟩ : c.Lends m .finder (c.foundType m) act log _ f :=
    lends_useWorker hobs (by simp [all]) hlength hkeep hlast hviews
  exact ⟨out, f', events, (exec_block_normal hclear).trans hlend, hlog, hlending⟩

theorem lends_business (hp : p = .business) (w : σ) :
    c.Lends m p m.op.result act log (c.business m).block
      ⟨(c.business m).vars.map fun v => .zero v.type, w⟩ := by
  subst hp
  have hlast : ∀ result : Option Nat,
      StepsOnly log [] [] (act.block [.ret (result.map .var)]) := by
    intro result
    refine .block ?_
    rw [List.forall_mem_singleton]
    cases result with
    | none => exact fun f => by rw [Option.map_none, exec_stmt_ret_none]; exact .refl [] [] f
    | some i => exact .ret ((settles_var i).callsOnly [])
  have hlend : ∀ (first : Nat) (keepIn : Option Nat) (f : Frame σ),
      f.vars.length = first + 2 + (c.applicationFailures m).length → (∀ i ∈ keepIn, i < first) →
      c.Lends m .business m.op.result act log (c.useWorker m .business first
        (HomeOperation.entityMethod m.op.name) keepIn m.op.result ++ [.ret (keepIn.map .var)]) f :=
    fun first keepIn f hlength hkeep =>
      lends_useWorker hobs (by simp [all]) hlength.ge hkeep (hlast keepIn) (by simp)
  -- A result waits in the first variable until the worker has been given back.
  cases hvoid : m.op.result.isVoid
  · let f : Frame σ := ⟨((c.business m).vars.map fun v => .zero v.type).set 0
      (.ofLiteral (.zero m.op.result)), w⟩
    have hclear : exec (act.stmt (.assign 0 (.zero m.op.result)))
        ⟨(c.business m).vars.map fun v => .zero v.type, w⟩ = (.ok .normal, f) :=
      exec_stmt_assign exec_eval_const
    obtain ⟨out, f', events, hexec, hlog, hlending⟩ := hlend 1 (some 0) f
      (by simp [f, business, hvoid]; omega) (by simp)
    refine ⟨out, f', events, ?_, hlog, hlending⟩
    simpa [business, hvoid] using (exec_block_normal hclear).trans hexec
  · have hlend := hlend 0 none ⟨(c.business m).vars.map fun v => .zero v.type, w⟩
      (by simp [business, hvoid]) (by simp)
    simpa [business, hvoid] using hlend

end

/-! ### Runs -/

/-- The pool that has the workers for an operation. -/
def poolOf (m : HomeMethod) : WorkerPool :=
  match HomeOperation.ofName m.op.name with
  | .findByPrimaryKey => .findByPrimaryKey
  | .find => .finder
  | .create | .business => .business

theorem poolOf_mem (m : HomeMethod) : poolOf m ∈ all := by
  rw [poolOf]
  split <;> simp [all]

/-- The method of the bean that does the work. -/
def workerMethod (c : HomeContext) (m : HomeMethod) : Callee :=
  c.beanCallee m (HomeOperation.entityMethod m.op.name) <|
    match HomeOperation.ofName m.op.name with
    | .findByPrimaryKey => c.keyType
    | .find => c.foundType m
    | .create | .business => m.op.result

/-- What the home inherits it does not have itself. -/
theorem callOwn_inherited (c : HomeContext) (env : Environment σ) (this : ObjectRef) (depth : Nat)
    (args : List Value) {callee : Callee} (hkind : callee.kind = .special)
    (howner : callee.owner = Known.home) :
    (c.blueprint.activation env this depth args).callOwn callee = none := by
  have hnone : c.blueprint.ownMethod? callee = none := by
    rw [Blueprint.ownMethod?, if_pos ⟨hkind, howner ▸ (factoryName_ne_home c.request).symm⟩]
  show (c.blueprint.ownMethod? callee).map _ = none
  rw [hnone]
  rfl

/-- Every run of an operation that does not create beans lends a worker, if any. -/
theorem lending_run {env : Environment σ} {this : ObjectRef}
    (hworks : HomeOperation.ofName m.op.name ≠ .create) (hlogs : env.Logs log)
    (hothers : env.GivesOthers [(poolOf m).acquisition, Hook.beanInstance.callee] this)
    (args : List Value) (w : σ) :
    ∃ out w' events, exec (c.blueprint.run env this (c.method m) args) w = (out, w') ∧
      log w' = log w ++ events ∧
      Lending (poolOf m) (c.workerMethod m) (c.isDeclared m env.isSubtype) events out := by
  let act := c.blueprint.activation env this (Blueprint.maxDepth - 1) args
  have hobs : Observing act log [(poolOf m).acquisition, Hook.beanInstance.callee] :=
    ⟨hlogs, hothers, fun _ => c.callOwn_inherited env this _ args⟩
  have hlends : ∃ result, c.workerMethod m = c.beanCallee m (HomeOperation.entityMethod m.op.name)
      result ∧ c.Lends m (poolOf m) result act log (c.body m).block
        ⟨(c.body m).vars.map fun v => .zero v.type, w⟩ := by
    refine ⟨_, rfl, ?_⟩
    rw [body]
    cases hname : HomeOperation.ofName m.op.name with
    | create => exact absurd hname hworks
    | findByPrimaryKey => exact lends_findByPrimaryKey hobs (by rw [poolOf, hname]) w
    | find => exact lends_find hobs (by rw [poolOf, hname]) w
    | business => exact lends_business hobs (by rw [poolOf, hname]) w
  obtain ⟨result, hmethod, out, f', events, hexec, hlog, hlending⟩ := hlends
  exact ⟨_, f'.world, events, Blueprint.exec_runMethod rfl hexec, hlog, hmethod ▸ hlending⟩

/-- What becomes of a worker that has been handed out in a run. -/
theorem worker_run {env : Environment σ} {this : ObjectRef}
    (hworks : HomeOperation.ofName m.op.name ≠ .create) (hlogs : env.Logs log)
    (hothers : env.GivesOthers [(poolOf m).acquisition, Hook.beanInstance.callee] this)
    (args : List Value) (w : σ) :
    ∃ out w' events, exec (c.blueprint.run env this (c.method m) args) w = (out, w') ∧
      log w' = log w ++ events ∧
      ∀ e ∈ events, e.callee = (poolOf m).acquisition → ∀ worker, e.outcome = .ok (.object worker) →
        Accounted (poolOf m) (c.workerMethod m) (c.isDeclared m env.isSubtype) (.object worker)
          events out := by
  obtain ⟨out, w', events, hrun, hlog, hlending⟩ :=
    lending_run (c := c) hworks hlogs hothers args w
  refine ⟨out, w', events, hrun, hlog, fun e he hcallee worker hgiven => ?_⟩
  exact hlending.accounted (poolOf_mem m) rfl he hcallee hgiven rfl

/-- What a run hands over. -/
theorem handed_run {env : Environment σ} {this : ObjectRef}
    (hworks : HomeOperation.ofName m.op.name ≠ .create) (hlogs : env.Logs log)
    (hothers : env.GivesOthers [(poolOf m).acquisition, Hook.beanInstance.callee] this)
    (args : List Value) (w : σ) :
    ∃ out w' events, exec (c.blueprint.run env this (c.method m) args) w = (out, w') ∧
      log w' = log w ++ events ∧
      ((∀ e ∈ events, e.callee ≠ (poolOf m).acquisition) → (poolOf m).handovers events = []) ∧
      ∀ e ∈ events, e.callee = (poolOf m).acquisition →
        Handed (poolOf m) (c.isDeclared m env.isSubtype) e ((poolOf m).handovers events) := by
  obtain ⟨out, w', events, hrun, hlog, hlending⟩ :=
    lending_run (c := c) hworks hlogs hothers args w
  exact ⟨out, w', events, hrun, hlog, hlending.handovers_eq_nil (poolOf_mem m),
    fun e he hcallee => hlending.handed (poolOf_mem m) he hcallee⟩

/-! ### A finder -/

/-- The home of an entity with a finder. -/
def savingsHome : HomeContext where
  request := {
    component := "Savings"
    kind := .factoryRemote
    componentType := .beanManagedEntity
    bean := { className := "acme.SavingsBean" } }
  hierarchy := .standard
  policy := {}

/-- A finder of a remote home. -/
def findByOwner : HomeMethod where
  op := { name := "findByOwner", params := [.string], result := .named Known.collection,
          throws := [.named Known.finderException], owner := "acme.SavingsHome" }
  isLocal := false

/-- The bean fails as it has declared, and the worker is given back. -/
theorem worker_run_findByOwner :
    let env := (failingAt "ejbFindByOwner" ⟨2, Known.finderException⟩).logged
    let this : ObjectRef := ⟨0, "acme.Savings_HomeImpl"⟩
    HomeOperation.ofName findByOwner.op.name ≠ .create ∧ env.Logs Prod.snd ∧
      env.GivesOthers [(poolOf findByOwner).acquisition, Hook.beanInstance.callee] this ∧
      ∃ out w' events, exec (savingsHome.blueprint.run env this (savingsHome.method findByOwner)
          [.string "Ann"]) (0, []) = (out, w') ∧ w'.2 = events ∧
        events.map (·.callee.name) = ["getFinderEntityBeanO", "getBeanInstance", "ejbFindByOwner",
          "releaseFinderEntityBeanO"] ∧
        ∀ e ∈ events, e.callee = (poolOf findByOwner).acquisition → ∀ worker,
          e.outcome = .ok (.object worker) → Accounted (poolOf findByOwner)
            (savingsHome.workerMethod findByOwner)
            (savingsHome.isDeclared findByOwner env.isSubtype) (.object worker) events out := by
  intro env this
  have hworks : HomeOperation.ofName findByOwner.op.name ≠ .create := by decide
  have hlogs := Environment.logs_logged (failingAt "ejbFindByOwner" ⟨2, Known.finderException⟩)
  have hothers : env.GivesOthers [(poolOf findByOwner).acquisition, Hook.beanInstance.callee]
      this := (apart_failingAt _ _ _).givesOthers _
  have hcalls : (exec (savingsHome.blueprint.run env this (savingsHome.method findByOwner)
      [.string "Ann"]) (0, [])).2.2.map (·.callee.name) = ["getFinderEntityBeanO",
        "getBeanInstance", "ejbFindByOwner", "releaseFinderEntityBeanO"] := by
    dsimp only [env, this]
    decide
  obtain ⟨out, w', events, hrun, hlog, haccounted⟩ := worker_run (c := savingsHome)
    (m := findByOwner) hworks hlogs hothers [.string "Ann"] (0, [])
  rw [hrun] at hcalls
  exact ⟨hworks, hlogs, hothers, out, w', events, hrun, hlog,
    (congrArg (List.map _) hlog).symm.trans hcalls, haccounted⟩

end HomeContext

end ComponentViews
