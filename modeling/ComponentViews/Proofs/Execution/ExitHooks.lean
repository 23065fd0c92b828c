import ComponentViews.Proofs.Execution.DispatchCalls
import ComponentViews.Proofs.Failures.Handling
import ComponentViews.Proofs.Synthesis.Wrapper

/-!
# The hook behind a call

Once the start of a dispatch method has completed, the hook behind the call is called once,
whatever the hooks, the target and the environment do:

* `exec_handled`: of the guarded block and its handlers, all calls are of the announcement,
  of the target, or made by the handler that has been entered. This is the one that the failure
  belongs to by its class (`DispatchSite.find?_catches`), and it raises the flag that asks for
  the cleanup, unless it is one for declared failures;
* `exec_epilogue`: the exit calls the hook, notes its failure, and cleans up if the flag is
  raised;
* `Wrapper.exitProtocol_run`: both together, for the methods of wrappers (`ExitProtocol`).
-/

namespace ComponentViews

open Effect

namespace Activation

variable {σ : Type} {act : Activation σ} {f f' f'' : Frame σ} {thrown : ObjectRef}

/-- The first handler that takes a failure runs, with the failure in its variable. -/
theorem exec_firstHandler_find {cs : List Catch} {c : Catch}
    (hc : (cs.find? fun c => act.catches c.caught thrown) = some c) (first : Nat)
    (f : Frame σ) :
    ∃ i, first ≤ i ∧ i < first + cs.length ∧
      exec (act.firstHandler thrown (Catch.handlers first cs)) f =
        exec (act.block (c.body i)) ⟨f.vars.set i (.object thrown), f.world⟩ := by
  induction cs generalizing first with
  | nil => cases hc
  | cons c' rest ih =>
    rw [List.find?_cons] at hc
    cases htaken : act.catches c'.caught thrown
    · rw [htaken] at hc
      obtain ⟨i, hfirst, hi, hexec⟩ := ih hc (first + 1)
      refine ⟨i, by omega, by simp only [List.length_cons]; omega, ?_⟩
      rw [Catch.handlers, exec_firstHandler_passed htaken, hexec]
    · rw [htaken] at hc
      cases hc
      refine ⟨first, le_rfl, by simp, ?_⟩
      rw [Catch.handlers, exec_firstHandler_taken htaken]

/-- A failure that no handler takes goes on. -/
theorem exec_firstHandler_none {cs : List Catch}
    (hcs : (cs.find? fun c => act.catches c.caught thrown) = none) (first : Nat) (f : Frame σ) :
    exec (act.firstHandler thrown (Catch.handlers first cs)) f = (.error thrown, f) := by
  induction cs generalizing first with
  | nil => exact exec_firstHandler_nil
  | cons c rest ih =>
    rw [List.find?_cons] at hcs
    cases htaken : act.catches c.caught thrown <;> rw [htaken] at hcs
    · rw [Catch.handlers, exec_firstHandler_passed htaken]
      exact ih hcs (first + 1)
    · cases hcs

/-- The failure that a computation has ended with. -/
def failure? {α : Type} : Except ObjectRef α → Option ObjectRef
  | .ok _ => none
  | .error thrown => some thrown

/-- What an exit block finds in its variable. -/
def inFlightValue (failure : Option ObjectRef) : Value := failure.elim .null .object

variable {region : Run σ Flow} {body : Block} {i : Option Nat} {out : Except ObjectRef Flow}
  {f₁ f₂ : Frame σ}

/-- The outcome of a region stays as it is where its exit block completes. -/
theorem exec_exitBlock_completed (hr : exec region f = (out, f'))
    (hset : exec (Run.setVar? i (inFlightValue (failure? out))) f' = (.ok (), f₁))
    (hbody : exec (act.block body) f₁ = (.ok .normal, f₂)) :
    exec (act.exitBlock region (some ⟨i, body⟩)) f = (out, f₂) := by
  rw [exitBlock, exec_bind_ok Run.exec_outcome, hr]
  cases out <;>
    exact (exec_bind_ok hset).trans ((exec_bind_ok hbody).trans Run.exec_resume)

/-- An exit block that does not complete takes the place of the outcome. -/
theorem exec_exitBlock_replaced (hr : exec region f = (out, f'))
    (hset : exec (Run.setVar? i (inFlightValue (failure? out))) f' = (.ok (), f₁))
    {out' : Except ObjectRef Flow} (hbody : exec (act.block body) f₁ = (out', f₂))
    (hout' : out' ≠ .ok .normal) :
    exec (act.exitBlock region (some ⟨i, body⟩)) f = (out', f₂) := by
  rw [exitBlock, exec_bind_ok Run.exec_outcome, hr]
  rcases out' with thrown | _ | v
  · cases out <;> exact (exec_bind_ok hset).trans (exec_bind_error hbody)
  · exact absurd rfl hout'
  · cases out <;> exact (exec_bind_ok hset).trans (exec_bind_ok hbody)

/-- A method ends with a failure, or returns if there is none. -/
def EndsAs (failure : Option ObjectRef) (out : Except ObjectRef Value) : Prop :=
  failure.elim (∃ v, out = .ok v) fun thrown => out = .error thrown

/-- A method that ends with a region and a return ends as the region does, if the exit block
    completes, and with its failure, if it fails. -/
theorem exec_region_ret {guarded : Block} {handlers : List Handler} (result : Option Nat)
    (hr : exec (act.handle (act.block guarded) handlers) f = (out, f'))
    (hset : exec (Run.setVar? i (inFlightValue (failure? out))) f' = (.ok (), f₁))
    {concluded : Except ObjectRef Flow} (hbody : exec (act.block body) f₁ = (concluded, f₂)) :
    ∃ final, exec (act.block [.region guarded handlers (some ⟨i, body⟩),
        .ret (result.map .var)]) f = (final, f₂) ∧
      (concluded = .ok .normal → EndsAs (failure? out) (Blueprint.resultOf final)) ∧
      ∀ thrown, concluded = .error thrown → Blueprint.resultOf final = .error thrown := by
  have hret : ∃ v, exec (act.stmt (.ret (result.map .var))) f₂ = (.ok (.returned v), f₂) := by
    cases result with
    | none => exact ⟨_, exec_stmt_ret_none⟩
    | some rv => exact ⟨_, exec_stmt_ret exec_eval_var⟩
  obtain ⟨v, hret⟩ := hret
  by_cases hconcluded : concluded = .ok .normal
  · subst hconcluded
    have hregion := exec_exitBlock_completed hr hset hbody
    rw [← exec_stmt_region] at hregion
    rcases out with thrown | _ | v'
    · exact ⟨_, exec_block_error hregion, fun _ => rfl, by simp⟩
    · refine ⟨.ok (.returned v), ?_, fun _ => ⟨v, rfl⟩, by simp⟩
      rw [exec_block_normal hregion, exec_block_singleton, hret]
    · exact ⟨_, exec_block_returned hregion, fun _ => ⟨v', rfl⟩, by simp⟩
  · have hregion := exec_exitBlock_replaced hr hset hbody hconcluded
    rw [← exec_stmt_region] at hregion
    rcases concluded with thrown | _ | v'
    · refine ⟨_, exec_block_error hregion, fun h => absurd h hconcluded, fun thrown' h => ?_⟩
      cases h
      rfl
    · exact absurd rfl hconcluded
    · exact ⟨_, exec_block_returned hregion, fun h => absurd h hconcluded, by simp⟩

end Activation

namespace DispatchSite

open Activation

variable {site : DispatchSite} {m : ExposedOperation} {σ : Type} {act : Activation σ}
  {log : σ → List CallEvent} {f : Frame σ}

/-! ### Handlers -/

/-- What handlers call: they note the failure, and give it a cause. -/
def handlerCallees (m : ExposedOperation) : List Callee :=
  [Hook.setChecked.callee, (recorder m).callee, causeCallee]

/-- The handler by what it is for, where `none` stands for everything else. -/
def catchFor (m : ExposedOperation) : Option Handling → Catch
  | some .runtime => .ofClass "runtimeFailure" Known.runtimeException fun e =>
      recordAndThrow m e (wrapFailure m (.var e))
  | some .protocol => .ofClass "remoteFailure" Known.remoteException fun e =>
      recordAndThrow m e (if m.isRmi then .var e else wrapFailure m (.var e))
  | some (.declared failure) => .ofFailure "applicationFailure" failure fun e =>
      [.eval (Hook.setChecked.invoke (.var (places m).support) [.var e]), .throw (.var e)]
  | none => .all "failure" fun e => recordAndThrow m e (wrapFailure m (.var e))

theorem catches_eq (m : ExposedOperation) :
    catches m = (m.failures.handlings.map fun k => catchFor m (some k)) ++ [catchFor m none] := by
  rw [Failures.handlings, List.map_append, List.map_append, List.map_map]
  cases hr : m.failures.systemUnchecked <;> cases hp : m.failures.protocolNative <;>
    simp [catches, catchFor, hr, hp]

/-- The handler that takes a failure is the one for what the failure is classified as. -/
theorem find?_catches (act : Activation σ) (m : ExposedOperation) (thrown : ObjectRef) :
    ((catches m).find? fun c => act.catches c.caught thrown) =
      some (catchFor m (m.failures.handlingOf? act.env.isSubtype thrown.className)) := by
  have hcaught : ((fun c : Catch => act.catches c.caught thrown) ∘ fun k => catchFor m (some k)) =
      fun k => act.env.isSubtype thrown.className k.caught.name := by
    funext k
    cases k <;> rfl
  rw [catches_eq, List.find?_append, List.find?_map, hcaught, ← Failures.handlingOf?]
  cases m.failures.handlingOf? act.env.isSubtype thrown.className <;> rfl

section

variable (hobs : site.Observed act log)

include hobs

theorem callsOnly_wrapFailure (i : Nat) :
    CallsOnly log [causeCallee] (act.eval (wrapFailure m (.var i))) := by
  rw [wrapFailure]
  split
  · have hnew := calls_eval hobs.logs (.new Known.remoteException [.string, .named Known.throwable]
      [.string s!"{m.op} failed", .var i]) (by simp [Expr.callees, Expr.calleesAll, Expr.string])
    exact hnew.mono (by simp [Expr.callees, Expr.calleesAll, Expr.string])
  · refine callsOnly_call_new hobs.logs hobs.apart ?_ ?_
    · simp only [List.forall_mem_singleton]
      exact settles_const _
    · simp only [List.forall_mem_singleton]
      exact settles_var _

/-- A failure is noted, and the block ends with a failure. -/
theorem exec_noteAndThrow {hook : Hook} (hhook : hook ∈ Hook.standard)
    (hmem : hook.callee ∈ handlerCallees m) {i : Nat} {e : Expr}
    (he : CallsOnly log [causeCallee] (act.eval e))
    (hother : act.HoldsOther (places m).support f) :
    ∃ thrown f', exec (act.block [.eval (hook.invoke (.var (places m).support) [.var i]), .throw e])
        f = (.error thrown, f') ∧ Steps log (handlerCallees m) [] f f' := by
  obtain ⟨out, f₁, noted, hnote, hleads, hcalling, -⟩ := exec_note hobs hhook i hother
  have hnoted : Steps log (handlerCallees m) [] f f₁ := by
    refine ⟨noted, hleads, fun e he => ?_⟩
    cases hcalling with
    | returned he' | failed he' =>
      rw [List.mem_singleton.1 he, he']
      exact hmem
    | missed => exact absurd he List.not_mem_nil
  cases hcalling with
  | returned =>
    obtain ⟨thrown, f', hthrow⟩ : ∃ thrown f', exec (act.stmt (.throw e)) f₁ =
        (.error thrown, f') := exec_stmt_throw_fails f₁
    have hsteps : Steps log [causeCallee] [] f₁ _ := StepsOnly.throw hobs.logs he f₁
    rw [hthrow] at hsteps
    refine ⟨thrown, f', by rw [exec_block_normal hnote, exec_block_error hthrow], ?_⟩
    exact hnoted.trans (hsteps.mono (by simp [handlerCallees]) (List.Subset.refl _))
  | failed | missed => exact ⟨_, f₁, exec_block_error hnote, hnoted⟩

/-- A failure that is not declared is noted, and the flag stays raised whatever happens. -/
theorem exec_recordAndThrow {i : Nat} {e : Expr} (hfailed : (places m).failed < f.vars.length)
    (he : CallsOnly log [causeCallee] (act.eval e))
    (hother : act.HoldsOther (places m).support f) :
    ∃ thrown f', exec (act.block (recordAndThrow m i e)) f = (.error thrown, f') ∧
      Steps log (handlerCallees m) [(places m).failed] f f' ∧
      f'.vars.getD (places m).failed .null = .bool true := by
  let f₁ : Frame σ := ⟨f.vars.set (places m).failed (.bool true), f.world⟩
  have hraise : exec (act.stmt (.assign (places m).failed (.bool true))) f = (.ok .normal, f₁) :=
    exec_stmt_assign exec_eval_const
  have hraised : f₁.vars.getD (places m).failed .null = .bool true := getD_set hfailed
  obtain ⟨thrown, f', hexec, hsteps⟩ :=
    exec_noteAndThrow hobs (recorder_mem_standard m) (by simp [handlerCallees]) (i := i) he
      (f := f₁) (hother.congr (getD_set_ne (by simp [places])))
  refine ⟨thrown, f', by rw [recordAndThrow, exec_block_normal hraise]; exact hexec, ?_, ?_⟩
  · exact ((Steps.refl _ _ f).set List.mem_cons_self _).trans
      (hsteps.mono (List.Subset.refl _) (List.nil_subset _))
  · rw [hsteps.keeps List.not_mem_nil, hraised]

/-- A handler ends with a failure. It raises the flag that asks for the cleanup, unless it
    is for a declared failure. -/
theorem exec_catch (k : Option Handling) (i : Nat) (hfailed : (places m).failed < f.vars.length)
    (hother : act.HoldsOther (places m).support f) :
    ∃ thrown f', exec (act.block ((catchFor m k).body i)) f = (.error thrown, f') ∧
      Steps log (handlerCallees m) [(places m).failed] f f' ∧
      f'.vars.getD (places m).failed .null =
        if Handling.isDeclared k then f.vars.getD (places m).failed .null else .bool true := by
  have hvar : CallsOnly log [causeCallee] (act.eval (.var i)) := Settles.callsOnly (settles_var i) _
  have hwrap := callsOnly_wrapFailure hobs (m := m) i
  rcases k with _ | _ | _ | failure
  · exact exec_recordAndThrow hobs hfailed hwrap hother
  · exact exec_recordAndThrow hobs hfailed hwrap hother
  · refine exec_recordAndThrow hobs hfailed ?_ hother
    split
    · exact hvar
    · exact hwrap
  · have hchecked : Hook.setChecked ∈ Hook.standard := by simp [Hook.standard]
    obtain ⟨thrown, f', hexec, hsteps⟩ :=
      exec_noteAndThrow hobs hchecked (by simp [handlerCallees]) hvar hother
    exact ⟨thrown, f', hexec, hsteps.mono (List.Subset.refl _) (List.nil_subset _),
      hsteps.keeps List.not_mem_nil⟩

end

/-- The guarded block has ended with a failure that does not belong to one that the operation
    declares: the first handler for a supertype of its class is for another kind of failure, or
    there is none but the one for everything else. -/
def asksCleanup (site : DispatchSite) (m : ExposedOperation) (act : Activation σ) (f : Frame σ) :
    Bool :=
  (failure? (exec (act.block (site.guarded m)) f).1).any fun thrown =>
    !Handling.isDeclared (m.failures.handlingOf? act.env.isSubtype thrown.className)

/-- The guarded block with its handlers. -/
def handled (site : DispatchSite) (m : ExposedOperation) (act : Activation σ) : Run σ Flow :=
  act.handle (act.block (site.guarded m)) (Catch.handlers (places m).handlers (catches m))

/-- What is called between the start and the exit. -/
theorem exec_handled (hobs : site.Observed act log)
    (hlength : (places m).handlers + (catches m).length ≤ f.vars.length)
    (hfailed : f.vars.getD (places m).failed .null = .bool false)
    (hother : act.HoldsOther (places m).support f) :
    ∃ out f' asked called handling, exec (site.handled m act) f = (out, f') ∧
      f'.vars.length = f.vars.length ∧
      log f'.world = log f.world ++ (asked ++ called ++ handling) ∧
      (∀ e ∈ asked, e.callee = Hook.needsArguments.callee) ∧ site.Announced m called ∧
      (∀ e ∈ handling, e.callee ∈ handlerCallees m) ∧
      f'.vars.getD (places m).support .null = f.vars.getD (places m).support .null ∧
      f'.vars.getD (places m).failed .null = .bool (site.asksCleanup m act f) := by
  have hplaces : (places m).bean < f.vars.length ∧ (places m).failed < (places m).handlers ∧
      (places m).support < (places m).handlers := by
    simp only [places] at hlength ⊢
    omega
  have hkept : (places m).support ∉ guardedPlaces m ∧ (places m).failed ∉ guardedPlaces m := by
    cases hr : hasResult m <;> simp [guardedPlaces, places, hr]
  obtain ⟨asked, called, hleads, hasked, hcalled⟩ := exec_guarded hobs hplaces.1
  -- A failure enters the handler that the order of the handlers gives it.
  rcases hguarded : exec (act.block (site.guarded m)) f with ⟨thrown | flow, f₁⟩ <;>
    rw [hguarded] at hleads
  · obtain ⟨i, hi, hi', hfirst⟩ :=
      exec_firstHandler_find (find?_catches act m thrown) (places m).handlers f₁
    have hlength₁ : f₁.vars.length = f.vars.length := hleads.length
    have hsupport : (f₁.vars.set i (.object thrown)).getD (places m).support .null =
        f.vars.getD (places m).support .null := by
      rw [getD_set_ne (by omega), hleads.keeps _ hkept.1]
    obtain ⟨thrown', f', hbody, ⟨handling, hhandling, hcallees⟩, hflag⟩ :=
      exec_catch hobs (m.failures.handlingOf? act.env.isSubtype thrown.className) i
        (f := ⟨f₁.vars.set i (.object thrown), f₁.world⟩) (by simp only [List.length_set]; omega)
        (hother.congr hsupport)
    refine ⟨_, f', asked, called, handling, (exec_handle_error hguarded).trans
      (hfirst.trans hbody), ?_, ?_, hasked, hcalled, hcallees, ?_, ?_⟩
    · rw [hhandling.length, List.length_set, hlength₁]
    · rw [hhandling.logged, hleads.logged, List.append_assoc]
    · rw [hhandling.keeps _ (by simp [places]), hsupport]
    · rw [hflag, asksCleanup, hguarded, getD_set_ne (by omega), hleads.keeps _ hkept.2, hfailed,
        failure?, Option.any_some]
      cases Handling.isDeclared (m.failures.handlingOf? act.env.isSubtype thrown.className) <;> rfl
  · refine ⟨_, f₁, asked, called, [], exec_handle_ok hguarded, hleads.length, ?_, hasked, hcalled,
      by simp, hleads.keeps _ hkept.1, ?_⟩
    · rw [hleads.logged, List.append_nil]
    · rw [asksCleanup, hguarded, hleads.keeps _ hkept.2, hfailed]
      rfl

/-! ### The exit -/

/-- How the exit ends, by the call of the hook and what is called behind it. -/
structure Concluded (site : DispatchSite) (m : ExposedOperation) (support inFlight : Value)
    (asksCleanup : Bool) (out : Except ObjectRef Flow) (post : CallEvent)
    (noted cleaned : List CallEvent) : Prop where
  post_callee : post.callee = site.postHook.callee
  noted_callee : ∀ e ∈ noted, e.callee = (recorder m).callee
  noted_args : ∀ p, post.outcome = .error p → ∀ e ∈ noted, e.args = [.object p]
  noted_of_support : ∀ p, post.outcome = .error p → support ≠ .null → ∃ e, noted = [e]
  cleaned_callee : ∀ e ∈ cleaned, e.callee = Hook.failureCleanup.callee
  cleaned_length : cleaned.length = if asksCleanup then 1 else 0
  quiet : post.Returned → noted = [] ∧ ((∀ e ∈ cleaned, e.Returned) → out = .ok .normal)
  loud : ∀ p, post.outcome = .error p → noted ≠ [] → (∀ e ∈ noted ++ cleaned, e.Returned) →
    out = if inFlight.isNull then .error p else .ok .normal

section

variable (hobs : site.Observed act log)

include hobs

/-- The failure of the hook is noted, and then thrown again if none is in flight. -/
theorem exec_noting {p : ObjectRef}
    (hfailure : f.vars.getD (places m).postFailure .null = .object p)
    (hother : act.HoldsOther (places m).support f) :
    ∃ out f' noted, exec (act.block [record m (places m).postFailure,
        .cond (.isNull (.var (places m).inFlight)) [.throw (.var (places m).postFailure)] []]) f =
        (out, f') ∧
      Leads log [] f noted f' ∧ (∀ e ∈ noted, e.callee = (recorder m).callee) ∧
      (∀ e ∈ noted, e.args = [.object p]) ∧
      (f.vars.getD (places m).support .null ≠ .null → ∃ e, noted = [e]) ∧
      (noted ≠ [] → (∀ e ∈ noted, e.Returned) →
        out = if (f.vars.getD (places m).inFlight .null).isNull then .error p
          else .ok .normal) := by
  obtain ⟨out, f', noted, hnote, hleads, hcalling, hargs, hsome⟩ :=
    exec_note hobs (recorder_mem_standard m) (places m).postFailure hother
  have hnote : exec (act.stmt (record m (places m).postFailure)) f = (out, f') := hnote
  have hargs : ∀ e ∈ noted, e.args = [.object p] := fun e he => by rw [hargs e he, hfailure]
  cases hcalling with
  | returned he hreturned =>
    rw [exec_block_normal hnote, exec_block_singleton,
      exec_stmt_cond (exec_test_isNull exec_eval_var), hleads.keeps _ List.not_mem_nil]
    refine ⟨_, f', _, ?_, hleads, by simpa using he, hargs, fun _ => ⟨_, rfl⟩, fun _ _ => rfl⟩
    cases (f.vars.getD (places m).inFlight .null).isNull
    · exact exec_block_nil
    · refine exec_block_error (exec_stmt_throw ?_)
      rw [exec_eval_var, hleads.keeps _ List.not_mem_nil, hfailure]
  | failed he hfailed =>
    refine ⟨_, f', _, exec_block_error hnote, hleads, by simpa using he, hargs,
      fun _ => ⟨_, rfl⟩, fun _ hreturned => ?_⟩
    exact absurd hfailed (hreturned _ (by simp)).outcome_ne
  | missed =>
    exact ⟨_, f', [], exec_block_error hnote, hleads, by simp, hargs,
      fun h => absurd rfl (hsome h), fun h => absurd rfl h⟩

/-- The hook behind the call, whose failure is noted, and counts if none is in flight. -/
theorem exec_concluding (hplace : (places m).postFailure < f.vars.length)
    (hother : act.HoldsOther (places m).support f) :
    ∃ out f' post noted, exec (act.handle (act.block [.eval (site.conclude m)])
        [⟨none, (places m).postFailure, [record m (places m).postFailure,
          .cond (.isNull (.var (places m).inFlight)) [.throw (.var (places m).postFailure)] []]⟩])
        f = (out, f') ∧
      Leads log [(places m).postFailure] f (post :: noted) f' ∧
      Concluded site m (f.vars.getD (places m).support .null)
        (f.vars.getD (places m).inFlight .null) false out post noted [] := by
  obtain ⟨out, w, post, hconclude, hw, hpost, hout, -⟩ := exec_conclude hobs (m := m) f
  have hleads₀ : Leads log [(places m).postFailure] f [post] ⟨f.vars, w⟩ :=
    ⟨rfl, fun _ _ => rfl, hw⟩
  rcases out with p | v
  · have hfailed : ∀ p', post.outcome = .error p' → p' = p := fun p' hp' =>
      Except.error.inj (hp'.symm.trans hout)
    have hnormal : ¬ post.Returned := fun h => h.outcome_ne hout
    have hguarded : exec (act.block [.eval (site.conclude m)]) f = (.error p, ⟨f.vars, w⟩) :=
      exec_block_error (exec_stmt_eval_error hconclude)
    -- The failure has a variable of its own, so that what is read next is as it was.
    let f₁ : Frame σ := ⟨f.vars.set (places m).postFailure (.object p), w⟩
    have hleads₁ : Leads log [(places m).postFailure] f [post] f₁ :=
      hleads₀.set List.mem_cons_self _
    have hsupport : f₁.vars.getD (places m).support .null =
        f.vars.getD (places m).support .null := getD_set_ne (by simp [places])
    have hinFlight : f₁.vars.getD (places m).inFlight .null =
        f.vars.getD (places m).inFlight .null := getD_set_ne (by simp [places])
    obtain ⟨out, f₂, noted, hnoting, hleads₂, hcallee, hargs, hsome, hloud⟩ :=
      exec_noting (f := f₁) hobs (getD_set hplace) (hother.congr hsupport)
    rw [hsupport] at hsome
    rw [hinFlight] at hloud
    refine ⟨out, f₂, post, noted, ?_, hleads₁.trans (hleads₂.mono (List.nil_subset _)), ?_⟩
    · rw [exec_handle_error hguarded, exec_firstHandler_taken rfl]
      exact hnoting
    · exact {
        post_callee := hpost
        noted_callee := hcallee
        noted_args := fun p' hp' => hfailed p' hp' ▸ hargs
        noted_of_support := fun _ _ => hsome
        cleaned_callee := by simp
        cleaned_length := rfl
        quiet := fun h => absurd h hnormal
        loud := fun p' hp' hne hreturned => hfailed p' hp' ▸ hloud hne
          fun e he => hreturned e (List.mem_append_left _ he) }
  · have hreturned : ∀ p, post.outcome ≠ .error p := fun p hp => by
      rw [hout] at hp
      cases hp
    have hguarded : exec (act.block [.eval (site.conclude m)]) f = (.ok .normal, ⟨f.vars, w⟩) := by
      rw [exec_block_singleton, exec_stmt_eval hconclude]
    exact ⟨_, _, post, [], exec_handle_ok hguarded, hleads₀,
      { post_callee := hpost
        noted_callee := by simp
        noted_args := by simp
        noted_of_support := fun p hp => absurd hp (hreturned p)
        cleaned_callee := by simp
        cleaned_length := rfl
        quiet := fun _ => ⟨rfl, fun _ => rfl⟩
        loud := fun p hp => absurd hp (hreturned p) }⟩

/-- The exit calls the hook once. Where the flag is raised, it then cleans up once. -/
theorem exec_epilogue (hplace : (places m).postFailure < f.vars.length)
    (hother : act.HoldsOther (places m).support f) :
    ∃ out f' post noted cleaned, exec (act.block (site.epilogue m)) f = (out, f') ∧
      log f'.world = log f.world ++ post :: (noted ++ cleaned) ∧
      f'.vars.length = f.vars.length ∧
      Concluded site m (f.vars.getD (places m).support .null)
        (f.vars.getD (places m).inFlight .null)
        (f.vars.getD (places m).failed .null).isTrue out post noted cleaned := by
  obtain ⟨out, f₁, post, noted, hconcluding, hleads, hconcluded⟩ :=
    exec_concluding hobs hplace hother
  have hfailed : f₁.vars.getD (places m).failed .null = f.vars.getD (places m).failed .null :=
    hleads.keeps _ (by simp [places])
  have hcond : ∀ cleanup : Block, exec (act.block
      [.cond (.isTrue (.var (places m).failed)) cleanup []]) f₁ =
      exec (act.block (if (f.vars.getD (places m).failed .null).isTrue then cleanup else [])) f₁ :=
    fun cleanup => by
      rw [exec_block_singleton, exec_stmt_cond (exec_test_isTrue exec_eval_var), hfailed]
  rw [epilogue, exec_block_singleton, exec_stmt_region]
  -- The flag is as it was when the exit began, so the case does not depend on the hook.
  cases hraised : (f.vars.getD (places m).failed .null).isTrue <;> rw [hraised] at hcond
  · refine ⟨out, f₁, post, noted, [], ?_, ?_, hleads.length, hconcluded⟩
    · exact exec_exitBlock_completed hconcluding Run.exec_setVar?_none
        ((hcond _).trans exec_block_nil)
    · rw [List.append_nil]
      exact hleads.logged
  · obtain ⟨out', f₂, cleaned, hcleanup, hleads', hcalling, hcleaned⟩ :=
      exec_cleanup hobs (m := m) f₁
    have hall := hleads.trans (hleads'.mono (List.nil_subset _))
    have hcleanup := ((hcond _).trans exec_block_singleton).trans hcleanup
    cases hcalling with
    | returned he hreturned =>
      refine ⟨out, f₂, post, noted, _, exec_exitBlock_completed hconcluding
        Run.exec_setVar?_none hcleanup, hall.logged, hall.length, hconcluded.post_callee,
        hconcluded.noted_callee, hconcluded.noted_args, hconcluded.noted_of_support,
        by simpa using he, rfl, fun h => ?_, fun p hp hne hr => ?_⟩
      · obtain ⟨hnoted, hnormal⟩ := hconcluded.quiet h
        exact ⟨hnoted, fun _ => hnormal (by simp)⟩
      · exact hconcluded.loud p hp hne fun e he => hr e (by simp_all)
    | failed he hfailure =>
      refine ⟨_, f₂, post, noted, _, exec_exitBlock_replaced hconcluding
        Run.exec_setVar?_none hcleanup (by simp), hall.logged, hall.length, hconcluded.post_callee,
        hconcluded.noted_callee, hconcluded.noted_args, hconcluded.noted_of_support,
        by simpa using he, rfl, fun h => ?_, fun p hp hne hr => ?_⟩
      · refine ⟨(hconcluded.quiet h).1, fun hr => ?_⟩
        exact absurd hfailure (hr _ (by simp)).outcome_ne
      · exact absurd hfailure (hr _ (by simp)).outcome_ne
    | missed => exact absurd rfl hcleaned

end

/-! ### Calls of a whole run -/

/-- The failure that the guarded block and its handlers leave behind. -/
def inFlight (site : DispatchSite) (m : ExposedOperation) (act : Activation σ) (f : Frame σ) :
    Option ObjectRef :=
  failure? (exec (site.handled m act) f).1

/-- How the hooks are called by a run whose start has led to the frame `f`: at the start, in
    the guarded block, in a handler, and by the exit, which begins with the call `post`. -/
structure ExitProtocol (site : DispatchSite) (m : ExposedOperation) (act : Activation σ)
    (f : Frame σ) (out : Except ObjectRef Value) (start guarded handling : List CallEvent)
    (post : CallEvent) (after : List CallEvent) : Prop where
  post_callee : post.callee = site.postHook.callee
  /-- The hook behind the call is called once. -/
  post_once : ∀ e ∈ start ++ guarded ++ handling ++ after, e.callee ≠ site.postHook.callee
  /-- The cleanup comes behind that hook, -/
  cleanup_after : ∀ e ∈ start ++ guarded ++ handling, e.callee ≠ Hook.failureCleanup.callee
  /-- and comes once if the call has failed other than as declared, and else never. -/
  cleanup_once : after.countP (·.callee = Hook.failureCleanup.callee) =
    if site.asksCleanup m act f then 1 else 0
  target_once : guarded.countP (·.callee = site.targetCallee m) ≤ 1
  /-- The target is called where its announcement has returned, -/
  target_announced : ∀ before e rest, guarded = before ++ e :: rest →
    e.callee = site.targetCallee m → ∃ pre ∈ before, pre.callee = site.preHook.callee ∧ pre.Returned
  /-- and nowhere else. -/
  target_guarded : site.targetCallee m ≠ causeCallee →
    ∀ e ∈ start ++ handling ++ post :: after, e.callee ≠ site.targetCallee m
  /-- A failure of the hook is noted, if there is something to note it in, -/
  post_noted : ∀ p, post.outcome = .error p → f.vars.getD (places m).support .null ≠ .null →
    ∃ e rest, after = e :: rest ∧ e.callee = (recorder m).callee ∧ e.args = [.object p]
  /-- and behind a hook that has returned nothing is noted. -/
  noted_failed : post.Returned → ∀ e ∈ after, e.callee ≠ (recorder m).callee
  /-- Where all is well with the hook, the run ends as the call and its handlers do. -/
  post_returned : post.Returned → (∀ e ∈ after, e.Returned) → EndsAs (site.inFlight m act f) out
  /-- A failure of the hook is that of the run, unless another one is in flight. -/
  post_failed : ∀ p, post.outcome = .error p → (∃ e ∈ after, e.callee = (recorder m).callee) →
    (∀ e ∈ after, e.Returned) → out = .error ((site.inFlight m act f).getD p)

/-- What a method returns whose block ends behind the exit, by what the guarded block and its
    handlers have left. -/
theorem exec_exit (hobs : site.Observed act log) {out : Except ObjectRef Flow} {f₁ : Frame σ}
    (hlength : (places m).handlers + (catches m).length ≤ f₁.vars.length)
    (hother : act.HoldsOther (places m).support f₁)
    (hhandled : exec (site.handled m act) f = (out, f₁)) :
    ∃ final f' post noted cleaned concluded,
      exec (act.block [.region (site.guarded m) (Catch.handlers (places m).handlers (catches m))
          (some ⟨some (places m).inFlight, site.epilogue m⟩), .ret ((places m).result.map .var)])
        f = (final, f') ∧
      log f'.world = log f₁.world ++ post :: (noted ++ cleaned) ∧
      Concluded site m (f₁.vars.getD (places m).support .null) (inFlightValue (failure? out))
        (f₁.vars.getD (places m).failed .null).isTrue concluded post noted cleaned ∧
      (concluded = .ok .normal → EndsAs (failure? out) (Blueprint.resultOf final)) ∧
      ∀ thrown, concluded = .error thrown → Blueprint.resultOf final = .error thrown := by
  let f₂ : Frame σ := ⟨f₁.vars.set (places m).inFlight (inFlightValue (failure? out)), f₁.world⟩
  have hplaces : (places m).inFlight < f₁.vars.length ∧
      (places m).postFailure < f₂.vars.length := by
    simp only [f₂, List.length_set]
    simp only [places] at hlength ⊢
    omega
  have hvalue : f₂.vars.getD (places m).inFlight .null = inFlightValue (failure? out) :=
    getD_set hplaces.1
  have hkept : f₂.vars.getD (places m).support .null = f₁.vars.getD (places m).support .null ∧
      f₂.vars.getD (places m).failed .null = f₁.vars.getD (places m).failed .null :=
    ⟨getD_set_ne (by simp [places]), getD_set_ne (by simp [places])⟩
  obtain ⟨concluded, f₃, post, noted, cleaned, hepilogue, hlog, -, hconcluded⟩ :=
    exec_epilogue hobs hplaces.2 (hother.congr hkept.1)
  rw [hvalue, hkept.1, hkept.2] at hconcluded
  obtain ⟨final, hexec, hnormal, hfails⟩ :=
    exec_region_ret (places m).result hhandled Run.exec_setVar?_some hepilogue
  exact ⟨final, f₃, post, noted, cleaned, concluded, hexec, hlog, hconcluded, hnormal, hfails⟩

/-- What a method returns whose block ends behind the exit. -/
theorem exec_protected (hobs : site.Observed act log)
    (hlength : (places m).handlers + (catches m).length ≤ f.vars.length)
    (hfailed : f.vars.getD (places m).failed .null = .bool false)
    (hother : act.HoldsOther (places m).support f) :
    ∃ out f' asked called handling post noted cleaned concluded,
      exec (act.block [.region (site.guarded m) (Catch.handlers (places m).handlers (catches m))
          (some ⟨some (places m).inFlight, site.epilogue m⟩), .ret ((places m).result.map .var)])
        f = (out, f') ∧
      log f'.world = log f.world ++ (asked ++ called ++ handling ++ post :: (noted ++ cleaned)) ∧
      (∀ e ∈ asked, e.callee = Hook.needsArguments.callee) ∧ site.Announced m called ∧
      (∀ e ∈ handling, e.callee ∈ handlerCallees m) ∧
      Concluded site m (f.vars.getD (places m).support .null)
        (inFlightValue (site.inFlight m act f)) (site.asksCleanup m act f) concluded post noted
        cleaned ∧
      (concluded = .ok .normal → EndsAs (site.inFlight m act f) (Blueprint.resultOf out)) ∧
      ∀ thrown, concluded = .error thrown → Blueprint.resultOf out = .error thrown := by
  obtain ⟨out, f₁, asked, called, handling, hhandled, hlength₁, hlog, hasked, hcalled, hhandling,
    hkept, hflag⟩ := exec_handled hobs hlength hfailed hother
  have hflight : site.inFlight m act f = failure? out := by rw [inFlight, hhandled]
  have hraised : (f₁.vars.getD (places m).failed .null).isTrue = site.asksCleanup m act f := by
    rw [hflag]
    cases site.asksCleanup m act f <;> rfl
  obtain ⟨final, f₂, post, noted, cleaned, concluded, hexec, hlog', hconcluded, hends⟩ :=
    exec_exit hobs (hlength₁.symm ▸ hlength) (hother.congr hkept) hhandled
  rw [hkept, hraised, ← hflight] at hconcluded
  rw [← hflight] at hends
  refine ⟨final, f₂, asked, called, handling, post, noted, cleaned, concluded, hexec, ?_, hasked,
    hcalled, hhandling, hconcluded, hends⟩
  rw [hlog', hlog, List.append_assoc]

/-! ### Telling the calls apart -/

theorem preHook_postHook_mem (site : DispatchSite) : (site.preHook, site.postHook) ∈
    [(Hook.endpointPreInvoke, Hook.endpointPostInvoke),
      (Hook.preInvokeStatelessCreate, Hook.postInvokeStatelessCreate),
      (Hook.preInvoke, Hook.postInvoke)] := by
  rw [preHook, postHook]
  split
  · simp
  split <;> simp

theorem recorder_mem (m : ExposedOperation) :
    recorder m ∈ [Hook.setUncheckedRemote, Hook.setUncheckedLocal] := by
  rw [recorder, Hook.setUnchecked]
  split <;> simp

/-- The hooks that are called besides the one behind the call and the cleanup. -/
def otherHooks (site : DispatchSite) (m : ExposedOperation) : List Hook :=
  [.checkState, .needsArguments, site.preHook, .setChecked, recorder m]

theorem otherHooks_spec : ∀ hook ∈ otherHooks site m, hook ∈ Hook.standard ∧
    hook ≠ Hook.invokeChain ∧ hook.callee ≠ site.postHook.callee ∧
    hook.callee ≠ Hook.failureCleanup.callee := by
  have hall : ∀ p ∈ [(Hook.endpointPreInvoke, Hook.endpointPostInvoke),
      (Hook.preInvokeStatelessCreate, Hook.postInvokeStatelessCreate),
      (Hook.preInvoke, Hook.postInvoke)],
      ∀ note ∈ [Hook.setUncheckedRemote, Hook.setUncheckedLocal],
      ∀ hook ∈ [.checkState, .needsArguments, p.1, .setChecked, note],
      hook ∈ Hook.standard ∧ hook ≠ Hook.invokeChain ∧ hook.callee ≠ p.2.callee ∧
      hook.callee ≠ Hook.failureCleanup.callee := by decide
  exact hall _ site.preHook_postHook_mem _ (recorder_mem m)

theorem postHook_spec (site : DispatchSite) : site.postHook ≠ Hook.invokeChain ∧
    site.postHook.callee ≠ Hook.failureCleanup.callee ∧
    causeCallee ≠ site.postHook.callee := by
  have hall : ∀ p ∈ [(Hook.endpointPreInvoke, Hook.endpointPostInvoke),
      (Hook.preInvokeStatelessCreate, Hook.postInvokeStatelessCreate),
      (Hook.preInvoke, Hook.postInvoke)], p.2 ≠ Hook.invokeChain ∧
      p.2.callee ≠ Hook.failureCleanup.callee ∧ causeCallee ≠ p.2.callee := by decide
  exact hall _ site.preHook_postHook_mem

/-- The bean method that is called is no hook. -/
def TargetsNoHook (site : DispatchSite) (m : ExposedOperation) : Prop :=
  ∀ hook ∈ Hook.standard, site.target = hook.name → m.op.params ≠ hook.params

/-- The target is no hook that is called besides it. -/
theorem callee_ne_targetCallee (htarget : site.TargetsNoHook m) {hook : Hook}
    (hhook : hook ∈ Hook.standard) (hne : hook ≠ Hook.invokeChain) :
    hook.callee ≠ site.targetCallee m := by
  rw [targetCallee]
  split
  · have hchain : ∀ hook ∈ Hook.standard, hook ≠ Hook.invokeChain →
        hook.callee ≠ Hook.invokeChain.callee := by decide
    exact hchain hook hhook hne
  · intro heq
    have hname : hook.name = site.target := congrArg Callee.name heq
    have hparams : hook.params = m.op.params := congrArg Callee.params heq
    exact htarget hook hhook hname.symm hparams.symm

theorem otherHooks_ne_targetCallee (htarget : site.TargetsNoHook m) :
    ∀ hook ∈ otherHooks site m, hook.callee ≠ site.targetCallee m := by
  intro hook hhook
  obtain ⟨hstandard, hchain, -⟩ := otherHooks_spec hook hhook
  exact callee_ne_targetCallee htarget hstandard hchain

/-- A call other than of the hook behind the call and the cleanup. -/
def Besides (site : DispatchSite) (m : ExposedOperation) (e : CallEvent) : Prop :=
  e.callee = site.targetCallee m ∨ e.callee = causeCallee ∨
    ∃ hook ∈ otherHooks site m, e.callee = hook.callee

theorem Besides.ne (htarget : site.TargetsNoHook m) {e : CallEvent} (he : site.Besides m e) :
    e.callee ≠ site.postHook.callee ∧ e.callee ≠ Hook.failureCleanup.callee := by
  obtain ⟨hchain, -, hcause⟩ := site.postHook_spec
  rcases he with he | he | ⟨hook, hhook, he⟩ <;> rw [he]
  · exact ⟨(callee_ne_targetCallee htarget site.postHook_mem_standard hchain).symm,
      (callee_ne_targetCallee htarget Hook.failureCleanup_mem_standard (by decide)).symm⟩
  · exact ⟨hcause, by decide⟩
  · obtain ⟨-, -, hpost, hcleanup⟩ := otherHooks_spec hook hhook
    exact ⟨hpost, hcleanup⟩

theorem besides_of_handling {e : CallEvent} (he : e.callee ∈ handlerCallees m) :
    site.Besides m e := by
  simp only [handlerCallees, List.mem_cons, List.not_mem_nil, or_false] at he
  rcases he with he | he | he
  · exact .inr (.inr ⟨_, by simp [otherHooks], he⟩)
  · exact .inr (.inr ⟨_, by simp [otherHooks], he⟩)
  · exact .inr (.inl he)

namespace Announced

variable {called : List CallEvent}

theorem besides (h : site.Announced m called) : ∀ e ∈ called, site.Besides m e := by
  have hpre : ∀ {pre : CallEvent}, pre.callee = site.preHook.callee → site.Besides m pre :=
    fun h => .inr (.inr ⟨_, by simp [otherHooks], h⟩)
  cases h with
  | nothing => simp
  | announced h => simpa using hpre h
  | called h _ ht => simpa using ⟨hpre h, .inl ht⟩

theorem countP_target (h : site.Announced m called) (htarget : site.TargetsNoHook m) :
    called.countP (·.callee = site.targetCallee m) ≤ 1 := by
  have hpre : site.preHook.callee ≠ site.targetCallee m :=
    otherHooks_ne_targetCallee htarget _ (by simp [otherHooks])
  cases h with
  | nothing => simp
  | announced h => simp [h, hpre]
  | called h _ ht => simp [h, hpre, ht]

/-- Before the target the announcement has returned. -/
theorem pre_of_target (h : site.Announced m called) (htarget : site.TargetsNoHook m)
    {before rest : List CallEvent} {e : CallEvent} (hcalled : called = before ++ e :: rest)
    (he : e.callee = site.targetCallee m) :
    ∃ pre ∈ before, pre.callee = site.preHook.callee ∧ pre.Returned := by
  have hpre : site.preHook.callee ≠ site.targetCallee m :=
    otherHooks_ne_targetCallee htarget _ (by simp [otherHooks])
  cases h with
  | nothing => simp at hcalled
  | announced h =>
    obtain ⟨-, heq, -⟩ := by simpa [List.singleton_eq_append_iff] using hcalled
    exact absurd (h.symm.trans (heq ▸ he)) hpre
  | called h hreturned ht =>
    rcases before with _ | ⟨pre, before⟩
    · cases hcalled
      exact absurd (h.symm.trans he) hpre
    · obtain ⟨rfl, -⟩ := List.cons.inj hcalled
      exact ⟨_, List.mem_cons_self, h, hreturned⟩

end Announced

/-! ### The parts of a run -/

/-- The calls of a run by what makes them, and how its exit and the whole run end: `start` comes
    before the guarded block, `asked` and `called` in it, `handling` from a handler, and `post` and
    what follows from the exit. -/
structure Parts (site : DispatchSite) (m : ExposedOperation) (act : Activation σ) (f : Frame σ)
    (out : Except ObjectRef Value) (concluded : Except ObjectRef Flow)
    (start asked called handling : List CallEvent) (post : CallEvent)
    (noted cleaned : List CallEvent) : Prop where
  start_callee : ∀ e ∈ start, e.callee = Hook.checkState.callee
  asked_callee : ∀ e ∈ asked, e.callee = Hook.needsArguments.callee
  announced : site.Announced m called
  handling_callee : ∀ e ∈ handling, e.callee ∈ handlerCallees m
  ends : Concluded site m (f.vars.getD (places m).support .null)
    (inFlightValue (site.inFlight m act f)) (site.asksCleanup m act f) concluded post noted cleaned
  normal : concluded = .ok .normal → EndsAs (site.inFlight m act f) out
  fails : ∀ thrown, concluded = .error thrown → out = .error thrown

namespace Parts

variable {out : Except ObjectRef Value} {concluded : Except ObjectRef Flow}
  {start asked called handling noted cleaned : List CallEvent} {post : CallEvent}
  (h : Parts site m act f out concluded start asked called handling post noted cleaned)

include h

/-- The hook behind the call and the cleanup are called by the exit only. -/
theorem besides : (∀ e ∈ start ++ (asked ++ called) ++ handling, site.Besides m e) ∧
    ∀ e ∈ noted, site.Besides m e := by
  simp only [List.forall_mem_append]
  refine ⟨⟨⟨fun e he => ?_, fun e he => ?_, h.announced.besides⟩,
    fun e he => besides_of_handling (h.handling_callee e he)⟩, fun e he => ?_⟩
  · exact .inr (.inr ⟨_, by simp [otherHooks], h.start_callee e he⟩)
  · exact .inr (.inr ⟨_, by simp [otherHooks], h.asked_callee e he⟩)
  · exact .inr (.inr ⟨_, by simp [otherHooks], h.ends.noted_callee e he⟩)

/-- What cleans up notes nothing. -/
theorem cleaned_ne_recorder : ∀ e ∈ cleaned, e.callee ≠ (recorder m).callee := by
  have hrecorder : recorder m ∈ otherHooks site m := by simp [otherHooks]
  intro e he
  rw [h.ends.cleaned_callee e he]
  exact (otherHooks_spec _ hrecorder).2.2.2.symm

/-- A failure of the hook behind the call that is noted is that of the run, unless another one is in
    flight. -/
theorem post_failed {p : ObjectRef} (hp : post.outcome = .error p)
    (hnoted : ∃ e ∈ noted ++ cleaned, e.callee = (recorder m).callee)
    (hafter : ∀ e ∈ noted ++ cleaned, e.Returned) :
    out = .error ((site.inFlight m act f).getD p) := by
  obtain ⟨e, he, hcallee⟩ := hnoted
  have hne : noted ≠ [] := by
    rintro rfl
    exact h.cleaned_ne_recorder e (by simpa using he) hcallee
  have hloud := h.ends.loud p hp hne hafter
  have hnormal := h.normal
  cases hflight : site.inFlight m act f with
  | none =>
    rw [hflight] at hloud
    exact h.fails p hloud
  | some thrown =>
    rw [hflight] at hloud hnormal
    exact hnormal hloud

variable (htarget : site.TargetsNoHook m)

include htarget

theorem post_once : ∀ e ∈ start ++ (asked ++ called) ++ handling ++ (noted ++ cleaned),
    e.callee ≠ site.postHook.callee := by
  obtain ⟨hbefore, hnoted⟩ := h.besides
  refine List.forall_mem_append.2 ⟨fun e he => ((hbefore e he).ne htarget).1,
    List.forall_mem_append.2 ⟨fun e he => ((hnoted e he).ne htarget).1, fun e he => ?_⟩⟩
  rw [h.ends.cleaned_callee e he]
  exact site.postHook_spec.2.1.symm

theorem cleanup_once : (noted ++ cleaned).countP (·.callee = Hook.failureCleanup.callee) =
    if site.asksCleanup m act f then 1 else 0 := by
  have hnone : noted.countP (·.callee = Hook.failureCleanup.callee) = 0 := by
    rw [List.countP_eq_zero]
    exact fun e he => by simpa using ((h.besides.2 e he).ne htarget).2
  have hall : cleaned.countP (·.callee = Hook.failureCleanup.callee) = cleaned.length := by
    rw [List.countP_eq_length]
    exact fun e he => by simpa using h.ends.cleaned_callee e he
  rw [List.countP_append, hnone, hall, h.ends.cleaned_length, Nat.zero_add]

theorem asked_ne_target : ∀ e ∈ asked, e.callee ≠ site.targetCallee m := by
  intro e he
  rw [h.asked_callee e he]
  exact otherHooks_ne_targetCallee htarget .needsArguments (by simp [otherHooks])

theorem target_once : (asked ++ called).countP (·.callee = site.targetCallee m) ≤ 1 := by
  have hnone : asked.countP (·.callee = site.targetCallee m) = 0 := by
    rw [List.countP_eq_zero]
    exact fun e he => by simpa using h.asked_ne_target htarget e he
  rw [List.countP_append, hnone, Nat.zero_add]
  exact h.announced.countP_target htarget

/-- The target comes behind its announcement, and what has been asked before is neither. -/
theorem target_announced {before rest : List CallEvent} {e : CallEvent}
    (hguarded : asked ++ called = before ++ e :: rest) (he : e.callee = site.targetCallee m) :
    ∃ pre ∈ before, pre.callee = site.preHook.callee ∧ pre.Returned := by
  rcases List.append_eq_append_iff.1 hguarded with ⟨first, rfl, hfirst⟩ | ⟨last, rfl, hlast⟩
  · obtain ⟨pre, hpre, hannounced⟩ := h.announced.pre_of_target htarget hfirst he
    exact ⟨pre, List.mem_append_right _ hpre, hannounced⟩
  · rcases last with _ | ⟨e', last⟩
    · have hfirst : called = [] ++ e :: rest := hlast.symm
      obtain ⟨pre, hpre, -⟩ := h.announced.pre_of_target htarget hfirst he
      exact absurd hpre List.not_mem_nil
    · cases hlast
      exact absurd he (h.asked_ne_target htarget _ (by simp))

theorem target_guarded (hcause : site.targetCallee m ≠ causeCallee) :
    ∀ e ∈ start ++ handling ++ post :: (noted ++ cleaned), e.callee ≠ site.targetCallee m := by
  have hother := otherHooks_ne_targetCallee htarget
  simp only [List.forall_mem_append, List.forall_mem_cons]
  refine ⟨⟨fun e he => ?_, fun e he => ?_⟩, ?_, fun e he => ?_, fun e he => ?_⟩
  · rw [h.start_callee e he]
    exact hother .checkState (by simp [otherHooks])
  · have he := h.handling_callee e he
    simp only [handlerCallees, List.mem_cons, List.not_mem_nil, or_false] at he
    rcases he with he | he | he <;> rw [he]
    · exact hother .setChecked (by simp [otherHooks])
    · exact hother (recorder m) (by simp [otherHooks])
    · exact hcause.symm
  · rw [h.ends.post_callee]
    exact callee_ne_targetCallee htarget site.postHook_mem_standard site.postHook_spec.1
  · rw [h.ends.noted_callee e he]
    exact hother (recorder m) (by simp [otherHooks])
  · rw [h.ends.cleaned_callee e he]
    exact callee_ne_targetCallee htarget Hook.failureCleanup_mem_standard (by decide)

/-- The parts of a run follow the protocol. -/
theorem exitProtocol :
    ExitProtocol site m act f out start (asked ++ called) handling post (noted ++ cleaned) where
  post_callee := h.ends.post_callee
  post_once := h.post_once htarget
  cleanup_after e he := ((h.besides.1 e he).ne htarget).2
  cleanup_once := h.cleanup_once htarget
  target_once := h.target_once htarget
  target_announced _ _ _ hguarded he := h.target_announced htarget hguarded he
  target_guarded hcause := h.target_guarded htarget hcause
  post_noted p hp hsupport := by
    obtain ⟨e, rfl⟩ := h.ends.noted_of_support p hp hsupport
    exact ⟨e, cleaned, rfl, h.ends.noted_callee e (by simp), h.ends.noted_args p hp e (by simp)⟩
  noted_failed hpost e he := by
    rw [(h.ends.quiet hpost).1, List.nil_append] at he
    exact h.cleaned_ne_recorder e he
  post_returned hpost hafter :=
    h.normal ((h.ends.quiet hpost).2 fun e he => hafter e (List.mem_append_right _ he))
  post_failed _ hp hnoted hafter := h.post_failed hp hnoted hafter

end Parts

/-! ### Runs -/

/-- The frame in which the body of a standard method starts. -/
def startFrame (site : DispatchSite) (m : ExposedOperation) (w : σ) : Frame σ :=
  ⟨(site.standardBody m).vars.map fun v => .zero v.type, w⟩

theorem length_startFrame (w : σ) :
    (site.startFrame m w).vars.length = (places m).handlers + (catches m).length := by
  rw [startFrame, List.length_map, length_standardBody]

/-- A run of the body whose start completes. -/
theorem exec_standardBody (hobs : site.Observed act log) (htarget : site.TargetsNoHook m) {w : σ}
    (hstart : exec (act.block (site.prologue m)) (site.startFrame m w) = (.ok .normal, f)) :
    ∃ out f' start guarded handling post after,
      exec (act.block (site.standardBody m).block) (site.startFrame m w) = (out, f') ∧
      log f'.world = log w ++ (start ++ guarded ++ handling ++ post :: after) ∧
      ExitProtocol site m act f (Blueprint.resultOf out) start guarded handling post after := by
  obtain ⟨start, hleads, hcallees⟩ := stepsOnly_prologue hobs (m := m) (site.startFrame m w)
  rw [hstart] at hleads
  have hlength : f.vars.length = (places m).handlers + (catches m).length := by
    rw [hleads.length, length_startFrame]
  have hfailed : f.vars.getD (places m).failed .null = .bool false := by
    refine failed_of_prologue ?_ hstart
    rw [hlength]
    exact placesBelow.failed
  have hother : act.HoldsOther (places m).support f := by
    refine holdsOther_of_prologue hobs ?_ hstart
    rw [hlength]
    exact placesBelow.support
  obtain ⟨out, f', asked, called, handling, post, noted, cleaned, concluded, hexec, hlog, hasked,
    hcalled, hhandling, hconcluded, hnormal, hfails⟩ :=
    exec_protected hobs hlength.ge hfailed hother
  refine ⟨out, f', start, asked ++ called, handling, post, noted ++ cleaned, ?_, ?_, ?_⟩
  · rw [standardBody, exec_block_append hstart]
    exact hexec
  · rw [hlog, hleads.logged]
    simp only [startFrame, List.append_assoc]
  · have hparts : Parts site m act f _ _ start asked called handling post noted cleaned :=
      ⟨fun e he => List.mem_singleton.1 (hcallees e he), hasked, hcalled, hhandling, hconcluded,
        hnormal, hfails⟩
    exact hparts.exitProtocol htarget

/-- A run of the body whose start does not complete ends there. -/
theorem exec_standardBody_of_start (hobs : site.Observed act log) {w : σ}
    {out : Except ObjectRef Flow}
    (hstart : exec (act.block (site.prologue m)) (site.startFrame m w) = (out, f))
    (hout : out ≠ .ok .normal) :
    ∃ start, exec (act.block (site.standardBody m).block) (site.startFrame m w) = (out, f) ∧
      log f.world = log w ++ start ∧ ∀ e ∈ start, e.callee = Hook.checkState.callee := by
  obtain ⟨start, hleads, hcallees⟩ := stepsOnly_prologue hobs (m := m) (site.startFrame m w)
  rw [hstart] at hleads
  exact ⟨start, exec_block_append_of_ne_normal hstart hout, hleads.logged,
    fun e he => List.mem_singleton.1 (hcallees e he)⟩

end DispatchSite

/-! ### Wrappers -/

namespace Wrapper

variable {r : Request} {exposed : List ExposedOperation} {m : ExposedOperation} {σ : Type}
  {env : Environment σ} {log : σ → List CallEvent} {this : ObjectRef}

/-- The bean method that is called has another signature than the hooks, if no method of the
    wrapper has theirs. -/
theorem targetsNoHook_of_hooks (hm : m ∈ exposed)
    (hhooks : ∀ hook ∈ Hook.standard, (blueprint r exposed).find? hook.name hook.params = none) :
    (siteFor r m.op).TargetsNoHook m := by
  intro hook hhook hname hparams
  have hop : m.op.name ≠ hook.name := by
    intro hop
    have hnone := List.find?_eq_none.1 (hhooks hook hhook) _ (method_mem_blueprint r hm)
    simp [DispatchSite.method, hop, hparams] at hnone
  have htarget : (siteFor r m.op).target = m.op.name ∨
      (siteFor r m.op).target = m.op.name ++ Known.localSuffix := by
    rw [siteFor, ViewKind.factoryTarget]
    split
    · split
      · exact .inr rfl
      · exact .inl rfl
    · exact .inl rfl
  rcases htarget with htarget | htarget
  · exact hop (htarget.symm.trans hname)
  · have hsuffix : ∀ hook ∈ Hook.standard,
        ¬ Known.localSuffix.toList <:+ hook.name.toList := by decide
    refine hsuffix hook hhook ?_
    rw [← hname, htarget, String.toList_append]
    exact List.suffix_append _ _

theorem observed_of_hooks (hlogs : env.Logs log) (hapart : env.Apart this)
    (hhooks : r.kind = .endpoint → ∀ hook ∈ Hook.ofEndpoint,
      (blueprint r exposed).find? hook.name hook.params = none)
    (op : Operation) (depth : Nat) (args : List Value) :
    (siteFor r op).Observed ((blueprint r exposed).activation env this depth args) log where
  logs := hlogs
  apart := hapart
  own hkind hook hhook := by
    show ((blueprint r exposed).ownMethod? hook.callee).map _ = none
    have hnone : (blueprint r exposed).ownMethod? hook.callee = none := by
      rw [Blueprint.ownMethod?, if_neg (by simp [Hook.callee])]
      show (((blueprint r exposed).find? hook.name hook.params).filter _) = none
      rw [hhooks hkind hook hhook]
      rfl
    rw [hnone]
    rfl

/-- A run of a standard dispatch method of a wrapper follows the protocol if its start
    completes. If not, it ends there, and neither the hook behind the call, nor the cleanup,
    nor the target has been called. -/
theorem exitProtocol_run (hm : m ∈ exposed) (hsync : m.policy.asynchronous = false)
    (hkind : r.kind ≠ .managed) (hlogs : env.Logs log) (hapart : env.Apart this)
    (hhooks : ∀ hook ∈ Hook.standard, (blueprint r exposed).find? hook.name hook.params = none)
    (args : List Value) (w : σ) :
    let site := siteFor r m.op
    let act := (blueprint r exposed).activation env this (Blueprint.maxDepth - 1) args
    let run := (blueprint r exposed).run env this (site.method m) args
    (∀ f, exec (act.block (site.prologue m)) (site.startFrame m w) = (.ok .normal, f) →
      ∃ out w' start guarded handling post after, exec run w = (out, w') ∧
        log w' = log w ++ (start ++ guarded ++ handling ++ post :: after) ∧
        site.ExitProtocol m act f out start guarded handling post after) ∧
    ∀ ended f, exec (act.block (site.prologue m)) (site.startFrame m w) = (ended, f) →
      ended ≠ .ok .normal → ∃ start, exec run w = (Blueprint.resultOf ended, f.world) ∧
        log f.world = log w ++ start ∧ ∀ e ∈ start, e.callee ≠ site.postHook.callee ∧
          e.callee ≠ Hook.failureCleanup.callee ∧ e.callee ≠ site.targetCallee m := by
  intro site act run
  have hobs : site.Observed act log :=
    observed_of_hooks hlogs hapart (fun _ hook h => hhooks hook (Hook.ofEndpoint_subset h)) _ _ _
  have htarget : site.TargetsNoHook m := targetsNoHook_of_hooks hm hhooks
  have hbody : (site.method m).body = some (site.standardBody m) := by
    have hkind : site.kind ≠ .managed := hkind
    simp [DispatchSite.method, hsync, hkind]
  have hrun : ∀ out f', exec (act.block (site.standardBody m).block) (site.startFrame m w) =
      (out, f') → exec run w = (Blueprint.resultOf out, f'.world) :=
    fun out f' h => Blueprint.exec_runMethod hbody h
  refine ⟨fun f hstart => ?_, fun ended f hstart hend => ?_⟩
  · obtain ⟨out, f', start, guarded, handling, post, after, hexec, hlog, hprotocol⟩ :=
      DispatchSite.exec_standardBody hobs htarget hstart
    exact ⟨_, f'.world, start, guarded, handling, post, after, hrun out f' hexec, hlog, hprotocol⟩
  · obtain ⟨start, hexec, hlog, hcallees⟩ :=
      DispatchSite.exec_standardBody_of_start hobs hstart hend
    refine ⟨start, hrun ended f hexec, hlog, fun e he => ?_⟩
    have hcheck : Hook.checkState ∈ site.otherHooks m := by simp [DispatchSite.otherHooks]
    obtain ⟨-, -, hpost, hcleanup⟩ := DispatchSite.otherHooks_spec _ hcheck
    rw [hcallees e he]
    exact ⟨hpost, hcleanup, DispatchSite.otherHooks_ne_targetCallee htarget _ hcheck⟩

/-! ### A withdrawal -/

/-- A local view of savings. -/
def savings : Request where
  component := "Savings"
  kind := .businessLocal
  interfaces := [{ name := "acme.Savings", methods := [{ name := "withdraw", params := [.int] }] }]
  bean := { className := "acme.SavingsBean", methods := [{ name := "withdraw", params := [.int] }] }

/-- An operation whose failures are all undeclared. -/
def withdrawal : ExposedOperation where
  op := { name := "withdraw", params := [.int], owner := "acme.Savings" }
  id := 0
  policy := {}
  failures := { systemUnchecked := true }
  isRmi := false

/-- An environment with one object besides the instance, in which withdrawals fail, and so
    does the hook behind the call. -/
def broke : Environment Unit where
  allocate className := pure ⟨1, className⟩
  create className _ _ := pure (.object ⟨1, className⟩)
  invoke callee _ _ :=
    if callee.name = "withdraw" then throw ⟨2, Known.runtimeException⟩
    else if callee.name = "postInvoke" then throw ⟨3, Known.ejbException⟩
    else pure (.object ⟨1, callee.result.name⟩)
  getField _ f := pure (.object ⟨1, f.type.name⟩)
  setField _ _ _ := pure ()
  isSubtype sub sup := sub == sup || sup == Known.object

theorem apart_broke : broke.logged.Apart ⟨0, "acme.SavingsView"⟩ where
  field _ f w := ⟨⟨1, f.type.name⟩, w, rfl, Nat.one_ne_zero⟩
  create className _ _ w o ho := by
    have ho : Except.ok (ε := ObjectRef) (Value.object ⟨1, className⟩) = .ok (.object o) := ho
    cases ho
    exact Nat.one_ne_zero
  invoke callee receiver args w o ho := by
    have ho : (exec (broke.invoke callee receiver args) w.1).1 = .ok (.object o) := ho
    simp only [broke] at ho
    split at ho
    · cases ho
    split at ho
    · cases ho
    · cases ho
      exact Nat.one_ne_zero

theorem exitProtocol_withdrawal :
    let unit := blueprint savings [withdrawal]
    let this : ObjectRef := ⟨0, "acme.SavingsView"⟩
    let site := siteFor savings withdrawal.op
    let act := unit.activation broke.logged this (Blueprint.maxDepth - 1) [.int 5]
    withdrawal ∈ [withdrawal] ∧ withdrawal.policy.asynchronous = false ∧
      savings.kind ≠ .managed ∧ broke.logged.Logs Prod.snd ∧ broke.logged.Apart this ∧
      (∀ hook ∈ Hook.standard, unit.find? hook.name hook.params = none) ∧
      ∃ f out w' start guarded handling post after,
        exec (act.block (site.prologue withdrawal)) (site.startFrame withdrawal ((), [])) =
          (.ok .normal, f) ∧
        exec (unit.run broke.logged this (site.method withdrawal) [.int 5]) ((), []) = (out, w') ∧
        w'.2 = start ++ guarded ++ handling ++ post :: after ∧
        site.ExitProtocol withdrawal act f out start guarded handling post after := by
  intro unit this site act
  have hm : withdrawal ∈ [withdrawal] := List.mem_singleton_self _
  have hkind : savings.kind ≠ .managed := by decide
  have hlogs := Environment.logs_logged broke
  have hhooks : ∀ hook ∈ Hook.standard, unit.find? hook.name hook.params = none := by
    decide +kernel +revert
  obtain ⟨f, hstart⟩ : ∃ f, exec (act.block (site.prologue withdrawal))
      (site.startFrame withdrawal ((), [])) = (.ok .normal, f) := ⟨_, rfl⟩
  obtain ⟨hcompletes, -⟩ :=
    exitProtocol_run hm rfl hkind hlogs apart_broke hhooks [.int 5] ((), [])
  obtain ⟨out, w', start, guarded, handling, post, after, hrun, hlog, hprotocol⟩ :=
    hcompletes f hstart
  exact ⟨hm, rfl, hkind, hlogs, apart_broke, hhooks, f, out, w', start, guarded, handling, post,
    after, hstart, hrun, hlog, hprotocol⟩

/-- Both failures are noted, and that of the withdrawal, in a failure of the container, is the
    one that counts. -/
example : (exec ((blueprint savings [withdrawal]).run broke.logged ⟨0, "acme.SavingsView"⟩
      ((siteFor savings withdrawal.op).method withdrawal) [.int 5]) ((), [])).2.2.map
        (·.callee.name) =
    ["doesJaccNeedsEJBArguments", "EjbPreInvoke", "withdraw", "setUncheckedLocalException",
      "initCause", "postInvoke", "setUncheckedLocalException", "failureCleanup"] := by
  decide +kernel

end Wrapper

end ComponentViews
