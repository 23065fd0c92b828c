import ComponentViews.Proofs.Execution.ExitHooks

/-!
# What the caller sees of a failure

A failure of the guarded block of a dispatch method enters the handler that the classification
of the declared failures points to (`DispatchSite.find?_catches`), and from there on

* the container is told once, as of a declared failure or as of another one, and cleans up
  only after the latter;
* the caller gets a declared failure as it is, and so it gets a failure of the remote protocol
  if it comes over that protocol;
* in place of any other failure the caller gets a new one, with the failure as its cause.

`Wrapper.relayed_run` says so of the methods of wrappers (`DispatchSite.Relayed`), for runs in
which what the container does about the failure goes well. What is told to the container is
read off the log of the whole run. An endpoint calls its hooks on itself, and so must have no
method of its own in their place.
-/

namespace ComponentViews

open Effect

/-! ### What environments promise -/

/-- Constructors make objects, and an object other than the instance that is given a cause is what
    comes back. -/
structure Environment.Builds {σ : Type} (env : Environment σ) (this : ObjectRef) : Prop where
  create : ∀ className params args w v w',
    exec (env.create className params args) w = (.ok v, w') → ∃ o, v = .object o
  initCause : ∀ o args w v w', o.id ≠ this.id →
    exec (env.invoke DispatchSite.causeCallee (some (.object o)) args) w = (.ok v, w') →
      v = .object o

/-- The hooks by which the container learns of failures. -/
def Hook.reports : List Hook := [setChecked, setUncheckedRemote, setUncheckedLocal, failureCleanup]

namespace DispatchSite

open Activation

variable {site : DispatchSite} {m : ExposedOperation} {σ : Type} {act : Activation σ}
  {log : σ → List CallEvent} {f f₁ : Frame σ} {thrown : ObjectRef} {k : Option Handling}

/-! ### Handlers by what they are for -/

/-- The hook by which a handler notes its failure. -/
def noteFor (m : ExposedOperation) (k : Option Handling) : Hook :=
  if Handling.isDeclared k then .setChecked else recorder m

/-- The failure reaches the caller as it is: it is declared, or it is one of the remote
    protocol, and the caller comes over that protocol. -/
def passes (m : ExposedOperation) : Option Handling → Bool
  | some (.declared _) => true
  | some .protocol => m.isRmi
  | _ => false

/-- All handlers note their failure and end with one; only those for failures that are not
    declared raise the flag. -/
theorem body_catchFor (m : ExposedOperation) (k : Option Handling) (i : Nat) :
    (catchFor m k).body i =
      (if Handling.isDeclared k then [] else [.assign (places m).failed (.bool true)]) ++
        [.eval ((noteFor m k).invoke (.var (places m).support) [.var i]),
          .throw (if passes m k then .var i else wrapFailure m (.var i))] := by
  rcases k with _ | _ | _ | failure <;> rfl

theorem noteFor_mem_standard : noteFor m k ∈ Hook.standard := by
  rw [noteFor]
  split
  · simp [Hook.standard]
  · exact recorder_mem_standard m

theorem noteFor_mem_reports : noteFor m k ∈ Hook.reports := by
  rw [noteFor, recorder]
  split
  · simp [Hook.reports]
  · cases m.isRmi <;> simp [Hook.setUnchecked, Hook.reports]

theorem noteFor_ne_cleanup : Hook.failureCleanup.callee ≠ (noteFor m k).callee := by
  rw [noteFor, recorder]
  split
  · decide
  · cases m.isRmi <;> decide

/-! ### A new failure in place of another -/

/-- A failure constructed in the state `w` takes the place of the failure `thrown`, where the
    calls `calls` have been made. -/
structure Replaces (m : ExposedOperation) (env : Environment σ) (w : σ) (thrown : ObjectRef)
    (calls : List CallEvent) (t : ObjectRef) : Prop where
  /-- Callers over the remote protocol get one of its failures, which is made of the failure. -/
  remote : m.isRmi = true → ∀ v w',
    exec (env.create Known.remoteException [.string, .named Known.throwable]
      [.string s!"{m.op} failed", .object thrown]) w = (.ok v, w') → v = .object t
  /-- Other callers get one of the container, which is given the failure as its cause. -/
  container : m.isRmi = false → ∀ v w',
    exec (env.create Known.ejbException [.string] [.string s!"{m.op} failed"]) w = (.ok v, w') →
      v = .object t ∧ ∃ cause ∈ calls, cause.callee = causeCallee ∧ cause.receiver = some v ∧
        cause.args = [.object thrown]

theorem Replaces.mono {env : Environment σ} {w : σ} {calls calls' : List CallEvent} {t : ObjectRef}
    (h : Replaces m env w thrown calls t) (hcalls : calls ⊆ calls') :
    Replaces m env w thrown calls' t where
  remote := h.remote
  container hrmi v w' hcreate := by
    obtain ⟨hv, cause, hcause, hgives⟩ := h.container hrmi v w' hcreate
    exact ⟨hv, cause, hcalls hcause, hgives⟩

section

variable (hlogs : act.env.Logs log) (hapart : act.env.Apart act.this)
  (hbuilds : act.env.Builds act.this)

include hlogs hbuilds

/-- A failure of the remote protocol is thrown in place of another. -/
theorem exec_throw_remote {i : Nat} (hi : f.vars.getD i .null = .object thrown) :
    ∃ t f', exec (act.stmt (.throw (.new Known.remoteException [.string, .named Known.throwable]
        [.string s!"{m.op} failed", .var i]))) f = (.error t, f') ∧ Leads log [] f [] f' ∧
      ∀ v w', exec (act.env.create Known.remoteException [.string, .named Known.throwable]
        [.string s!"{m.op} failed", .object thrown]) f.world = (.ok v, w') → v = .object t := by
  have hargs : exec (act.evalAll [.string s!"{m.op} failed", .var i]) f =
      (.ok [.string s!"{m.op} failed", .object thrown], f) := by
    refine exec_evalAll_cons exec_eval_const (exec_evalAll_singleton ?_)
    rw [exec_eval_var, hi]
  have hworld := hlogs.create Known.remoteException [.string, .named Known.throwable]
    [.string s!"{m.op} failed", .object thrown] f.world
  rcases hcreate : exec (act.env.create Known.remoteException [.string, .named Known.throwable]
    [.string s!"{m.op} failed", .object thrown]) f.world with ⟨t | v, w⟩
  all_goals
    have heval : exec (act.eval (.new Known.remoteException [.string, .named Known.throwable]
        [.string s!"{m.op} failed", .var i])) f = _ :=
      (exec_eval_new hargs).trans (Run.exec_outside hcreate)
    rw [hcreate] at hworld
    have hleads : Leads log [] f [] ⟨f.vars, w⟩ :=
      ⟨rfl, fun _ _ => rfl, by rw [List.append_nil]; exact hworld⟩
  · refine ⟨t, _, exec_stmt_throw_error heval, hleads, fun v w' h => ?_⟩
    cases h
  · obtain ⟨o, rfl⟩ := hbuilds.create _ _ _ _ _ _ hcreate
    refine ⟨o, _, exec_stmt_throw heval, hleads, fun v w' h => ?_⟩
    cases h
    rfl

include hapart

/-- A failure of the container is thrown in place of another, which it is given as its cause. -/
theorem exec_throw_local {i : Nat} (hi : f.vars.getD i .null = .object thrown) :
    ∃ t f' causes, exec (act.stmt (.throw (.call causeCallee
        (some (.new Known.ejbException [.string] [.string s!"{m.op} failed"])) [.var i]))) f =
        (.error t, f') ∧ Leads log [] f causes f' ∧ (∀ e ∈ causes, e.callee = causeCallee) ∧
      ((∀ e ∈ causes, e.Returned) → ∀ v w', exec (act.env.create Known.ejbException [.string]
        [.string s!"{m.op} failed"]) f.world = (.ok v, w') → v = .object t ∧
          ∃ cause ∈ causes, cause.callee = causeCallee ∧ cause.receiver = some v ∧
            cause.args = [.object thrown]) := by
  have hargs : exec (act.evalAll [.string s!"{m.op} failed"]) f =
      (.ok [.string s!"{m.op} failed"], f) :=
    exec_evalAll_singleton exec_eval_const
  have hworld := hlogs.create Known.ejbException [.string] [.string s!"{m.op} failed"] f.world
  rcases hcreate : exec (act.env.create Known.ejbException [.string]
    [.string s!"{m.op} failed"]) f.world with ⟨t | v, w⟩
  all_goals
    have hnew : exec (act.eval (.new Known.ejbException [.string]
        [.string s!"{m.op} failed"])) f = _ :=
      (exec_eval_new hargs).trans (Run.exec_outside hcreate)
    rw [hcreate] at hworld
  · -- The new failure cannot be made, and what its constructor throws is thrown.
    refine ⟨t, _, [], exec_stmt_throw_error (exec_eval_call_error hnew),
      ⟨rfl, fun _ _ => rfl, by rw [List.append_nil]; exact hworld⟩, by simp, fun _ v w' h => ?_⟩
    cases h
  · -- The new failure is another object than this instance, so the call goes outside.
    obtain ⟨o, rfl⟩ := hbuilds.create _ _ _ _ _ _ hcreate
    have hne : o.id ≠ act.this.id := hapart.create _ _ _ _ _ (congrArg Prod.fst hcreate)
    have hcause : exec (act.evalAll [.var i]) ⟨f.vars, w⟩ =
        (.ok [.object thrown], ⟨f.vars, w⟩) := by
      refine exec_evalAll_singleton ?_
      rw [exec_eval_var]
      exact congrArg (fun v => (Except.ok v, _)) hi
    rcases hinvoke : exec (act.env.invoke causeCallee (some (.object o)) [.object thrown]) w
      with ⟨out, w'⟩
    have hlog := hlogs.invoke causeCallee (some (.object o)) [.object thrown] w
    rw [hinvoke, hworld] at hlog
    have heval : exec (act.eval (.call causeCallee
        (some (.new Known.ejbException [.string] [.string s!"{m.op} failed"])) [.var i])) f =
        (out, ⟨f.vars, w'⟩) := by
      rw [exec_eval_call hnew hcause, invoke_outside fun h => absurd h hne]
      exact Run.exec_outside hinvoke
    have hleads : Leads log [] f [⟨causeCallee, some (.object o), [.object thrown], out⟩]
        ⟨f.vars, w'⟩ := ⟨rfl, fun _ _ => rfl, hlog⟩
    rcases out with t | v
    · refine ⟨t, _, _, exec_stmt_throw_error heval, hleads, by simp, fun hreturned => ?_⟩
      exact absurd rfl (hreturned _ (List.mem_singleton_self _)).outcome_ne
    · obtain rfl := hbuilds.initCause _ _ _ _ _ hne hinvoke
      refine ⟨o, _, _, exec_stmt_throw heval, hleads, by simp, fun _ v w'' h => ?_⟩
      cases h
      exact ⟨rfl, _, List.mem_singleton_self _, rfl, rfl, rfl⟩

/-- What is thrown in place of a failure. -/
theorem exec_throw_wrapFailure {i : Nat} (hi : f.vars.getD i .null = .object thrown) :
    ∃ t f' causes, exec (act.stmt (.throw (wrapFailure m (.var i)))) f = (.error t, f') ∧
      Leads log [] f causes f' ∧ (∀ e ∈ causes, e.callee = causeCallee) ∧
      ((∀ e ∈ causes, e.Returned) → Replaces m act.env f.world thrown causes t) := by
  cases hrmi : m.isRmi
  · obtain ⟨t, f', causes, hthrow, hleads, hcauses, hreplaces⟩ :=
      exec_throw_local hlogs hapart hbuilds (m := m) hi
    refine ⟨t, f', causes, ?_, hleads, hcauses, fun h => ⟨by simp [hrmi], fun _ => hreplaces h⟩⟩
    rw [wrapFailure, if_neg (by simp [hrmi])]
    exact hthrow
  · obtain ⟨t, f', hthrow, hleads, hreplaces⟩ := exec_throw_remote hlogs hbuilds (m := m) hi
    refine ⟨t, f', [], ?_, hleads, by simp, fun _ => ⟨fun _ => hreplaces, by simp [hrmi]⟩⟩
    rw [wrapFailure, if_pos hrmi]
    exact hthrow

end

/-! ### Handlers that are entered -/

section

variable (hobs : site.Observed act log) (hbuilds : act.env.Builds act.this)

include hobs

/-- A failure is noted with one call. Where that returns, the throw behind it runs. -/
theorem exec_noted {hook : Hook} (hhook : hook ∈ Hook.standard) {i : Nat} {v : Value} (e : Expr)
    (hi : f.vars.getD i .null = v) (hsupport : f.vars.getD (places m).support .null ≠ .null)
    (hother : act.HoldsOther (places m).support f) :
    ∃ note f₁, note.callee = hook.callee ∧ note.args = [v] ∧ Leads log [] f [note] f₁ ∧
      (note.Returned → exec (act.block [.eval (hook.invoke (.var (places m).support) [.var i]),
        .throw e]) f = exec (act.stmt (.throw e)) f₁) ∧
      (¬ note.Returned → ∃ t, exec (act.block
        [.eval (hook.invoke (.var (places m).support) [.var i]), .throw e]) f =
          (.error t, f₁)) := by
  obtain ⟨out, f₁, noted, hnote, hleads, hcalling, hargs, hsome⟩ :=
    exec_note hobs hhook i hother
  rw [hi] at hargs
  cases hcalling with
  | @returned note he hreturned =>
    refine ⟨note, f₁, he, hargs note (List.mem_singleton_self _), hleads, fun _ => ?_,
      fun h => absurd hreturned h⟩
    rw [exec_block_normal hnote, exec_block_singleton]
  | @failed note t he hfailed =>
    exact ⟨note, f₁, he, hargs note (List.mem_singleton_self _), hleads,
      fun h => absurd hfailed h.outcome_ne, fun _ => ⟨t, exec_block_error hnote⟩⟩
  | missed => exact absurd rfl (hsome hsupport)

omit hobs in
/-- Before the failure is noted, the handlers differ in the flag. -/
theorem exec_flagFor (act : Activation σ) (log : σ → List CallEvent) (k : Option Handling) {i : Nat}
    (hfailed : (places m).failed < f.vars.length) :
    ∃ f', exec (act.block ((catchFor m k).body i)) f = exec (act.block
        [.eval ((noteFor m k).invoke (.var (places m).support) [.var i]),
          .throw (if passes m k then .var i else wrapFailure m (.var i))]) f' ∧
      Leads log [(places m).failed] f [] f' ∧ f'.vars.getD (places m).failed .null =
        (if Handling.isDeclared k then f.vars.getD (places m).failed .null else .bool true) := by
  rw [body_catchFor]
  cases Handling.isDeclared k
  · refine ⟨⟨f.vars.set (places m).failed (.bool true), f.world⟩, ?_,
      Leads.set (.refl _ f) (List.mem_singleton_self _) _, getD_set hfailed⟩
    exact exec_block_normal (exec_stmt_assign exec_eval_const)
  · exact ⟨f, rfl, .refl _ f, rfl⟩

include hbuilds

/-- Once the failure is noted, a handler ends with it, or with the one that takes its place. -/
theorem exec_throwFor (k : Option Handling) {i : Nat} (hi : f.vars.getD i .null = .object thrown) :
    ∃ t f' causes, exec (act.stmt (.throw (if passes m k then .var i else
        wrapFailure m (.var i)))) f = (.error t, f') ∧ Leads log [] f causes f' ∧
      (∀ e ∈ causes, e.callee = causeCallee) ∧ ((∀ e ∈ causes, e.Returned) →
        (passes m k = true → t = thrown) ∧
        (passes m k = false → Replaces m act.env f.world thrown causes t)) := by
  cases hpasses : passes m k
  · obtain ⟨t, f', causes, hthrow, hleads, hcauses, hreplaces⟩ :=
      exec_throw_wrapFailure hobs.logs hobs.apart hbuilds (m := m) hi
    exact ⟨t, f', causes, hthrow, hleads, hcauses, fun h => ⟨by simp, fun _ => hreplaces h⟩⟩
  · exact ⟨thrown, f, [], exec_stmt_throw (exec_eval_var.trans (by rw [hi])), .refl _ f, by simp,
      fun _ => ⟨fun _ => rfl, by simp⟩⟩

/-- What a handler does about its failure: it notes it, and ends with it, or with the one that
    takes its place. -/
theorem exec_catchFor (k : Option Handling) {i : Nat} (hi : f.vars.getD i .null = .object thrown)
    (hplace : i ≠ (places m).failed) (hfailed : (places m).failed < f.vars.length)
    (hsupport : f.vars.getD (places m).support .null ≠ .null)
    (hother : act.HoldsOther (places m).support f) :
    ∃ t f' note causes, exec (act.block ((catchFor m k).body i)) f = (.error t, f') ∧
      Leads log [(places m).failed] f (note :: causes) f' ∧
      f'.vars.getD (places m).failed .null =
        (if Handling.isDeclared k then f.vars.getD (places m).failed .null else .bool true) ∧
      note.callee = (noteFor m k).callee ∧ note.args = [.object thrown] ∧
      (∀ e ∈ causes, e.callee = causeCallee) ∧ ((∀ e ∈ note :: causes, e.Returned) →
        (passes m k = true → t = thrown) ∧ (passes m k = false → ∃ w,
          log w = log f.world ++ [note] ∧ Replaces m act.env w thrown causes t)) := by
  obtain ⟨f₀, hstart, hleads₀, hflag⟩ := exec_flagFor act log k hfailed
  have hkept : f₀.vars.getD i .null = .object thrown ∧
      f₀.vars.getD (places m).support .null = f.vars.getD (places m).support .null := by
    rw [hleads₀.keeps i (by simpa using hplace), hleads₀.keeps _ (by simp [places])]
    exact ⟨hi, rfl⟩
  obtain ⟨note, f₁, hcallee, hargs, hleads₁, hreturned, hfails⟩ :=
    exec_noted hobs (noteFor_mem_standard (m := m) (k := k)) _ hkept.1 (hkept.2 ▸ hsupport)
      (hother.congr hkept.2)
  have hnoted : Leads log [(places m).failed] f [note] f₁ :=
    hleads₀.trans (hleads₁.mono (List.nil_subset _))
  by_cases hnote : note.Returned
  · obtain ⟨t, f₂, causes, hthrow, hleads₂, hcauses, hends⟩ :=
      exec_throwFor hobs hbuilds k (f := f₁) (hleads₁.keeps i List.not_mem_nil ▸ hkept.1)
    refine ⟨t, f₂, note, causes, hstart.trans ((hreturned hnote).trans hthrow),
      hnoted.trans (hleads₂.mono (List.nil_subset _)), ?_, hcallee, hargs, hcauses, fun hall => ?_⟩
    · rw [hleads₂.keeps _ List.not_mem_nil, hleads₁.keeps _ List.not_mem_nil, hflag]
    · obtain ⟨hsame, hreplaces⟩ := hends fun e he => hall e (List.mem_cons_of_mem _ he)
      exact ⟨hsame, fun h => ⟨f₁.world, hnoted.logged, hreplaces h⟩⟩
  · -- The note fails, and its failure ends the handler.
    obtain ⟨t, hfailure⟩ := hfails hnote
    refine ⟨t, f₁, note, [], hstart.trans hfailure, hnoted, ?_, hcallee, hargs, by simp,
      fun hall => absurd (hall note List.mem_cons_self) hnote⟩
    rw [hleads₁.keeps _ List.not_mem_nil, hflag]

end

/-! ### What the container is told -/

/-- The calls by which the container learns of failures. -/
def reports (events : List CallEvent) : List CallEvent :=
  events.filter fun e => e.callee ∈ Hook.reports.map Hook.callee

theorem reports_append (first rest : List CallEvent) :
    reports (first ++ rest) = reports first ++ reports rest :=
  List.filter_append ..

theorem reports_eq_nil {events : List CallEvent}
    (hevents : ∀ e ∈ events, e.callee ∉ Hook.reports.map Hook.callee) : reports events = [] := by
  rw [reports, List.filter_eq_nil_iff]
  exact fun e he => by simpa using hevents e he

theorem reports_eq_self {events : List CallEvent}
    (hevents : ∀ e ∈ events, e.callee ∈ Hook.reports.map Hook.callee) :
    reports events = events := by
  rw [reports, List.filter_eq_self]
  exact fun e he => by simpa using hevents e he

theorem causeCallee_not_mem_reports : causeCallee ∉ Hook.reports.map Hook.callee := by
  decide

/-- None of the hooks around the call tells of a failure. -/
theorem around_not_mem_reports :
    ∀ hook ∈ [Hook.checkState, Hook.needsArguments, site.preHook, site.postHook],
      hook.callee ∉ Hook.reports.map Hook.callee := by
  have hall : ∀ p ∈ [(Hook.endpointPreInvoke, Hook.endpointPostInvoke),
      (Hook.preInvokeStatelessCreate, Hook.postInvokeStatelessCreate),
      (Hook.preInvoke, Hook.postInvoke)],
      ∀ hook ∈ [Hook.checkState, Hook.needsArguments, p.1, p.2],
        hook.callee ∉ Hook.reports.map Hook.callee := by decide
  exact hall _ site.preHook_postHook_mem

/-- Behind the guarded block it is told of the failure, and asked to clean up. -/
theorem reports_behind {note post : CallEvent} {causes cleaned : List CallEvent}
    (hnote : note.callee = (noteFor m k).callee) (hcauses : ∀ e ∈ causes, e.callee = causeCallee)
    (hpost : post.callee = site.postHook.callee)
    (hcleaned : ∀ e ∈ cleaned, e.callee = Hook.failureCleanup.callee) :
    reports (note :: causes ++ post :: ([] ++ cleaned)) = note :: cleaned := by
  have hnoted : reports [note] = [note] := reports_eq_self <| by
    rw [List.forall_mem_singleton, hnote]
    exact List.mem_map_of_mem noteFor_mem_reports
  have hcaused : reports causes = [] :=
    reports_eq_nil fun e he => hcauses e he ▸ causeCallee_not_mem_reports
  have hposted : reports [post] = [] := reports_eq_nil <| by
    rw [List.forall_mem_singleton, hpost]
    exact site.around_not_mem_reports _ (by simp)
  have hcleanup : reports cleaned = cleaned := reports_eq_self fun e he =>
    hcleaned e he ▸ List.mem_map_of_mem (by simp [Hook.reports])
  have hparts : note :: causes ++ post :: ([] ++ cleaned) =
      [note] ++ (causes ++ ([post] ++ cleaned)) := by simp
  rw [hparts, reports_append, reports_append, reports_append, hnoted, hcaused, hposted, hcleanup]
  rfl

/-- Up to the end of the guarded block the container is told nothing, unless the target is
    itself what it is told by. -/
theorem quiet_of_guarded {start asked called : List CallEvent}
    (hstart : ∀ e ∈ start, e.callee = Hook.checkState.callee)
    (hasked : ∀ e ∈ asked, e.callee = Hook.needsArguments.callee)
    (hcalled : site.Announced m called) :
    ∀ e ∈ start ++ (asked ++ called), e.callee ∈ Hook.reports.map Hook.callee →
      e.callee = site.targetCallee m := by
  have haround := site.around_not_mem_reports
  simp only [List.forall_mem_cons] at haround
  obtain ⟨hcheck, hneeds, hpre, -⟩ := haround
  simp only [List.forall_mem_append]
  refine ⟨fun e he hmem => absurd (hstart e he ▸ hmem) hcheck,
    fun e he hmem => absurd (hasked e he ▸ hmem) hneeds, ?_⟩
  cases hcalled with
  | nothing => simp
  | announced h =>
    rw [List.forall_mem_singleton]
    exact fun hmem => absurd (h ▸ hmem) hpre
  | called h _ ht =>
    rw [List.forall_mem_cons, List.forall_mem_singleton]
    exact ⟨fun hmem => absurd (h ▸ hmem) hpre, fun _ => ht⟩

/-! ### Runs -/

/-- What becomes of a failure that has left the guarded block in the state `w`: `before` has been
    called up to then, and `behind` afterwards. -/
structure Relayed (site : DispatchSite) (m : ExposedOperation) (env : Environment σ)
    (log : σ → List CallEvent) (thrown : ObjectRef) (w : σ) (before behind : List CallEvent)
    (out : Except ObjectRef Value) (k : Option Handling) : Prop where
  /-- Up to then the container has been told nothing, unless it is the target that it is told by. -/
  quiet : ∀ e ∈ before, e.callee ∈ Hook.reports.map Hook.callee → e.callee = site.targetCallee m
  /-- It is told once, and cleans up if the failure is not declared. -/
  reports : (reports behind).map (·.callee) =
    (noteFor m k).callee :: if Handling.isDeclared k then [] else [Hook.failureCleanup.callee]
  /-- It is told of this failure. -/
  noted : ∀ e ∈ behind, e.callee = (noteFor m k).callee → e.args = [.object thrown]
  /-- The caller gets the failure itself, -/
  passed : passes m k = true → out = .error thrown
  /-- or the one that takes its place behind the note. -/
  replaced : passes m k = false → ∃ t note rest w', out = .error t ∧ behind = note :: rest ∧
    log w' = log w ++ [note] ∧ Replaces m env w' thrown rest t

/-- In the whole run the container is told once, where it is not the target that it is told by. -/
theorem Relayed.reports_run {env : Environment σ} {w : σ} {before behind : List CallEvent}
    {out : Except ObjectRef Value} (h : Relayed site m env log thrown w before behind out k)
    (htarget : site.targetCallee m ∉ Hook.reports.map Hook.callee) :
    (DispatchSite.reports (before ++ behind)).map (·.callee) = (noteFor m k).callee ::
      if Handling.isDeclared k then [] else [Hook.failureCleanup.callee] := by
  have hquiet : DispatchSite.reports before = [] :=
    reports_eq_nil fun e he hmem => htarget (h.quiet e he hmem ▸ hmem)
  rw [DispatchSite.reports_append, hquiet, List.nil_append, h.reports]

/-- A failure of the guarded block, from the block on to the end of the handler that takes it. -/
theorem exec_handled_failure (hobs : site.Observed act log) (hbuilds : act.env.Builds act.this)
    (hlength : (places m).handlers + (catches m).length ≤ f.vars.length)
    (hfailed : f.vars.getD (places m).failed .null = .bool false)
    (hsupport : f.vars.getD (places m).support .null ≠ .null)
    (hother : act.HoldsOther (places m).support f)
    (hguarded : exec (act.block (site.guarded m)) f = (.error thrown, f₁))
    (hk : m.failures.handlingOf? act.env.isSubtype thrown.className = k) :
    ∃ t f' note causes, exec (site.handled m act) f = (.error t, f') ∧
      f'.vars.length = f.vars.length ∧ log f'.world = log f₁.world ++ note :: causes ∧
      f'.vars.getD (places m).support .null = f.vars.getD (places m).support .null ∧
      f'.vars.getD (places m).failed .null = .bool (!Handling.isDeclared k) ∧
      note.callee = (noteFor m k).callee ∧ note.args = [.object thrown] ∧
      (∀ e ∈ causes, e.callee = causeCallee) ∧ ((∀ e ∈ note :: causes, e.Returned) →
        (passes m k = true → t = thrown) ∧ (passes m k = false → ∃ w,
          log w = log f₁.world ++ [note] ∧ Replaces m act.env w thrown causes t)) := by
  have hplaces : (places m).bean < f.vars.length ∧ (places m).failed < (places m).handlers ∧
      (places m).support < (places m).handlers := by
    simp only [places] at hlength ⊢
    omega
  have hkept : (places m).support ∉ guardedPlaces m ∧ (places m).failed ∉ guardedPlaces m := by
    cases hr : hasResult m <;> simp [guardedPlaces, places, hr]
  obtain ⟨asked, called, hleads, -, -⟩ := exec_guarded hobs (m := m) hplaces.1
  rw [hguarded] at hleads
  have hfind := find?_catches act m thrown
  rw [hk] at hfind
  obtain ⟨i, hi, hi', hfirst⟩ := exec_firstHandler_find hfind (places m).handlers f₁
  -- The variable of the handler is none of those whose values are told.
  let f₂ : Frame σ := ⟨f₁.vars.set i (.object thrown), f₁.world⟩
  have hlength₁ : f₁.vars.length = f.vars.length := hleads.length
  have hbound : f₂.vars.getD i .null = .object thrown := getD_set (by omega)
  have hflag₂ : f₂.vars.getD (places m).failed .null = .bool false := by
    rw [getD_set_ne (by omega), hleads.keeps _ hkept.2, hfailed]
  have hsupport₂ : f₂.vars.getD (places m).support .null =
      f.vars.getD (places m).support .null := by
    rw [getD_set_ne (by omega), hleads.keeps _ hkept.1]
  obtain ⟨t, f₃, note, causes, hbody, hleads₃, hflag, hcallee, hargs, hcauses, hends⟩ :=
    exec_catchFor hobs hbuilds k hbound (by omega) (by simp [f₂]; omega) (hsupport₂ ▸ hsupport)
      (hother.congr hsupport₂)
  refine ⟨t, f₃, note, causes, (exec_handle_error hguarded).trans (hfirst.trans hbody), ?_,
    hleads₃.logged, ?_, ?_, hcallee, hargs, hcauses, hends⟩
  · rw [hleads₃.length, List.length_set, hlength₁]
  · rw [hleads₃.keeps _ (by simp [places]), hsupport₂]
  · rw [hflag, hflag₂]
    cases Handling.isDeclared k <;> rfl

/-- A failure of the guarded block, from the block on to the end of the method. -/
theorem exec_relay (hobs : site.Observed act log) (hbuilds : act.env.Builds act.this)
    (hlength : (places m).handlers + (catches m).length ≤ f.vars.length)
    (hfailed : f.vars.getD (places m).failed .null = .bool false)
    (hsupport : f.vars.getD (places m).support .null ≠ .null)
    (hother : act.HoldsOther (places m).support f)
    (hguarded : exec (act.block (site.guarded m)) f = (.error thrown, f₁))
    (hk : m.failures.handlingOf? act.env.isSubtype thrown.className = k) :
    ∃ out f' behind,
      exec (act.block [.region (site.guarded m) (Catch.handlers (places m).handlers (catches m))
          (some ⟨some (places m).inFlight, site.epilogue m⟩), .ret ((places m).result.map .var)])
        f = (out, f') ∧
      log f'.world = log f₁.world ++ behind ∧
      ∀ before, (∀ e ∈ before, e.callee ∈ Hook.reports.map Hook.callee →
          e.callee = site.targetCallee m) → (∀ e ∈ behind, e.Returned) →
        Relayed site m act.env log thrown f₁.world before behind (Blueprint.resultOf out) k := by
  obtain ⟨t, f₂, note, causes, hhandled, hlength₂, hlog₂, hsupport₂, hflag, hcallee, hargs,
    hcauses, hends⟩ :=
    exec_handled_failure hobs hbuilds hlength hfailed hsupport hother hguarded hk
  obtain ⟨out, f', post, noted, cleaned, concluded, hexec, hlog, hconcluded, hnormal, -⟩ :=
    exec_exit hobs (hlength₂ ▸ hlength) (hother.congr hsupport₂) hhandled
  refine ⟨out, f', note :: causes ++ post :: (noted ++ cleaned), hexec, ?_,
    fun before hquietBefore hreturned => ?_⟩
  · rw [hlog, hlog₂, List.append_assoc]
  -- The hook behind the call has returned, so the exit adds no note, and the failure that the
  -- handler has ended with is that of the method.
  simp only [List.forall_mem_append, List.forall_mem_cons] at hreturned
  obtain ⟨⟨hnote, hcausesReturned⟩, hpost, -, hcleaned⟩ := hreturned
  obtain ⟨rfl, hquiet⟩ := hconcluded.quiet hpost
  have hout : Blueprint.resultOf out = .error t := hnormal (hquiet hcleaned)
  obtain ⟨hsame, hreplaced⟩ := hends (List.forall_mem_cons.2 ⟨hnote, hcausesReturned⟩)
  have hreports : reports (note :: causes ++ post :: ([] ++ cleaned)) = note :: cleaned :=
    reports_behind hcallee hcauses hconcluded.post_callee hconcluded.cleaned_callee
  have hlengthCleaned := hconcluded.cleaned_length
  rw [hflag] at hlengthCleaned
  rw [hout]
  refine ⟨hquietBefore, ?_, fun e he hnoted => ?_, fun h => by rw [hsame h], fun h => ?_⟩
  · rw [hreports, List.map_cons, hcallee]
    congr 1
    cases hdeclared : Handling.isDeclared k <;> rw [hdeclared] at hlengthCleaned
    · obtain ⟨e, rfl⟩ := List.length_eq_one_iff.1 hlengthCleaned
      exact congrArg (fun c => [c]) (hconcluded.cleaned_callee e (List.mem_singleton_self _))
    · rw [List.length_eq_zero_iff.1 hlengthCleaned]
      rfl
  · have hmem : e ∈ reports (note :: causes ++ post :: ([] ++ cleaned)) := by
      rw [reports, List.mem_filter]
      exact ⟨he, by simpa [hnoted] using List.mem_map_of_mem (f := Hook.callee) noteFor_mem_reports⟩
    rw [hreports, List.mem_cons] at hmem
    rcases hmem with rfl | hmem
    · exact hargs
    · exact absurd ((hconcluded.cleaned_callee e hmem).symm.trans hnoted) noteFor_ne_cleanup
  · obtain ⟨w', hlog', hreplaces⟩ := hreplaced h
    exact ⟨t, note, _, w', rfl, rfl, hlog', hreplaces.mono (List.subset_append_left _ _)⟩

/-- Behind the start there is something to note failures in. -/
theorem support_ne_null_of_prologue (hobs : site.Observed act log)
    (hbuilds : act.env.Builds act.this) {f' : Frame σ}
    (hsupport : (places m).support < f'.vars.length)
    (hstart : exec (act.block (site.prologue m)) f = (.ok .normal, f')) :
    f'.vars.getD (places m).support .null ≠ .null := by
  obtain ⟨f₁, f₂, heval⟩ := support_of_prologue hsupport hstart
  intro hnull
  rw [hnull, supportValue] at heval
  split at heval
  · obtain ⟨o, f₃, hexec, -, -⟩ :=
      settlesOn_field hobs.logs hobs.apart (settlesOn_base hobs) _ f₁
    cases hexec.symm.trans heval
  · rw [exec_eval_new exec_evalAll_nil] at heval
    rcases hcreate : exec (act.env.create Known.deployedSupport [] []) f₁.world with ⟨out, w⟩
    rw [Run.exec_outside hcreate] at heval
    cases heval
    obtain ⟨o, ho⟩ := hbuilds.create _ _ _ _ _ _ hcreate
    cases ho

/-- A run of the body in which a failure leaves the guarded block. -/
theorem exec_standardBody_relay (hobs : site.Observed act log)
    (hbuilds : act.env.Builds act.this) {w : σ}
    (hstart : exec (act.block (site.prologue m)) (site.startFrame m w) = (.ok .normal, f))
    (hguarded : exec (act.block (site.guarded m)) f = (.error thrown, f₁)) :
    ∃ out f' before behind,
      exec (act.block (site.standardBody m).block) (site.startFrame m w) = (out, f') ∧
      log f₁.world = log w ++ before ∧ log f'.world = log f₁.world ++ behind ∧
      ((∀ e ∈ behind, e.Returned) →
        Relayed site m act.env log thrown f₁.world before behind (Blueprint.resultOf out)
          (m.failures.handlingOf? act.env.isSubtype thrown.className)) := by
  obtain ⟨start, hleads, hcallees⟩ := stepsOnly_prologue hobs (m := m) (site.startFrame m w)
  rw [hstart] at hleads
  have hlength : f.vars.length = (places m).handlers + (catches m).length := by
    rw [hleads.length, length_startFrame]
  have hplaces : (places m).bean < f.vars.length ∧ (places m).failed < f.vars.length ∧
      (places m).support < f.vars.length := by
    simp only [places] at hlength ⊢
    omega
  obtain ⟨asked, called, hleads₁, hasked, hcalled⟩ := exec_guarded hobs (m := m) hplaces.1
  rw [hguarded] at hleads₁
  obtain ⟨out, f', behind, hexec, hlog, hrelayed⟩ := exec_relay hobs hbuilds hlength.ge
    (failed_of_prologue hplaces.2.1 hstart)
    (support_ne_null_of_prologue hobs hbuilds hplaces.2.2 hstart)
    (holdsOther_of_prologue hobs hplaces.2.2 hstart) hguarded rfl
  refine ⟨out, f', start ++ (asked ++ called), behind, ?_, ?_, hlog, fun hreturned => ?_⟩
  · rw [standardBody, exec_block_append hstart]
    exact hexec
  · rw [hleads₁.logged, hleads.logged, List.append_assoc]
    rfl
  · refine hrelayed _ (quiet_of_guarded ?_ hasked hcalled) hreturned
    exact fun e he => List.mem_singleton.1 (hcallees e he)

end DispatchSite

/-! ### Wrappers -/

namespace Wrapper

open Activation
open Environment (failingAt apart_failingAt)

variable {r : Request} {exposed : List ExposedOperation} {m : ExposedOperation} {σ : Type}
  {env : Environment σ} {log : σ → List CallEvent} {this : ObjectRef}

/-- What becomes of a failure that leaves the guarded block of a standard dispatch method of a
    wrapper, where what is called afterwards returns. -/
theorem relayed_run (hsync : m.policy.asynchronous = false) (hkind : r.kind ≠ .managed)
    (hlogs : env.Logs log) (hapart : env.Apart this) (hbuilds : env.Builds this)
    (hhooks : r.kind = .endpoint → ∀ hook ∈ Hook.ofEndpoint,
      (blueprint r exposed).find? hook.name hook.params = none)
    (args : List Value) (w : σ) :
    let site := siteFor r m.op
    let act := (blueprint r exposed).activation env this (Blueprint.maxDepth - 1) args
    ∀ f f₁ thrown, exec (act.block (site.prologue m)) (site.startFrame m w) = (.ok .normal, f) →
      exec (act.block (site.guarded m)) f = (.error thrown, f₁) →
      ∃ out w' before behind,
        exec ((blueprint r exposed).run env this (site.method m) args) w = (out, w') ∧
        log f₁.world = log w ++ before ∧ log w' = log f₁.world ++ behind ∧
        ((∀ e ∈ behind, e.Returned) →
          site.Relayed m env log thrown f₁.world before behind out
            (m.failures.handlingOf? env.isSubtype thrown.className)) := by
  intro site act f f₁ thrown hstart hguarded
  have hobs : site.Observed act log := observed_of_hooks hlogs hapart hhooks _ _ _
  have hbody : (site.method m).body = some (site.standardBody m) := by
    have hkind : site.kind ≠ .managed := hkind
    simp [DispatchSite.method, hsync, hkind]
  obtain ⟨out, f', before, behind, hexec, hbefore, hbehind, hrelayed⟩ :=
    DispatchSite.exec_standardBody_relay hobs hbuilds hstart hguarded
  exact ⟨_, f'.world, before, behind, Blueprint.exec_runMethod hbody hexec, hbefore, hbehind,
    hrelayed⟩

/-! ### A withdrawal that fails -/

theorem builds_failingAt (name className : String) (failure : ObjectRef) :
    (failingAt name failure).logged.Builds ⟨0, className⟩ where
  create className _ _ w v w' h := by
    cases h
    exact ⟨⟨w.1 + 3, className⟩, rfl⟩
  initCause o args w v w' hne h := by
    have h : (exec ((failingAt name failure).invoke DispatchSite.causeCallee (some (.object o))
      args) w.1).1 = .ok v := congrArg Prod.fst h
    obtain ⟨_ | n, className⟩ := o
    · exact absurd rfl hne
    simp only [failingAt] at h
    split at h
    · cases h
    · cases h
      rfl

/-- Whether a block has run to its end. -/
def isNormal : Except ObjectRef Flow → Bool
  | .ok .normal => true
  | _ => false

theorem returned_of_isOk {e : CallEvent} (he : e.outcome.isOk = true) : e.Returned := by
  rcases hout : e.outcome with t | v <;> rw [hout] at he
  · cases he
  · exact ⟨v, hout⟩

/-- All that is called behind a withdrawal that fails returns. -/
theorem returned_behind_withdrawal {out : Except ObjectRef Value} {w' : Nat × List CallEvent}
    (hrun : exec ((blueprint savings [withdrawal]).run
      (failingAt "withdraw" ⟨2, Known.runtimeException⟩).logged ⟨0, "acme.SavingsView"⟩
      ((siteFor savings withdrawal.op).method withdrawal) [.int 5]) (0, []) = (out, w')) :
    ∀ e ∈ w'.2.drop 3, e.Returned := by
  have hall : ((exec ((blueprint savings [withdrawal]).run
      (failingAt "withdraw" ⟨2, Known.runtimeException⟩).logged ⟨0, "acme.SavingsView"⟩
      ((siteFor savings withdrawal.op).method withdrawal) [.int 5]) (0, [])).2.2.drop 3).all
        (·.outcome.isOk) = true := by
    decide +kernel
  rw [hrun, List.all_eq_true] at hall
  exact fun e he => returned_of_isOk (hall e he)

theorem relayed_withdrawal :
    let unit := blueprint savings [withdrawal]
    let env := (failingAt "withdraw" ⟨2, Known.runtimeException⟩).logged
    let this : ObjectRef := ⟨0, "acme.SavingsView"⟩
    let site := siteFor savings withdrawal.op
    let act := unit.activation env this (Blueprint.maxDepth - 1) [.int 5]
    withdrawal.policy.asynchronous = false ∧ savings.kind ≠ .managed ∧ env.Logs Prod.snd ∧
      env.Apart this ∧ env.Builds this ∧
      (∀ hook ∈ Hook.ofEndpoint, unit.find? hook.name hook.params = none) ∧
      ∃ f f₁ thrown out w' before behind,
        exec (act.block (site.prologue withdrawal)) (site.startFrame withdrawal (0, [])) =
          (.ok .normal, f) ∧
        exec (act.block (site.guarded withdrawal)) f = (.error thrown, f₁) ∧
        exec (unit.run env this (site.method withdrawal) [.int 5]) (0, []) = (out, w') ∧
        f₁.world.2 = before ∧ w'.2 = before ++ behind ∧ (∀ e ∈ behind, e.Returned) ∧
        site.Relayed withdrawal env Prod.snd thrown f₁.world before behind out
          (some .runtime) := by
  intro unit env this site act
  have hkind : savings.kind ≠ .managed := by decide
  have hlogs := Environment.logs_logged (failingAt "withdraw" ⟨2, Known.runtimeException⟩)
  have hapart := apart_failingAt "withdraw" "acme.SavingsView" ⟨2, Known.runtimeException⟩
  have hbuilds := builds_failingAt "withdraw" "acme.SavingsView" ⟨2, Known.runtimeException⟩
  have hhooks : ∀ hook ∈ Hook.ofEndpoint, unit.find? hook.name hook.params = none := by
    decide +kernel +revert
  let f := (exec (act.block (site.prologue withdrawal)) (site.startFrame withdrawal (0, []))).2
  let f₁ := (exec (act.block (site.guarded withdrawal)) f).2
  have hstart : exec (act.block (site.prologue withdrawal))
      (site.startFrame withdrawal (0, [])) = (.ok .normal, f) := Prod.ext rfl rfl
  have hguarded : exec (act.block (site.guarded withdrawal)) f =
      (.error ⟨2, Known.runtimeException⟩, f₁) := Prod.ext rfl rfl
  obtain ⟨out, w', before, behind, hrun, hbefore, hbehind, hrelayed⟩ :=
    relayed_run rfl hkind hlogs hapart hbuilds (fun _ => hhooks) [.int 5] (0, []) f f₁ _ hstart
      hguarded
  have hreturned : ∀ e ∈ behind, e.Returned := by
    have hlength : f₁.world.2.length = 3 := rfl
    have hdrop : w'.2.drop 3 = behind := by
      rw [hbehind]
      exact List.drop_left' hlength
    rw [← hdrop]
    exact returned_behind_withdrawal hrun
  have hclassified : withdrawal.failures.handlingOf? env.isSubtype Known.runtimeException =
      some .runtime := by decide
  rw [hclassified] at hrelayed
  exact ⟨rfl, hkind, hlogs, hapart, hbuilds, hhooks, f, f₁, _, out, w', before, behind, hstart,
    hguarded, hrun, hbefore, by rw [hbehind, hbefore]; rfl, hreturned, hrelayed hreturned⟩

/-! ### Listeners that take a hook's name -/

/-- A listener with an operation that has the name and the parameters of the hook by which its
    own calls are announced. -/
def announcingListener : Request where
  component := "Account"
  componentType := .messageDriven
  kind := .endpoint
  interfaces := [{ name := "acme.Listener", methods := [
    { name := "onMessage", throws := [.named "acme.AccountException"] },
    { name := "mdbMethodPreInvoke", params := [.int, Hook.objects], result := .object,
      throws := [.named "acme.AccountException"] }] }]
  bean := { className := "acme.AccountBean" }

/-- The operation of a listener that takes messages. -/
def onMessage : ExposedOperation where
  op := { name := "onMessage", throws := [.named "acme.AccountException"],
          owner := "acme.Listener" }
  id := 1
  policy := {}
  failures := { application := [.named "acme.AccountException"] }
  isRmi := false

/-- An operation of a listener with the signature of a hook. -/
def announceMessage : ExposedOperation where
  op := { name := "mdbMethodPreInvoke", params := [.int, Hook.objects], result := .object,
          throws := [.named "acme.AccountException"], owner := "acme.Listener" }
  id := 0
  policy := {}
  failures := { application := [.named "acme.AccountException"] }
  isRmi := false

/-- What a message comes to: of the calls that are made for it all but the query for arguments
    return, and two note the failure of that query. -/
theorem calls_onMessage :
    let failure : ObjectRef := ⟨2, "acme.AccountException"⟩
    let unit := blueprint announcingListener [announceMessage, onMessage]
    let env := (failingAt Hook.needsArguments.name failure).logged
    let this : ObjectRef := ⟨0, "acme.AccountView"⟩
    let site := siteFor announcingListener onMessage.op
    let act := unit.activation env this (Blueprint.maxDepth - 1) []
    ∀ started f left f₁ out w',
      exec (act.block (site.prologue onMessage)) (site.startFrame onMessage (0, [])) =
        (started, f) →
      exec (act.block (site.guarded onMessage)) f = (left, f₁) →
      exec (unit.run env this (site.method onMessage) []) (0, []) = (out, w') →
      started = .ok .normal ∧ left = .error failure ∧ out = .error failure ∧
        (∀ e ∈ w'.2, e.callee = Hook.needsArguments.callee ∨ e.Returned) ∧
        w'.2.countP (·.callee = Hook.setChecked.callee) = 2 := by
  intro failure unit env this site act started f left f₁ out w' hstart hguarded hrun
  have hall : isNormal (exec (act.block (site.prologue onMessage))
        (site.startFrame onMessage (0, []))).1 = true ∧
      failure? (exec (act.block (site.guarded onMessage)) (exec (act.block
        (site.prologue onMessage)) (site.startFrame onMessage (0, []))).2).1 = some failure ∧
      failure? (exec (unit.run env this (site.method onMessage) []) (0, [])).1 = some failure ∧
      ((exec (unit.run env this (site.method onMessage) []) (0, [])).2.2.all
        fun e => e.callee = Hook.needsArguments.callee ∨ e.outcome.isOk) = true ∧
      (exec (unit.run env this (site.method onMessage) []) (0, [])).2.2.countP
        (·.callee = Hook.setChecked.callee) = 2 := by
    clear hstart hguarded hrun
    decide +kernel +revert
  rw [hstart, hguarded, hrun, List.all_eq_true] at hall
  obtain ⟨hnormal, hleft, hout, hreturned, hcount⟩ := hall
  refine ⟨?_, ?_, ?_, fun e he => ?_, hcount⟩
  · rcases started with _ | _ | _ <;> cases hnormal
    rfl
  · cases left <;> cases hleft
    rfl
  · cases out <;> cases hout
    rfl
  · exact (of_decide_eq_true (hreturned e he)).imp_right returned_of_isOk

/-- An endpoint calls its hooks on itself. So the announcement of a message is a dispatched call
    of its own here, and a declared failure of that one is noted by both. -/
theorem noted_twice_announcingListener :
    let failure : ObjectRef := ⟨2, "acme.AccountException"⟩
    let unit := blueprint announcingListener [announceMessage, onMessage]
    let env := (failingAt Hook.needsArguments.name failure).logged
    let this : ObjectRef := ⟨0, "acme.AccountView"⟩
    let site := siteFor announcingListener onMessage.op
    let act := unit.activation env this (Blueprint.maxDepth - 1) []
    onMessage ∈ [announceMessage, onMessage] ∧ onMessage.policy.asynchronous = false ∧
      announcingListener.kind ≠ .managed ∧ env.Logs Prod.snd ∧ env.Apart this ∧ env.Builds this ∧
      ∃ f f₁ w',
        exec (act.block (site.prologue onMessage)) (site.startFrame onMessage (0, [])) =
          (.ok .normal, f) ∧
        exec (act.block (site.guarded onMessage)) f = (.error failure, f₁) ∧
        exec (unit.run env this (site.method onMessage) []) (0, []) = (.error failure, w') ∧
        (∀ e ∈ w'.2, e.callee = Hook.needsArguments.callee ∨ e.Returned) ∧
        onMessage.failures.handlingOf? env.isSubtype failure.className =
          some (.declared (.named "acme.AccountException")) ∧
        w'.2.countP (·.callee = Hook.setChecked.callee) = 2 := by
  intro failure unit env this site act
  rcases hstart : exec (act.block (site.prologue onMessage))
    (site.startFrame onMessage (0, [])) with ⟨started, f⟩
  rcases hguarded : exec (act.block (site.guarded onMessage)) f with ⟨left, f₁⟩
  rcases hrun : exec (unit.run env this (site.method onMessage) []) (0, []) with ⟨out, w'⟩
  obtain ⟨rfl, rfl, rfl, hreturned, hcount⟩ :=
    calls_onMessage started f left f₁ out w' hstart hguarded hrun
  have hclassified : onMessage.failures.handlingOf? env.isSubtype failure.className =
      some (.declared (.named "acme.AccountException")) := by decide
  exact ⟨by simp, rfl, by decide, Environment.logs_logged _, apart_failingAt _ _ _,
    builds_failingAt _ _ _, f, f₁, w', rfl, hguarded, rfl, hreturned, hclassified, hcount⟩

end Wrapper

end ComponentViews
