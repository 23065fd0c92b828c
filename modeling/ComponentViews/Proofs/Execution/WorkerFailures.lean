import ComponentViews.Proofs.Execution.Workers
import ComponentViews.Proofs.Failures.Handling

/-!
# Workers that fail unexpectedly

The handlers around the use of a worker are for the failures of the application only: nothing
stands before them for the failures that nobody need declare, even where the classification asks
for it. So where a broad type is declared, a worker that has failed in this way is given back, to
be used again:

* after a runtime failure exactly where the classification asks for a handler for runtime failures
  (`givesBackIff_runtime`);
* after an error exactly where `java.lang.Throwable` is declared (`givesBackIff_error`).

In all other cases the worker is thrown away.
-/

namespace ComponentViews.HomeContext

open Effect WorkerPool

/-- A worker `v` whose method has failed with the call `failed` is given back next if `asked`, and
    else thrown away. -/
structure GivenBackIff (asked : Prop) (p : WorkerPool) (v : Value) (events : List CallEvent)
    (failed : CallEvent) : Prop where
  givenBack : asked → ∃ before back after, events = before ++ failed :: back :: after ∧
    back.callee = p.giveBack ∧ back.args = [v]
  thrownAway : ¬ asked → (∀ e ∈ events, e.callee ≠ p.giveBack) ∧
    ∃ e ∈ events, e.callee = p.throwAway ∧ e.args = [v]

variable {c : HomeContext} {m : HomeMethod} {σ : Type} {env : Environment σ}
  {log : σ → List CallEvent} {this : ObjectRef} {asked : Prop} {root : String}

/-- In every run of the operation, a worker that has been handed out and fails below `root` is
    given back exactly if `asked`. -/
def GivesBackIff (asked : Prop) (root : String) (c : HomeContext) (m : HomeMethod)
    (env : Environment σ) (log : σ → List CallEvent) (this : ObjectRef) : Prop :=
  ∀ (args : List Value) (w : σ), ∃ out w' events,
    exec (c.blueprint.run env this (c.method m) args) w = (out, w') ∧ log w' = log w ++ events ∧
      ∀ e ∈ events, e.callee = (poolOf m).acquisition → ∀ worker, e.outcome = .ok (.object worker) →
        ∀ failed ∈ events, failed.callee = c.workerMethod m → ∀ t, failed.outcome = .error t →
          env.isSubtype t.className root = true →
            GivenBackIff asked (poolOf m) (.object worker) events failed

section

variable (hworks : HomeOperation.ofName m.op.name ≠ .create) (hlogs : env.Logs log)
  (hothers : env.GivesOthers [(poolOf m).acquisition, Hook.beanInstance.callee] this)

include hworks hlogs hothers

/-- The types of the application's failures decide. -/
theorem givesBackIff_of_isDeclared (hasked : ∀ name, env.isSubtype name root = true →
    (c.isDeclared m env.isSubtype name = true ↔ asked)) :
    GivesBackIff asked root c m env log this := by
  intro args w
  obtain ⟨out, w', events, hrun, hlog, hlending⟩ :=
    lending_run (c := c) hworks hlogs hothers args w
  refine ⟨out, w', events, hrun, hlog, fun e he hcallee worker hgiven failed hfailed hmethod t ht
    hroot => ?_⟩
  have haccounted := hlending.accounted (poolOf_mem m) rfl he hcallee hgiven rfl
  have hiff := hasked t.className hroot
  refine ⟨fun h => ?_, fun h => ?_⟩
  · obtain ⟨before, back, after, hevents, hback, hargs, -⟩ :=
      haccounted.declared failed hfailed hmethod t ht (hiff.2 h)
    exact ⟨before, back, after, hevents, hback, hargs⟩
  · have hcovers : c.isDeclared m env.isSubtype t.className = false :=
      Bool.eq_false_iff.2 fun hcovers => h (hiff.1 hcovers)
    exact haccounted.undeclared failed hfailed hmethod t ht hcovers

variable (hk : c.hierarchy.KeepsStandard) (hclasses : c.hierarchy.FailuresAreClasses)
  (hdeclared : ∀ ty ∈ m.op.throws, c.hierarchy.isThrowable ty.name = true)
  (henv : env.isSubtype = c.hierarchy.isSubtype)

include hk hclasses hdeclared henv

/-- After a runtime failure the worker is given back where the classification asks for a handler
    for runtime failures. -/
theorem givesBackIff_runtime (hsystem : c.policy.uncheckedAreSystem = true) :
    GivesBackIff ((c.hierarchy.classify c.policy m.op.throws true).systemUnchecked = true)
      Known.runtimeException c m env log this := by
  refine givesBackIff_of_isDeclared hworks hlogs hothers fun name hname => ?_
  rw [henv] at hname ⊢
  rw [isDeclared, List.any_eq_true]
  exact Hierarchy.exists_application_runtime_iff hk hclasses hdeclared hsystem hname

/-- After an error the worker is given back where `java.lang.Throwable` is declared. -/
theorem givesBackIff_error : GivesBackIff (∃ ty ∈ m.op.throws, ty.name = Known.throwable)
    Known.error c m env log this := by
  refine givesBackIff_of_isDeclared hworks hlogs hothers fun name hname => ?_
  rw [henv] at hname ⊢
  rw [isDeclared, List.any_eq_true]
  have hthrowable : (∃ ty ∈ c.applicationFailures m, ty.name = Known.throwable) ↔ _ :=
    Hierarchy.exists_application_throwable_iff hk
  refine Iff.trans (exists_congr fun ty => and_congr_right fun hty => ?_) hthrowable
  exact Hierarchy.isSubtype_error_iff hk hclasses hdeclared hname hty

end

end ComponentViews.HomeContext
