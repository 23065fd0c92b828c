import ComponentViews.Blueprint.Check
import ComponentViews.Proofs.Execution.Effect

/-!
# Blocks that do not complete

A block whose end control cannot come to, by what the structural check finds out about it, does
not complete when it runs: it returns or fails, whatever the environment does
(`Activation.ends_block`). An exit block that ends takes the place of any outcome; else what is
guarded and the handlers have to end, as an exit block that completes leaves their outcome as it
is.
-/

namespace ComponentViews

open Effect

namespace Run

variable {σ α : Type} {x : Run σ Flow}

/-- From no frame does the computation complete normally. -/
def Ends (x : Run σ Flow) : Prop := ∀ f, (exec x f).1 ≠ .ok .normal

theorem ends_throw (thrown : ObjectRef) : Ends (throw thrown : Run σ Flow) :=
  fun f => by rw [exec_throw]; exact nofun

theorem ends_returned (v : Value) : Ends (pure (.returned v) : Run σ Flow) :=
  fun f => by rw [exec_pure]; exact nofun

theorem ends_fail (act : Activation σ) (className : String) : Ends (act.fail className) := by
  intro f
  have hfail : exec (act.env.fail className : Effect σ Flow) f.world =
      (.error (act.env.failure className f.world).1, (act.env.failure className f.world).2) := rfl
  rw [Activation.fail, exec_outside hfail]
  exact nofun

theorem ends_resume {out : Except ObjectRef Flow} (hout : out ≠ .ok .normal) :
    Ends (resume out : Run σ Flow) :=
  fun f => by rw [exec_resume]; exact hout

/-- What comes last does not complete. -/
theorem ends_bind {first : Run σ α} {k : α → Run σ Flow} (hk : ∀ a, Ends (k a)) :
    Ends (first >>= k) := by
  intro f
  rcases hfirst : exec first f with ⟨thrown | a, f'⟩
  · rw [exec_bind_error hfirst]
    exact nofun
  · rw [exec_bind_ok hfirst]
    exact hk a f'

/-- What follows is not come to, or does not complete either. -/
theorem ends_andThen {k : Flow → Run σ Flow} (hk : ∀ v, Ends (k (.returned v)))
    (h : Ends x ∨ Ends (k .normal)) : Ends (x >>= k) := by
  intro f
  rcases hx : exec x f with ⟨thrown | flow, f'⟩
  · rw [exec_bind_error hx]
    exact nofun
  · rw [exec_bind_ok hx]
    cases flow with
    | returned v => exact hk v f'
    | normal =>
      refine h.elim (fun hends => absurd ?_ (hends f)) fun hends => hends f'
      rw [hx]

theorem ends_guard {recover : ObjectRef → Run σ Flow} (hx : Ends x)
    (hrecover : ∀ thrown, Ends (recover thrown)) : Ends (guard x recover) := by
  intro f
  rw [guard, exec_bind_ok exec_outcome]
  have hout := hx f
  cases hcase : (exec x f).1 with
  | error thrown => exact hrecover thrown _
  | ok flow => rwa [hcase] at hout

end Run

namespace Activation

variable {σ : Type} (act : Activation σ)

open Run

theorem ends_exitBlock {region : Run σ Flow} {inFlight : Option Nat} {body : Block}
    (h : Ends (act.block body) ∨ Ends region) :
    Ends (act.exitBlock region (some ⟨inFlight, body⟩)) := by
  intro f
  rw [exitBlock, exec_bind_ok exec_outcome]
  -- The exit block runs after any outcome, which it resumes where it completes.
  refine ends_bind (fun _ => ?_) _
  refine ends_andThen (fun _ => ends_returned _) ?_
  exact h.imp id fun hregion => ends_resume (hregion f)

mutual

theorem ends_stmt : ∀ {s : Stmt}, s.ends = true → Ends (act.stmt s)
  | .ret none, _ => by rw [stmt]; exact ends_returned _
  | .ret (some e), _ => by rw [stmt]; exact ends_bind fun _ => ends_returned _
  | .throw e, _ => by
    rw [stmt]
    refine ends_bind fun v => ?_
    split
    · exact ends_throw _
    · exact ends_fail act _
    · exact ends_fail act _
  | .cond c yes no, hends => by
    rw [Stmt.ends, Bool.and_eq_true] at hends
    rw [stmt]
    refine ends_bind fun holds => ?_
    split
    · exact ends_block hends.1
    · exact ends_block hends.2
  | .switch key cases otherwise, hends => by
    rw [Stmt.ends, Bool.and_eq_true] at hends
    rw [stmt]
    refine ends_bind fun v => ?_
    split
    · exact ends_switchCase hends.2 (ends_block hends.1)
    · exact ends_fail act _
  | .region body handlers none, hends => by
    rw [Stmt.ends, exitEnds, Bool.false_or, Bool.and_eq_true] at hends
    rw [stmt, exitBlock]
    exact ends_guard (ends_block hends.1) fun thrown => ends_firstHandler thrown hends.2
  | .region body handlers (some ⟨inFlight, exit⟩), hends => by
    rw [Stmt.ends, exitEnds, Bool.or_eq_true, Bool.and_eq_true] at hends
    rw [stmt]
    -- Either the exit block ends, or the region does and the exit block may complete.
    exact act.ends_exitBlock (hends.imp (fun hexit => ends_block hexit) fun hregion =>
      ends_guard (ends_block hregion.1) fun thrown => ends_firstHandler thrown hregion.2)

/-- A block that ends does not complete. -/
theorem ends_block : ∀ {b : Block}, blockEnds b = true → Ends (act.block b)
  | [s], hends => by
    rw [block]
    exact ends_andThen (fun _ => ends_returned _) (.inl (ends_stmt hends))
  | s :: t :: rest, hends => by
    rw [block]
    exact ends_andThen (fun _ => ends_returned _) (.inr (ends_block (b := t :: rest) hends))

theorem ends_switchCase {key : Int32} : ∀ {cases : List (Int32 × Block)} {otherwise : Run σ Flow},
    casesEnd cases = true → Ends otherwise → Ends (act.switchCase key cases otherwise)
  | [], _, _, hotherwise => by rwa [switchCase]
  | (k, body) :: rest, _, hends, hotherwise => by
    rw [casesEnd, Bool.and_eq_true] at hends
    rw [switchCase]
    split
    · exact ends_block hends.1
    · exact ends_switchCase hends.2 hotherwise

theorem ends_firstHandler (thrown : ObjectRef) : ∀ {handlers : List Handler},
    handlersEnd handlers = true → Ends (act.firstHandler thrown handlers)
  | [], _ => by rw [firstHandler]; exact ends_throw _
  | ⟨caught, binding, body⟩ :: rest, hends => by
    rw [handlersEnd, Bool.and_eq_true] at hends
    rw [firstHandler]
    split
    · exact ends_bind fun _ => ends_block hends.1
    · exact ends_firstHandler thrown hends.2

end

end Activation

end ComponentViews
