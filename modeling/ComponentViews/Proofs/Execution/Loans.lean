import ComponentViews.Proofs.Execution.Creation

/-!
# Workers on loan

An operation of a home that finds beans or does the home's own business has a worker handed out
by a pool, calls a method of its bean, and hands the worker over again. What is called for this,
and how it ends, falls into parts:

* `WorkerPool.Use`: the worker is handed out, used and given back, up to the first failure;
* `WorkerPool.Recovery`: behind a declared failure the worker is given back, and at the exit what
  is still held is thrown away;
* `WorkerPool.Lending`: before and behind this, the home is asked for the views of beans.

From the parts alone it follows what becomes of the worker. The pool gets it back once, or is
asked to throw it away, and what it does then is up to the pool (`WorkerPool.Accounted`). But a
handler does not look whether there is a worker to be given back: if the pool has failed, and with
a declared failure, it gets null back (`WorkerPool.Handed`).
-/

namespace ComponentViews

open Effect Activation

/-- What a call has handed out: null, if it has failed. -/
def CallEvent.given (e : CallEvent) : Value :=
  match e.outcome with
  | .ok v => v
  | .error _ => .null

theorem CallEvent.given_ok {e : CallEvent} {v : Value} (h : e.outcome = .ok v) : e.given = v := by
  rw [given, h]

theorem CallEvent.given_error {e : CallEvent} {t : ObjectRef} (h : e.outcome = .error t) :
    e.given = .null := by
  rw [given, h]

namespace WorkerPool

/-! ### Calls of a pool -/

/-- What hands out a worker. -/
def acquisition (p : WorkerPool) : Callee :=
  HomeContext.homeCallee p.acquire false [] (.named Known.entityBeanContext)

/-- What takes a worker back. -/
def giveBack (p : WorkerPool) : Callee :=
  HomeContext.homeCallee p.release false [.named Known.entityBeanContext] .void

/-- What throws a worker away. -/
def throwAway (p : WorkerPool) : Callee :=
  HomeContext.homeCallee p.discard false [.named Known.entityBeanContext] .void

/-- The pools that operations of a home use. -/
def all : List WorkerPool := [finder, findByPrimaryKey, business]

/-- A call that leaves workers where they are. -/
def Aside (p : WorkerPool) (callee : Callee) : Prop :=
  callee ≠ p.acquisition ∧ callee ≠ p.giveBack ∧ callee ≠ p.throwAway

/-- The calls that hand a worker over to the pool, to be used again or to be thrown away. -/
def handovers (p : WorkerPool) (events : List CallEvent) : List CallEvent :=
  events.filter fun e => e.callee = p.giveBack ∨ e.callee = p.throwAway

/-- The methods of the home that give the views of beans. -/
def views : List String := ["getBean", "activateBean", "getCMP20Collection", "getCMP20Enumeration"]

/-- A call of one of these methods. -/
def IsView (callee : Callee) : Prop :=
  ∃ name ∈ views, ∃ isLocal params result,
    callee = HomeContext.homeCallee name isLocal params result

section

variable {p : WorkerPool} {callee : Callee} {events before after : List CallEvent}

theorem ne_of_mem_all : ∀ p ∈ all, p.acquisition ≠ p.giveBack ∧ p.acquisition ≠ p.throwAway ∧
    p.giveBack ≠ p.throwAway := by
  decide

/-- The methods of beans and of their contexts are none of the pool's. -/
theorem aside_of_virtual (h : callee.kind = .virtual) : p.Aside callee := by
  have hne : ∀ name params result,
      callee ≠ HomeContext.homeCallee name false params result := by
    rintro name params result rfl
    cases h
  exact ⟨hne _ _ _, hne _ _ _, hne _ _ _⟩

theorem IsView.aside (hp : p ∈ all) (h : IsView callee) : p.Aside callee := by
  obtain ⟨name, hname, isLocal, params, result, rfl⟩ := h
  have hne : ∀ p ∈ all, ∀ name ∈ views, ∀ isLocal : Bool, ∀ own ∈ [p.acquire, p.release, p.discard],
      (if isLocal then name ++ Known.localSuffix else name) ≠ own := by
    decide
  have hne : ∀ own ∈ [p.acquire, p.release, p.discard], ∀ params' result',
      HomeContext.homeCallee name isLocal params result ≠
        HomeContext.homeCallee own false params' result' :=
    fun own hown _ _ h => hne p hp name hname isLocal own hown (congrArg Callee.name h)
  exact ⟨hne _ (by simp) _ _, hne _ (by simp) _ _, hne _ (by simp) _ _⟩

theorem IsView.ne (h : IsView callee) {method : Callee} (hmethod : method.kind = .virtual) :
    callee ≠ method := by
  obtain ⟨name, -, isLocal, params, result, rfl⟩ := h
  rintro rfl
  cases hmethod

theorem handovers_append :
    p.handovers (before ++ after) = p.handovers before ++ p.handovers after :=
  List.filter_append _ _

theorem handovers_eq_nil (h : ∀ e ∈ events, p.Aside e.callee) : p.handovers events = [] :=
  List.filter_eq_nil_iff.2 fun e he => by simp [(h e he).2]

theorem handovers_eq_self (h : ∀ e ∈ events, e.callee = p.giveBack ∨ e.callee = p.throwAway) :
    p.handovers events = events :=
  List.filter_eq_self.2 fun e he => by simpa using h e he

theorem mem_handovers {e : CallEvent} :
    e ∈ p.handovers events ↔ e ∈ events ∧ (e.callee = p.giveBack ∨ e.callee = p.throwAway) := by
  rw [handovers, List.mem_filter, decide_eq_true_iff]

/-- To hand a worker out is not to hand it over. -/
theorem handovers_cons (hp : p ∈ all) {e : CallEvent} (h : e.callee = p.acquisition) :
    p.handovers (e :: events) = p.handovers events :=
  List.filter_cons_of_neg (by simpa [h] using (ne_of_mem_all p hp).imp id And.left)

end

/-! ### The parts of a loan -/

/-- The use of a worker, up to where handlers come in: what is called, how that ends, and what
    the variable for the worker holds then. -/
inductive Use (p : WorkerPool) (method : Callee) :
    List CallEvent → Except ObjectRef Flow → Value → Prop
  /-- No worker is handed out. -/
  | refused {e : CallEvent} {t : ObjectRef} (hcallee : e.callee = p.acquisition)
    (hfailed : e.outcome = .error t) : Use p method [e] (.error t) .null
  /-- The bean fails, or cannot be called. -/
  | failed {e : CallEvent} {called : List CallEvent} {v : Value} {t : ObjectRef}
    (hcallee : e.callee = p.acquisition) (hgiven : e.outcome = .ok v)
    (haside : ∀ e ∈ called, p.Aside e.callee)
    (hrelays : ∀ e ∈ called, e.callee = method →
      e.outcome = .error t ∧ ∃ before, called = before ++ [e]) :
    Use p method (e :: called) (.error t) v
  /-- The bean has done its work, but the worker is not taken back. -/
  | kept {e back : CallEvent} {called : List CallEvent} {v : Value} {t : ObjectRef}
    (hcallee : e.callee = p.acquisition) (hgiven : e.outcome = .ok v)
    (haside : ∀ e ∈ called, p.Aside e.callee)
    (hreturned : ∀ e ∈ called, e.callee = method → e.Returned)
    (hback : back.callee = p.giveBack) (hargs : back.args = [v])
    (hfailed : back.outcome = .error t) :
    Use p method (e :: called ++ [back]) (.error t) v
  /-- The bean has done its work, and the worker is given back. -/
  | done {e back : CallEvent} {called : List CallEvent} {v : Value}
    (hcallee : e.callee = p.acquisition) (hgiven : e.outcome = .ok v)
    (haside : ∀ e ∈ called, p.Aside e.callee)
    (hreturned : ∀ e ∈ called, e.callee = method → e.Returned)
    (hback : back.callee = p.giveBack) (hargs : back.args = [v]) (htaken : back.Returned) :
    Use p method (e :: called ++ [back]) (.ok .normal) .null

/-- The exit behind a failure `t`: what is called while the variable for the worker holds `v`,
    and the failure that comes out of it. -/
inductive Exit (p : WorkerPool) (v : Value) (t : ObjectRef) : List CallEvent → ObjectRef → Prop
  /-- No worker is held. -/
  | nothing (hnull : v.isNull = true) : Exit p v t [] t
  /-- The worker is thrown away. -/
  | thrownAway {e : CallEvent} (hheld : v.isNull = false) (hcallee : e.callee = p.throwAway)
    (hargs : e.args = [v]) (hreturned : e.Returned) : Exit p v t [e] t
  /-- The worker is not even thrown away. -/
  | failed {e : CallEvent} {t' : ObjectRef} (hheld : v.isNull = false)
    (hcallee : e.callee = p.throwAway) (hargs : e.args = [v]) (hfailed : e.outcome = .error t') :
    Exit p v t [e] t'

/-- What is done about a failure `t` while the variable for the worker holds `v`, and the failure
    that comes out of it. -/
inductive Recovery (p : WorkerPool) (covers : String → Bool) (v : Value) (t : ObjectRef) :
    List CallEvent → ObjectRef → Prop
  /-- No handler takes the failure. -/
  | passed {events : List CallEvent} {t' : ObjectRef} (hcovers : covers t.className = false)
    (hexit : Exit p v t events t') : Recovery p covers v t events t'
  /-- A handler gives the worker back, and throws the failure again. -/
  | givenBack {back : CallEvent} (hcovers : covers t.className = true)
    (hback : back.callee = p.giveBack) (hargs : back.args = [v]) (htaken : back.Returned) :
    Recovery p covers v t [back] t
  /-- The worker is not taken back, and this failure takes the place of the other. -/
  | kept {back : CallEvent} {events : List CallEvent} {t₁ t' : ObjectRef}
    (hcovers : covers t.className = true) (hback : back.callee = p.giveBack)
    (hargs : back.args = [v]) (hfailed : back.outcome = .error t₁)
    (hexit : Exit p v t₁ events t') : Recovery p covers v t (back :: events) t'

/-- A loan: what is called from where a worker is asked for, and how that ends. -/
inductive Loan (p : WorkerPool) (method : Callee) (covers : String → Bool) :
    List CallEvent → Except ObjectRef Flow → Prop
  | done {events : List CallEvent} {held : Value}
    (huse : Use p method events (.ok .normal) held) : Loan p method covers events (.ok .normal)
  | failed {before after : List CallEvent} {held : Value} {t t' : ObjectRef}
    (huse : Use p method before (.error t) held) (hrecovery : Recovery p covers held t after t') :
    Loan p method covers (before ++ after) (.error t')

/-- What a run calls that lends one worker at most, and how it ends. -/
inductive Lending (p : WorkerPool) (method : Callee) (covers : String → Bool) :
    List CallEvent → Except ObjectRef Value → Prop
  /-- No worker is asked for. -/
  | without {events : List CallEvent} {out : Except ObjectRef Value}
    (haside : ∀ e ∈ events, p.Aside e.callee) : Lending p method covers events out
  /-- There is one loan. If it fails, so does the run. -/
  | once {before loan after : List CallEvent} {ended : Except ObjectRef Flow}
    {out : Except ObjectRef Value} (hbefore : ∀ e ∈ before, p.Aside e.callee ∧ e.callee ≠ method)
    (hloan : Loan p method covers loan ended)
    (hafter : ∀ e ∈ after, p.Aside e.callee ∧ e.callee ≠ method)
    (hfails : ∀ t, ended = .error t → out = .error t) :
    Lending p method covers (before ++ (loan ++ after)) out

/-! ### What becomes of the worker -/

/-- What becomes of a worker `v` in a run with the calls `events`. -/
structure Accounted {α : Type} (p : WorkerPool) (method : Callee) (covers : String → Bool)
    (v : Value) (events : List CallEvent) (out : Except ObjectRef α) : Prop where
  /-- The worker is handed over once, with the last of the calls for this. If there is no such
      call that has returned, throwing the worker away has failed. -/
  settled : (∃ failed e, p.handovers events = failed ++ [e] ∧ (∀ e ∈ failed, ¬ e.Returned) ∧
      e.args = [v] ∧ e.Returned) ∨
    ∃ e ∈ events, e.callee = p.throwAway ∧ ¬ e.Returned
  /-- It is thrown away once at most. -/
  once : events.countP (·.callee = p.throwAway) ≤ 1
  /-- A run that returns has given it back. -/
  returned : ∀ a, out = .ok a → ∃ e ∈ events, e.callee = p.giveBack ∧ e.Returned
  /-- After a declared failure of the method it is given back next, and if it is taken back, it
      is not thrown away, and the failure reaches the caller. -/
  declared : ∀ e ∈ events, e.callee = method → ∀ t, e.outcome = .error t →
    covers t.className = true → ∃ before back after, events = before ++ e :: back :: after ∧
      back.callee = p.giveBack ∧ back.args = [v] ∧
      (back.Returned → out = .error t ∧ ∀ e ∈ events, e.callee ≠ p.throwAway)
  /-- After any other failure of the method it is thrown away, and not given back. -/
  undeclared : ∀ e ∈ events, e.callee = method → ∀ t, e.outcome = .error t →
    covers t.className = false → (∀ e ∈ events, e.callee ≠ p.giveBack) ∧
      ∃ e ∈ events, e.callee = p.throwAway ∧ e.args = [v]

/-- What a run that has asked for a worker with the call `e` hands over, with the calls `handed`. -/
structure Handed (p : WorkerPool) (covers : String → Bool) (e : CallEvent)
    (handed : List CallEvent) : Prop where
  /-- It is what has been handed out. -/
  args : ∀ x ∈ handed, x.args = [e.given]
  /-- If that is null, nothing is thrown away, -/
  null : e.given.isNull = true → ∀ x ∈ handed, x.callee = p.giveBack
  /-- and if the pool has failed, null is given back, or nothing, as its failure is declared or
      not. -/
  refused : ∀ t, e.outcome = .error t →
    handed.map (·.callee) = if covers t.className then [p.giveBack] else []

section

variable {p : WorkerPool} {method : Callee} {covers : String → Bool} {v : Value}
  {events before after : List CallEvent} {t t' : ObjectRef}

/-- At the exit workers are thrown away only, and one at most. -/
theorem Exit.throwAway (h : Exit p v t events t') :
    (∀ e ∈ events, e.callee = p.throwAway ∧ e.args = [v]) ∧ events.length ≤ 1 := by
  cases h with
  | nothing => simp
  | thrownAway _ hcallee hargs | failed _ hcallee hargs => simp [hcallee, hargs]

theorem Exit.settled (hv : v.isNull = false) (h : Exit p v t events t') :
    ∃ e, events = [e] ∧ e.callee = p.throwAway ∧ e.args = [v] := by
  cases h with
  | nothing hnull => simp [hv] at hnull
  | thrownAway _ hcallee hargs | failed _ hcallee hargs => exact ⟨_, rfl, hcallee, hargs⟩

/-- Whatever is called in the recovery hands the worker over. -/
theorem Recovery.handovers (h : Recovery p covers v t events t') :
    p.handovers events = events := by
  refine handovers_eq_self fun e he => ?_
  cases h with
  | passed _ hexit => exact .inr (hexit.throwAway.1 e he).1
  | givenBack _ hback => exact .inl (List.mem_singleton.1 he ▸ hback)
  | kept _ hback _ _ hexit =>
    rcases List.mem_cons.1 he with rfl | he
    · exact .inl hback
    · exact .inr (hexit.throwAway.1 e he).1

/-- The recovery ends with a handover that returns, or throwing the worker away fails. -/
theorem Recovery.settled (hv : v.isNull = false) (h : Recovery p covers v t events t') :
    (∃ failed e, events = failed ++ [e] ∧ (∀ e ∈ failed, ¬ e.Returned) ∧ e.args = [v] ∧
      e.Returned) ∨ ∃ e ∈ events, e.callee = p.throwAway ∧ ¬ e.Returned := by
  have hlast : ∀ (failed : List CallEvent) {e : CallEvent}, (∀ e ∈ failed, ¬ e.Returned) →
      e.callee = p.throwAway → e.args = [v] →
      (∃ failed' e', failed ++ [e] = failed' ++ [e'] ∧ (∀ e ∈ failed', ¬ e.Returned) ∧
        e'.args = [v] ∧ e'.Returned) ∨
      ∃ e' ∈ failed ++ [e], e'.callee = p.throwAway ∧ ¬ e'.Returned := by
    intro failed e hfailed hcallee hargs
    by_cases he : e.Returned
    · exact .inl ⟨failed, e, rfl, hfailed, hargs, he⟩
    · exact .inr ⟨e, by simp, hcallee, he⟩
  cases h with
  | passed _ hexit =>
    obtain ⟨e, rfl, hcallee, hargs⟩ := hexit.settled hv
    exact hlast [] (by simp) hcallee hargs
  | givenBack _ _ hargs htaken => exact .inl ⟨[], _, rfl, by simp, hargs, htaken⟩
  | @kept back _ _ _ _ _ _ hfailed hexit =>
    obtain ⟨e, rfl, hcallee, hargs⟩ := hexit.settled hv
    refine hlast [back] ?_ hcallee hargs
    simp only [List.forall_mem_singleton]
    exact fun h => h.outcome_ne hfailed

/-- What the recovery hands over is what the variable holds. -/
theorem Recovery.args (h : Recovery p covers v t events t') : ∀ e ∈ events, e.args = [v] := by
  cases h with
  | passed _ hexit => exact fun e he => (hexit.throwAway.1 e he).2
  | givenBack _ _ hargs => simpa using hargs
  | kept _ _ hargs _ hexit =>
    exact List.forall_mem_cons.2 ⟨hargs, fun e he => (hexit.throwAway.1 e he).2⟩

/-- If no worker is held, a declared failure leads to null being given back, and any other one to
    nothing. -/
theorem Recovery.null (hv : v.isNull = true) (h : Recovery p covers v t events t') :
    events.map (·.callee) = if covers t.className then [p.giveBack] else [] := by
  have hnothing : ∀ {t : ObjectRef} {events : List CallEvent}, Exit p v t events t' →
      events = [] := by
    intro t events hexit
    cases hexit with
    | nothing => rfl
    | thrownAway hheld | failed hheld => simp [hv] at hheld
  cases h with
  | passed hcovers hexit => simp [hnothing hexit, hcovers]
  | givenBack hcovers hback => simp [hback, hcovers]
  | kept hcovers hback _ _ hexit => simp [hnothing hexit, hback, hcovers]

/-- In the recovery a worker is thrown away once at most. -/
theorem Recovery.countP_throwAway (hp : p ∈ all) (h : Recovery p covers v t events t') :
    events.countP (·.callee = p.throwAway) ≤ 1 := by
  have hne : p.giveBack ≠ p.throwAway := (ne_of_mem_all p hp).2.2
  cases h with
  | passed _ hexit => exact List.countP_le_length.trans hexit.throwAway.2
  | givenBack => exact List.countP_le_length
  | kept _ hback _ _ hexit =>
    rw [List.countP_cons_of_neg (by simpa [hback] using hne)]
    exact List.countP_le_length.trans hexit.throwAway.2

/-- A loan begins with the one call that asks for a worker. -/
theorem Use.exists_acquisition (hp : p ∈ all) {out : Except ObjectRef Flow} {held : Value}
    (h : Use p method events out held) : ∃ e rest, events = e :: rest ∧
      e.callee = p.acquisition ∧ ∀ e ∈ rest, e.callee ≠ p.acquisition := by
  have hne : p.giveBack ≠ p.acquisition := (ne_of_mem_all p hp).1.symm
  have hback : ∀ {called : List CallEvent} {back : CallEvent},
      (∀ e ∈ called, p.Aside e.callee) → back.callee = p.giveBack →
        ∀ e ∈ called ++ [back], e.callee ≠ p.acquisition := by
    intro called back haside hback
    rw [List.forall_mem_append, List.forall_mem_singleton, hback]
    exact ⟨fun e he => (haside e he).1, hne⟩
  cases h with
  | refused hcallee => exact ⟨_, [], rfl, hcallee, by simp⟩
  | failed hcallee _ haside => exact ⟨_, _, rfl, hcallee, fun e he => (haside e he).1⟩
  | kept hcallee _ haside _ hgiven => exact ⟨_, _, rfl, hcallee, hback haside hgiven⟩
  | done hcallee _ haside _ hgiven => exact ⟨_, _, rfl, hcallee, hback haside hgiven⟩

/-- Behind a failure the variable still holds what has been handed out. -/
theorem Use.held_eq {e : CallEvent} {held : Value}
    (h : Use p method (e :: events) (.error t) held) : held = e.given := by
  generalize hevents : e :: events = all at h
  cases h with
  | refused _ hfailed =>
    cases hevents
    exact (CallEvent.given_error hfailed).symm
  | failed _ hgiven | kept _ hgiven =>
    cases hevents
    exact (CallEvent.given_ok hgiven).symm

/-- If the pool fails, nothing else is called, and its failure is what handlers get. -/
theorem Use.refused_of {e : CallEvent} {held : Value}
    (h : Use p method (e :: events) (.error t) held) (hfailed : e.outcome = .error t') :
    events = [] ∧ t = t' := by
  generalize hevents : e :: events = all at h
  cases h with
  | refused _ hfailed' =>
    cases hevents
    exact ⟨rfl, Except.error.inj (hfailed'.symm.trans hfailed)⟩
  | failed _ hgiven | kept _ hgiven =>
    cases hevents
    exact absurd (hgiven.symm.trans hfailed) (by simp)

/-- Up to a failure the worker has not been handed over, but for an attempt to give it back. -/
theorem Use.attempts (hp : p ∈ all) {held : Value} (h : Use p method events (.error t) held) :
    ∀ e ∈ p.handovers events, e.callee = p.giveBack ∧ e.args = [held] ∧ ¬ e.Returned := by
  cases h with
  | refused hcallee =>
    rw [handovers_cons hp hcallee]
    simp [handovers]
  | failed hcallee _ haside =>
    rw [handovers_cons hp hcallee, handovers_eq_nil haside]
    simp
  | kept hcallee _ haside _ hback hargs hfailed =>
    rw [List.cons_append, handovers_cons hp hcallee, handovers_append, handovers_eq_nil haside,
      handovers_eq_self (by simp [hback])]
    simp only [List.nil_append, List.forall_mem_singleton]
    exact ⟨hback, hargs, fun h => h.outcome_ne hfailed⟩

/-- A failure of the method ends the use of the worker, before it is given back. -/
theorem Use.relays (hp : p ∈ all) (hmethod : method.kind = .virtual) {held : Value}
    (h : Use p method events (.error t) held) {e : CallEvent} (he : e ∈ events)
    (hcallee : e.callee = method) (hfailed : e.outcome = .error t') :
    t' = t ∧ p.handovers events = [] ∧ ∃ before, events = before ++ [e] := by
  have haside : p.Aside e.callee := aside_of_virtual (hcallee ▸ hmethod)
  have hfirst : ∀ {e' : CallEvent}, e'.callee = p.acquisition → e ≠ e' := by
    rintro e' he' rfl
    exact haside.1 he'
  cases h with
  | refused hcallee' => exact absurd (List.mem_singleton.1 he) (hfirst hcallee')
  | @failed e₀ called _ _ hcallee' _ hcalled hrelays =>
    obtain ⟨houtcome, before, rfl⟩ :=
      hrelays e ((List.mem_cons.1 he).resolve_left (hfirst hcallee')) hcallee
    refine ⟨Except.error.inj (hfailed.symm.trans houtcome), ?_, e₀ :: before, rfl⟩
    rw [handovers_cons hp hcallee', handovers_eq_nil hcalled]
  | kept hcallee' _ _ hreturned hback =>
    rcases List.mem_append.1 he with he | he
    · have he := (List.mem_cons.1 he).resolve_left (hfirst hcallee')
      exact absurd hfailed (hreturned e he hcallee).outcome_ne
    · rw [List.mem_singleton.1 he] at haside
      exact absurd hback haside.2.1

/-- A use that comes to its end has given the worker back, once. -/
theorem Use.completes (hp : p ∈ all) {held : Value} {e : CallEvent}
    (h : Use p method (e :: events) (.ok .normal) held) :
    ∃ v back, e.outcome = .ok v ∧ p.handovers (e :: events) = [back] ∧
      back.callee = p.giveBack ∧ back.args = [v] ∧ back.Returned := by
  generalize hevents : e :: events = all at h
  cases h with
  | @done _ back _ v hcallee hgiven haside _ hback hargs htaken =>
    obtain ⟨rfl, -⟩ := List.cons.inj hevents
    refine ⟨v, back, hgiven, ?_, hback, hargs, htaken⟩
    rw [List.cons_append, handovers_cons hp hcallee, handovers_append, handovers_eq_nil haside,
      handovers_eq_self (by simp [hback])]
    rfl

/-- In a use that comes to its end the method has not failed. -/
theorem Use.returned (hmethod : method.kind = .virtual) {held : Value}
    (h : Use p method events (.ok .normal) held) {e : CallEvent} (he : e ∈ events)
    (hcallee : e.callee = method) : e.Returned := by
  have haside : p.Aside e.callee := aside_of_virtual (hcallee ▸ hmethod)
  cases h with
  | done hcallee' _ _ hreturned hback =>
    rcases List.mem_append.1 he with he | he
    · rcases List.mem_cons.1 he with rfl | he
      · exact absurd hcallee' haside.1
      · exact hreturned e he hcallee
    · rw [List.mem_singleton.1 he] at haside
      exact absurd hback haside.2.1

/-- A loan begins with the one call that asks for a worker. -/
theorem Loan.exists_acquisition (hp : p ∈ all) {ended : Except ObjectRef Flow}
    (h : Loan p method covers events ended) : ∃ e rest, events = e :: rest ∧
      e.callee = p.acquisition ∧ ∀ e ∈ rest, e.callee ≠ p.acquisition := by
  cases h with
  | done huse => exact huse.exists_acquisition hp
  | @failed _ after _ _ _ huse hrecovery =>
    obtain ⟨e, rest, rfl, hcallee, hrest⟩ := huse.exists_acquisition hp
    refine ⟨e, rest ++ after, rfl, hcallee, List.forall_mem_append.2 ⟨hrest, fun e he h => ?_⟩⟩
    rw [← hrecovery.handovers, mem_handovers, h] at he
    exact he.2.elim (ne_of_mem_all p hp).1 (ne_of_mem_all p hp).2.1

/-- A worker that has been given back at the end of its use is accounted for. -/
theorem Accounted.of_done (hp : p ∈ all) {back : CallEvent}
    (hgave : p.handovers events = [back]) (hback : back.callee = p.giveBack)
    (hargs : back.args = [v]) (htaken : back.Returned)
    (hreturned : ∀ e ∈ events, e.callee = method → e.Returned) {out : Except ObjectRef Flow} :
    Accounted p method covers v events out := by
  have hmem : back ∈ events ∧ _ := mem_handovers.1 (hgave ▸ List.mem_singleton_self back)
  have hnone : ∀ e ∈ events, e.callee ≠ p.throwAway := by
    intro e he hcallee
    have hmem : e ∈ p.handovers events := mem_handovers.2 ⟨he, .inr hcallee⟩
    rw [hgave, List.mem_singleton] at hmem
    exact (ne_of_mem_all p hp).2.2 (hback.symm.trans (hmem ▸ hcallee))
  refine ⟨.inl ⟨[], back, hgave, by simp, hargs, htaken⟩, ?_,
    fun _ _ => ⟨back, hmem.1, hback, htaken⟩, fun e he hcallee t ht => ?_,
    fun e he hcallee t ht => ?_⟩
  · rw [List.countP_eq_zero.2 fun e he => by simpa using hnone e he]
    exact Nat.zero_le 1
  · exact absurd ht (hreturned e he hcallee).outcome_ne
  · exact absurd ht (hreturned e he hcallee).outcome_ne

/-- Behind a failure of the use the recovery accounts for the worker. -/
theorem Accounted.of_recovery (hp : p ∈ all) (hmethod : method.kind = .virtual)
    (hv : v.isNull = false) (huse : Use p method before (.error t) v)
    (hrecovery : Recovery p covers v t after t') :
    Accounted (α := Flow) p method covers v (before ++ after) (.error t') := by
  have hattempts := huse.attempts hp
  have hgave : p.handovers (before ++ after) = p.handovers before ++ after := by
    rw [handovers_append, hrecovery.handovers]
  have hnone : ∀ e ∈ before, e.callee ≠ p.throwAway := by
    intro e he hcallee
    obtain ⟨hback, -⟩ := hattempts e (mem_handovers.2 ⟨he, .inr hcallee⟩)
    exact (ne_of_mem_all p hp).2.2 (hback.symm.trans hcallee)
  -- A failure of the method is the last call before the recovery, and nothing has been handed over.
  have hrelays : ∀ e ∈ before ++ after, e.callee = method → ∀ t'', e.outcome = .error t'' →
      t'' = t ∧ p.handovers before = [] ∧ ∃ first, before = first ++ [e] := by
    intro e he hcallee t'' hfailed
    have haside : p.Aside e.callee := aside_of_virtual (hcallee ▸ hmethod)
    rcases List.mem_append.1 he with he | he
    · exact huse.relays hp hmethod he hcallee hfailed
    · rw [← hrecovery.handovers, mem_handovers] at he
      exact absurd he.2 (not_or.2 haside.2)
  refine ⟨?_, ?_, by simp, fun e he hcallee t'' ht hcovers => ?_,
    fun e he hcallee t'' ht hcovers => ?_⟩
  · rw [hgave]
    rcases hrecovery.settled hv with ⟨failed, e, rfl, hfailed, hargs, he⟩ |
      ⟨e, he, hcallee, hfailed⟩
    · refine .inl ⟨p.handovers before ++ failed, e, (List.append_assoc _ _ _).symm, ?_, hargs, he⟩
      exact List.forall_mem_append.2 ⟨fun e he => (hattempts e he).2.2, hfailed⟩
    · exact .inr ⟨e, List.mem_append_right _ he, hcallee, hfailed⟩
  · rw [List.countP_append, List.countP_eq_zero.2 fun e he => by simpa using hnone e he,
      Nat.zero_add]
    exact hrecovery.countP_throwAway hp
  · obtain ⟨rfl, -, first, rfl⟩ := hrelays e he hcallee t'' ht
    cases hrecovery with
    | passed hpassed => simp [hcovers] at hpassed
    | @givenBack back _ hback hargs =>
      refine ⟨first, back, [], by simp, hback, hargs, fun _ => ⟨rfl, ?_⟩⟩
      refine List.forall_mem_append.2 ⟨hnone, ?_⟩
      simpa [hback] using (ne_of_mem_all p hp).2.2
    | @kept back events _ _ _ hback hargs hfailed =>
      exact ⟨first, back, events, by simp, hback, hargs, fun h => absurd hfailed h.outcome_ne⟩
  · obtain ⟨rfl, hnothing, first, rfl⟩ := hrelays e he hcallee t'' ht
    cases hrecovery with
    | passed _ hexit =>
      obtain ⟨thrown, rfl, hthrown, hargs⟩ := hexit.settled hv
      refine ⟨List.forall_mem_append.2 ⟨fun e he hback => ?_, ?_⟩, thrown, by simp, hthrown, hargs⟩
      · exact absurd (mem_handovers.2 ⟨he, .inl hback⟩) (by simp [hnothing])
      · simpa [hthrown] using (ne_of_mem_all p hp).2.2.symm
    | givenBack hcovered | kept hcovered => simp [hcovers] at hcovered

theorem Loan.accounted (hp : p ∈ all) (hmethod : method.kind = .virtual)
    {ended : Except ObjectRef Flow} (h : Loan p method covers events ended) {e : CallEvent}
    (he : e ∈ events) (hcallee : e.callee = p.acquisition) (hgiven : e.outcome = .ok v)
    (hv : v.isNull = false) : Accounted p method covers v events ended := by
  obtain ⟨e', rest, hevents, -, hrest⟩ := h.exists_acquisition hp
  obtain rfl : e = e' := by
    rw [hevents] at he
    exact (List.mem_cons.1 he).resolve_right fun he => hrest e he hcallee
  cases h with
  | done huse =>
    subst hevents
    obtain ⟨v', back, hgiven', hgave, hback, hargs, htaken⟩ := huse.completes hp
    obtain rfl : v' = v := Except.ok.inj (hgiven'.symm.trans hgiven)
    exact .of_done hp hgave hback hargs htaken fun e he hcallee => huse.returned hmethod he hcallee
  | failed huse hrecovery =>
    obtain ⟨e', rest', rfl, -⟩ := huse.exists_acquisition hp
    obtain ⟨rfl, -⟩ := List.cons.inj hevents
    obtain rfl := huse.held_eq.trans (CallEvent.given_ok hgiven)
    exact .of_recovery hp hmethod hv huse hrecovery

/-- A loan hands over what it has been given. -/
theorem Loan.handed (hp : p ∈ all) {ended : Except ObjectRef Flow} {e : CallEvent}
    (h : Loan p method covers (e :: events) ended) :
    Handed p covers e (p.handovers (e :: events)) := by
  -- The events get a name first, since the cases of a loan do not tell how its list begins.
  generalize hevents : e :: events = all at h
  cases h with
  | done huse =>
    subst hevents
    obtain ⟨v, back, hgiven, hgave, hback, hargs, -⟩ := huse.completes hp
    rw [hgave]
    refine ⟨?_, fun _ => by simpa using hback, fun t ht => absurd (hgiven.symm.trans ht) (by simp)⟩
    simpa [CallEvent.given_ok hgiven] using hargs
  | @failed before after held t t' huse hrecovery =>
    obtain ⟨e', rest, rfl, hcallee, -⟩ := huse.exists_acquisition hp
    obtain ⟨rfl, -⟩ := List.cons.inj hevents
    obtain rfl := huse.held_eq
    have hattempts := huse.attempts hp
    rw [handovers_append, hrecovery.handovers]
    refine ⟨?_, fun hnull => ?_, fun t' ht => ?_⟩
    · exact List.forall_mem_append.2 ⟨fun x hx => (hattempts x hx).2.1, hrecovery.args⟩
    · refine List.forall_mem_append.2 ⟨fun x hx => (hattempts x hx).1, fun x hx => ?_⟩
      have hmem := List.mem_map_of_mem (f := (·.callee)) hx
      rw [hrecovery.null hnull] at hmem
      split at hmem
      · exact List.mem_singleton.1 hmem
      · exact absurd hmem List.not_mem_nil
    · obtain ⟨rfl, rfl⟩ := huse.refused_of ht
      rw [handovers_cons hp hcallee]
      exact hrecovery.null (by rw [CallEvent.given_error ht]; rfl)

/-- Calls that leave workers where they are, before and behind a loan. -/
theorem Accounted.extend {α β : Type} {out : Except ObjectRef α} {out' : Except ObjectRef β}
    (h : Accounted p method covers v events out)
    (hbefore : ∀ e ∈ before, p.Aside e.callee ∧ e.callee ≠ method)
    (hafter : ∀ e ∈ after, p.Aside e.callee ∧ e.callee ≠ method)
    (hfails : ∀ t, out = .error t → out' = .error t) :
    Accounted p method covers v (before ++ (events ++ after)) out' := by
  -- What is neither aside nor the method comes from the loan itself.
  have hmem : ∀ e ∈ before ++ (events ++ after), ¬ (p.Aside e.callee ∧ e.callee ≠ method) →
      e ∈ events := by
    intro e he hnot
    rcases List.mem_append.1 he with he | he
    · exact absurd (hbefore e he) hnot
    · exact (List.mem_append.1 he).resolve_right fun he => hnot (hafter e he)
  have hwithin : ∀ e ∈ events, e ∈ before ++ (events ++ after) := fun e he => by simp [he]
  have hthrown : ∀ {es : List CallEvent}, (∀ e ∈ es, p.Aside e.callee ∧ e.callee ≠ method) →
      es.countP (·.callee = p.throwAway) = 0 :=
    fun hes => List.countP_eq_zero.2 fun e he => by simpa using (hes e he).1.2.2
  refine ⟨?_, ?_, fun a ha => ?_, fun e he hcallee t ht hcovers => ?_,
    fun e he hcallee t ht hcovers => ?_⟩
  · rw [handovers_append, handovers_append, handovers_eq_nil fun e he => (hbefore e he).1,
      handovers_eq_nil fun e he => (hafter e he).1, List.nil_append, List.append_nil]
    exact h.settled.imp id fun ⟨e, he, hfailed⟩ => ⟨e, hwithin e he, hfailed⟩
  · rw [List.countP_append, List.countP_append, hthrown hbefore, hthrown hafter, Nat.zero_add,
      Nat.add_zero]
    exact h.once
  · cases out with
    | error t => exact absurd ha (by simp [hfails t rfl])
    | ok a' =>
      obtain ⟨e, he, hgiven⟩ := h.returned a' rfl
      exact ⟨e, hwithin e he, hgiven⟩
  · obtain ⟨first, back, last, rfl, hback, hargs, hkept⟩ :=
      h.declared e (hmem e he fun h => h.2 hcallee) hcallee t ht hcovers
    refine ⟨before ++ first, back, last ++ after, by simp, hback, hargs, fun htaken => ?_⟩
    obtain ⟨hout, hnone⟩ := hkept htaken
    exact ⟨hfails t hout, fun e he hcallee =>
      hnone e (hmem e he fun h => h.1.2.2 hcallee) hcallee⟩
  · obtain ⟨hnone, thrown, hthrown, hcallee', hargs⟩ :=
      h.undeclared e (hmem e he fun h => h.2 hcallee) hcallee t ht hcovers
    exact ⟨fun e he hcallee => hnone e (hmem e he fun h => h.1.2.1 hcallee) hcallee,
      thrown, hwithin _ hthrown, hcallee', hargs⟩

/-- Views are asked for before. -/
theorem Lending.prepend (hp : p ∈ all) (hmethod : method.kind = .virtual)
    {out : Except ObjectRef Value} (hbefore : ∀ e ∈ before, IsView e.callee)
    (h : Lending p method covers events out) : Lending p method covers (before ++ events) out := by
  have haside : ∀ e ∈ before, p.Aside e.callee := fun e he => (hbefore e he).aside hp
  cases h with
  | without hevents => exact .without (List.forall_mem_append.2 ⟨haside, hevents⟩)
  | @once first loan after _ _ hfirst hloan hafter hfails =>
    rw [← List.append_assoc]
    refine .once (List.forall_mem_append.2 ⟨fun e he => ?_, hfirst⟩) hloan hafter hfails
    exact ⟨haside e he, (hbefore e he).ne hmethod⟩

/-- A run with the same calls that fails in the same way. -/
theorem Lending.congr {out out' : Except ObjectRef Value} (h : Lending p method covers events out)
    (hfails : ∀ t, out = .error t → out' = .error t) : Lending p method covers events out' := by
  cases h with
  | without haside => exact .without haside
  | once hbefore hloan hafter hfails' =>
    exact .once hbefore hloan hafter fun t ht => hfails t (hfails' t ht)

/-- A run that asks for a worker has one loan, with the calls for this. -/
theorem Lending.exists_loan {out : Except ObjectRef Value} (h : Lending p method covers events out)
    {e : CallEvent} (he : e ∈ events) (hcallee : e.callee = p.acquisition) :
    ∃ before loan after ended, events = before ++ (loan ++ after) ∧ e ∈ loan ∧
      (∀ e ∈ before, p.Aside e.callee ∧ e.callee ≠ method) ∧ Loan p method covers loan ended ∧
      (∀ e ∈ after, p.Aside e.callee ∧ e.callee ≠ method) ∧
      ∀ t, ended = .error t → out = .error t := by
  cases h with
  | without haside => exact absurd hcallee (haside e he).1
  | @once before loan after ended _ hbefore hloan hafter hfails =>
    refine ⟨before, loan, after, ended, rfl, ?_, hbefore, hloan, hafter, hfails⟩
    rcases List.mem_append.1 he with he | he
    · exact absurd hcallee (hbefore e he).1.1
    · exact (List.mem_append.1 he).resolve_right fun he => (hafter e he).1.1 hcallee

theorem Lending.accounted (hp : p ∈ all) (hmethod : method.kind = .virtual)
    {out : Except ObjectRef Value} (h : Lending p method covers events out) {e : CallEvent}
    (he : e ∈ events) (hcallee : e.callee = p.acquisition) (hgiven : e.outcome = .ok v)
    (hv : v.isNull = false) : Accounted p method covers v events out := by
  obtain ⟨before, loan, after, ended, rfl, he, hbefore, hloan, hafter, hfails⟩ :=
    h.exists_loan he hcallee
  exact (hloan.accounted hp hmethod he hcallee hgiven hv).extend hbefore hafter hfails

theorem Lending.handed (hp : p ∈ all) {out : Except ObjectRef Value}
    (h : Lending p method covers events out) {e : CallEvent} (he : e ∈ events)
    (hcallee : e.callee = p.acquisition) : Handed p covers e (p.handovers events) := by
  obtain ⟨before, loan, after, ended, rfl, he, hbefore, hloan, hafter, -⟩ :=
    h.exists_loan he hcallee
  obtain ⟨e', rest, rfl, -, hrest⟩ := hloan.exists_acquisition hp
  obtain rfl : e = e' := (List.mem_cons.1 he).resolve_right fun he => hrest e he hcallee
  rw [handovers_append, handovers_append, handovers_eq_nil fun e he => (hbefore e he).1,
    handovers_eq_nil fun e he => (hafter e he).1, List.nil_append, List.append_nil]
  exact hloan.handed hp

/-- A run that asks for no worker hands none over. -/
theorem Lending.handovers_eq_nil (hp : p ∈ all) {out : Except ObjectRef Value}
    (h : Lending p method covers events out) (hnone : ∀ e ∈ events, e.callee ≠ p.acquisition) :
    p.handovers events = [] := by
  cases h with
  | without haside => exact WorkerPool.handovers_eq_nil haside
  | once _ hloan =>
    obtain ⟨e, rest, rfl, hcallee, -⟩ := hloan.exists_acquisition hp
    exact absurd hcallee (hnone e (by simp))

end

end WorkerPool

end ComponentViews
