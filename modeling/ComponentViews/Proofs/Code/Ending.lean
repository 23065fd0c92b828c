import ComponentViews.Proofs.Code.Bodies
import ComponentViews.Proofs.Code.Walk
import ComponentViews.Proofs.Execution.Ending

/-!
# Code that control does not go on from

Whether control can come to the end of a block is found out three times: by the structural check,
from the last statement (`blockEnds`); by the interpreter, which returns or fails; and by the
assembly, which follows jumps and handlers. Where the check says that a block ends, it does not
complete when it runs, and the code behind its code cannot be reached (`CodeContext.ends_block`).
So no body with a result is refused since control reaches its end (`Blueprint.ending_agrees`).

The assembly goes on where a jump has led to the label that is placed behind a statement. What a
statement is made of jumps to labels of its own only (`Draft.Spares`), and where it ends it does not
jump behind the statement either, so that the label is still unused when it is placed
(`Draft.Idle`).
-/

namespace ComponentViews

/-! ### Labels that are not used -/

namespace Assembly

variable {α β : Type} {label other : Label} {a b : Assembly}

/-- The label is there, and no jump has come to it. -/
def IsUnused (label : Label) (a : Assembly) : Prop :=
  ∃ st, a.labels[label.id]? = some st ∧ st.depth = none

/-- A step of assembling leaves a label unused. -/
def Spares (label : Label) (step : Assemble α) : Prop :=
  ∀ a r b, Runs step a r b → a.IsUnused label → b.IsUnused label

theorem Spares.bind {step : Assemble α} {f : α → Assemble β} (h : Spares label step)
    (hf : ∀ r, Spares label (f r)) : Spares label (step >>= f) := by
  intro a s b hruns hunused
  obtain ⟨r, m, hstep, hrest⟩ := exists_of_runs_bind hruns
  exact hf r m s b hrest (h a r m hstep hunused)

theorem spares_pure (r : α) : Spares label (pure r : Assemble α) := by
  rintro a s b ⟨⟩ hunused
  exact hunused

theorem spares_get : Spares label (get : Assemble Assembly) := by
  rintro a s b ⟨⟩ hunused
  exact hunused

theorem spares_throw (fault : AssemblyFault) : Spares label (throw fault : Assemble α) := by
  rintro a s b ⟨⟩

theorem spares_modify {f : Assembly → Assembly} (hf : ∀ a, (f a).labels = a.labels) :
    Spares label (modify f : Assemble PUnit) := by
  rintro a s b ⟨⟩ ⟨st, hst, hnone⟩
  exact ⟨st, by rw [hf, hst], hnone⟩

theorem spares_append (bytes : List UInt8) :
    Spares label (modify (·.appendBytes bytes) : Assemble PUnit) :=
  spares_modify fun _ => rfl

theorem spares_addFixup (jumpPc : Nat) (isWide : Bool) (other : Label) :
    Spares label (addFixup jumpPc isWide other) :=
  spares_modify fun _ => rfl

theorem spares_kill : Spares label kill := spares_modify fun _ => rfl

theorem spares_adjust (delta : Int) : Spares label (adjust delta) := by
  refine spares_get.bind fun a => ?_
  have hmodify : ∀ depth, Spares label (modify fun a : Assembly =>
      { a with depth, maxDepth := max a.maxDepth depth } : Assemble PUnit) :=
    fun _ => spares_modify fun _ => rfl
  show Spares label (if _ then _ else _)
  split
  · exact (spares_throw _).bind fun _ => hmodify _
  · exact hmodify _

theorem spares_emit (i : Instruction) (delta : Int) : Spares label (emit i delta) := by
  have hbytes : Spares label
      (modify fun a : Assembly => a.appendBytes (i.encode a.pc) : Assemble PUnit) :=
    spares_modify fun _ => rfl
  refine hbytes.bind fun _ => (spares_adjust delta).bind fun _ => ?_
  split
  · exact spares_kill
  · exact spares_pure _

/-- What becomes of another label does not matter. -/
theorem IsUnused.set (h : a.IsUnused label) (hne : other ≠ label) (st : LabelState) :
    IsUnused label { a with labels := a.labels.setIfInBounds other.id st } := by
  obtain ⟨old, hold, hnone⟩ := h
  have hid : other.id ≠ label.id := fun heq => hne (congrArg Label.mk heq)
  exact ⟨old, by rw [Array.getElem?_setIfInBounds_ne hid, hold], hnone⟩

theorem spares_noteDepth (hne : other ≠ label) : Spares label (noteDepth other) := by
  refine spares_get.bind fun a => ?_
  split
  · exact spares_throw _
  · split
    · split
      · exact spares_throw _
      · exact spares_pure _
    · rintro a s b ⟨⟩ hunused
      exact hunused.set hne _

theorem spares_branch (op : UInt8) (delta : Int) (hne : other ≠ label) :
    Spares label (branch op other delta) := by
  refine spares_get.bind fun a => (spares_append _).bind fun _ =>
    (spares_adjust delta).bind fun _ => (spares_noteDepth hne).bind fun _ =>
      (spares_addFixup _ _ _).bind fun _ => (spares_append _).bind fun _ => ?_
  split
  · exact spares_kill
  · exact spares_pure _

theorem spares_switchCases (jumpPc : Nat) {cases : List (Int32 × Label)}
    (hne : ∀ e ∈ cases, e.2 ≠ label) : Spares label (switchCases jumpPc cases) := by
  induction cases with
  | nil => exact spares_pure _
  | cons e rest ih =>
    obtain ⟨he, hrest⟩ := List.forall_mem_cons.1 hne
    exact (spares_append _).bind fun _ => (spares_noteDepth he).bind fun _ =>
      (spares_addFixup _ _ _).bind fun _ => (spares_append _).bind fun _ => ih hrest

theorem spares_switch {cases : List (Int32 × Label)} (hother : other ≠ label)
    (hcases : ∀ e ∈ cases, e.2 ≠ label) : Spares label (switch other cases) :=
  spares_get.bind fun _ => (spares_append _).bind fun _ => (spares_adjust _).bind fun _ =>
    (spares_noteDepth hother).bind fun _ => (spares_addFixup _ _ _).bind fun _ =>
      (spares_append _).bind fun _ =>
        (spares_switchCases _ fun e he => hcases e (List.mem_mergeSort.1 he)).bind fun _ =>
          spares_kill

/-- Placing a label, be it the same, does not use it. -/
theorem spares_place (other : Label) : Spares label (place other) := by
  intro a r b hruns hunused
  obtain ⟨got, m, hget, hruns⟩ := exists_of_runs_bind hruns
  cases hget
  -- Whatever comes of the label, its depth stays.
  have hset : ∀ st, a.labels[other.id]? = some st → IsUnused label
      { a with labels := a.labels.setIfInBounds other.id { st with pc := some a.pc } } := by
    intro st hst
    by_cases heq : other = label
    · subst heq
      obtain ⟨old, hold, hnone⟩ := hunused
      rw [hst, Option.some.injEq] at hold
      exact ⟨_, Array.getElem?_setIfInBounds_self_of_lt (Array.getElem?_eq_some_iff.1 hst).1,
        hold ▸ hnone⟩
    · exact hunused.set heq _
  split at hruns
  · cases hruns
  · rename_i st hst
    split at hruns <;> (cases hruns; exact hset st hst)

theorem spares_enterHandler (depth : Nat) : Spares label (enterHandler depth) := by
  have hstart : Spares label
      (modify fun a : Assembly => { a with alive := true, depth := 0 } : Assemble PUnit) :=
    spares_modify fun _ => rfl
  exact hstart.bind fun _ => spares_adjust _

theorem addCatch_eq (start stop handler : Nat) (catchType : UInt16) (a : Assembly) :
    ∃ table, a.addCatch start stop handler catchType = { a with table } := by
  rw [addCatch]
  split <;> exact ⟨_, rfl⟩

/-! ### Where control ends -/

/-- Behind a label that no jump leads to, control goes on only if it did before. -/
theorem alive_of_runs_place (hruns : Runs (place label) a () b) (hunused : a.IsUnused label) :
    b.alive = a.alive := by
  obtain ⟨st, hst, hnone⟩ := hunused
  obtain ⟨got, m, hget, hruns⟩ := exists_of_runs_bind hruns
  cases hget
  simp only [hst, hnone] at hruns
  cases hruns
  rfl

/-- Control does not go on behind the step. -/
def Kills (step : Assemble α) : Prop := ∀ a r b, Runs step a r b → b.alive = false

theorem Kills.bind {step : Assemble α} {f : α → Assemble β} (hf : ∀ r, Kills (f r)) :
    Kills (step >>= f) := by
  intro a s b hruns
  obtain ⟨r, m, -, hrest⟩ := exists_of_runs_bind hruns
  exact hf r m s b hrest

theorem kills_kill : Kills kill := by
  rintro a r b ⟨⟩
  rfl

theorem kills_emit {i : Instruction} (hterminal : Opcode.isTerminal i.opcode = true)
    (delta : Int) : Kills (emit i delta) := by
  refine .bind fun _ => .bind fun _ => ?_
  rw [if_pos hterminal]
  exact kills_kill

theorem kills_switch (cases : List (Int32 × Label)) : Kills (switch other cases) :=
  .bind fun _ => .bind fun _ => .bind fun _ => .bind fun _ => .bind fun _ => .bind fun _ =>
    .bind fun _ => kills_kill

end Assembly

/-! ### Steps of lowering -/

namespace Draft

variable {α β : Type} {label after : Label} {d t : Draft}

/-- A label that is unused stays so. -/
def KeepsUnused (label : Label) (d t : Draft) : Prop :=
  d.asm.IsUnused label → t.asm.IsUnused label

instance : IsPreorder Draft (KeepsUnused label) where
  refl _ := id
  trans _ _ _ h h' := h' ∘ h

theorem run_newLabel (d : Draft) : newLabel.run d =
    .ok (⟨d.asm.labels.size⟩, { d with asm := { d.asm with labels := d.asm.labels.push {} } }) :=
  rfl

/-- A label that has just been taken is unused. -/
theorem unused_of_newLabel (h : newLabel.run d = .ok (after, t)) :
    t.asm.IsUnused after ∧ t.asm.alive = d.asm.alive := by
  rw [run_newLabel] at h
  cases h
  exact ⟨⟨{}, Array.getElem?_push_size, rfl⟩, rfl⟩

/-- It is none of those there were. -/
theorem ne_of_newLabel (hunused : d.asm.IsUnused after) (h : newLabel.run d = .ok (label, t)) :
    t.asm.IsUnused after ∧ label ≠ after := by
  obtain ⟨st, hst, hnone⟩ := hunused
  obtain ⟨hlt, heq⟩ := Array.getElem?_eq_some_iff.1 hst
  rw [run_newLabel] at h
  cases h
  exact ⟨⟨st, by rw [Array.getElem?_push_lt hlt, heq], hnone⟩,
    fun heq => Nat.lt_irrefl _ (heq ▸ hlt)⟩

/-- Jumps to other labels leave a label unused, and so does everything else. -/
theorem isKept_unused (label : Label) :
    IsKept (KeepsUnused label) (fun _ => True) (· ≠ label) := by
  have hassemble : ∀ {α : Type} {step : Assemble α}, Assembly.Spares label step →
      Relates (KeepsUnused label) (fun _ => True) (assemble step) :=
    fun hspares => relates_assemble (fun _ _ => trivial) fun d a asm => hspares d.asm a asm
  exact {
    fault := fun _ _ => trivial
    emit := fun i delta => hassemble (Assembly.spares_emit i delta)
    addConstant := fun _ => relates_addConstant (fun _ _ => trivial) fun _ _ _ _ => id
    newLabel := fun {α f} hf => by
      refine ⟨fun d b t h hunused => ?_, fun _ _ _ => trivial⟩
      obtain ⟨label', m, hnew, h⟩ := exists_of_run_bind h
      obtain ⟨hunused, hne⟩ := ne_of_newLabel hunused hnew
      exact (hf label' hne).ok m b t h hunused
    branch := fun op _ delta hne => hassemble (Assembly.spares_branch op delta hne)
    switch := fun hne hcases => hassemble (Assembly.spares_switch hne hcases)
    place := fun other => hassemble (Assembly.spares_place other)
    enterHandler := fun depth => hassemble (Assembly.spares_enterHandler depth)
    addCatch := fun start stop handler catchType => hassemble <|
      Assembly.spares_modify fun a => by
        obtain ⟨table, htable⟩ := Assembly.addCatch_eq start stop handler catchType a
        rw [htable]
    newSlot := fun ty => relates_newSlot ty fun _ _ => id
    setGaps := fun _ _ => id }

/-- Whether control comes here is as it was, and so are the labels. -/
def SameFlow (d t : Draft) : Prop := t.asm.alive = d.asm.alive ∧ t.asm.labels = d.asm.labels

instance : IsPreorder Draft SameFlow where
  refl _ := ⟨rfl, rfl⟩
  trans _ _ _ h h' := ⟨h'.1.trans h.1, h'.2.trans h.2⟩

theorem sameFlow_addCatch (start stop handler : Nat) (catchType : UInt16) :
    Relates SameFlow (fun _ => True)
      (assemble (modify (Assembly.addCatch start stop handler catchType))) := by
  refine relates_assemble (fun _ _ => trivial) fun d a asm hruns => ?_
  cases hruns
  obtain ⟨table, htable⟩ := Assembly.addCatch_eq start stop handler catchType d.asm
  rw [htable]
  exact ⟨rfl, rfl⟩

theorem sameFlow_addCatches (ranges : List CodeRange) (handler : Nat) (catchType : UInt16) :
    Relates SameFlow (fun _ => True) (addCatches ranges handler catchType) :=
  IsKept.relates_addCatches sameFlow_addCatch ranges handler catchType

/-- Control does not go on behind the step, from wherever it starts. -/
def Ends (x : Lower α) : Prop := ∀ d a t, x.run d = .ok (a, t) → t.asm.alive = false

/-- The step jumps to no label but its own. -/
def Spares (x : Lower α) : Prop :=
  ∀ label, Relates (KeepsUnused label) (fun _ => True) x

theorem Ends.bind {x : Lower α} {f : α → Lower β} (hf : ∀ a, Ends (f a)) : Ends (x >>= f) := by
  intro d b t h
  obtain ⟨a, m, -, h⟩ := exists_of_run_bind h
  exact hf a m b t h

theorem Ends.ite {p : Prop} [Decidable p] {x y : Lower α} (hx : Ends x) (hy : Ends y) :
    Ends (if p then x else y) := by
  split
  · exact hx
  · exact hy

theorem ends_emit {i : Instruction} (hterminal : Opcode.isTerminal i.opcode = true)
    (delta : Int) : Ends (emit i delta) :=
  fun d a t h => Assembly.kills_emit hterminal delta d.asm a t.asm (runs_of_assemble h).1

theorem Ends.andThen {x : Lower α} {f : α → Lower β} (hx : Ends x)
    (hf : ∀ a, Relates SameFlow (fun _ => True) (f a)) : Ends (x >>= f) := by
  intro d b t h
  obtain ⟨a, m, hrun, h⟩ := exists_of_run_bind h
  exact ((hf a).ok m b t h).1.trans (hx d a m hrun)

/-- A step that only ends control where it comes. -/
theorem ends_isAlive {f : Bool → Lower Unit} (htrue : Ends (f true))
    (hfalse : Relates SameFlow (fun _ => True) (f false)) : Ends (isAlive >>= f) := by
  intro d a t h
  have h : (f d.asm.alive).run d = .ok (a, t) := h
  cases halive : d.asm.alive with
  | true =>
    rw [halive] at h
    exact htrue d a t h
  | false =>
    rw [halive] at h
    exact (hfalse.ok d a t h).1.trans halive

/-- Control does not come here, nor from a jump to a label that is to be placed behind. -/
structure Idle (after : Label) (d : Draft) : Prop where
  dead : d.asm.alive = false
  unused : d.asm.IsUnused after

theorem Idle.of_sameFlow (hd : d.Idle after) (hflow : SameFlow d t) : t.Idle after := by
  obtain ⟨st, hst, hnone⟩ := hd.unused
  exact ⟨hflow.1.trans hd.dead, st, by rw [hflow.2, hst], hnone⟩

theorem eq_of_run_leaveTo {a : Unit} (hdead : d.asm.alive = false)
    (h : (leaveTo label).run d = .ok (a, t)) : t = d := by
  have h : ((if d.asm.alive = true then branch Opcode.goto label 0
      else pure ()) : Lower Unit).run d = .ok (a, t) := h
  rw [hdead, if_neg Bool.false_ne_true] at h
  cases h
  rfl

theorem Idle.place {a : Unit} (hd : d.Idle after) (h : (place after).run d = .ok (a, t)) :
    t.asm.alive = false :=
  (Assembly.alive_of_runs_place (runs_of_assemble h).1 hd.unused).trans hd.dead

end Draft

namespace CodeContext

variable {c : CodeContext} {after : Label} {d t : Draft}

open Draft

/-! ### Exits -/

theorem ends_returnValue (exits : List (Option ExitCode)) (value : Option Expr) :
    Ends (c.returnValue exits value) := by
  cases value with
  | none =>
    have hreturn : Ends (do
        if !exits.any (·.isSome) || (← isAlive) then emit (.plain Opcode.vreturn) 0) := by
      cases exits.any (·.isSome) with
      | true => exact ends_isAlive (ends_emit rfl _) (.pure _)
      | false => exact .bind fun _ => ends_emit rfl _
    exact Ends.ite (.bind fun _ => hreturn) hreturn
  | some e =>
    have hop : Opcode.isTerminal (Instruction.plain (returnOp c.method.result)).opcode = true :=
      (returnOp_terminal c.method.result).2.1
    refine .bind fun _ => Ends.ite ?_ (ends_emit hop _)
    exact .bind fun _ => .bind fun _ => .bind fun _ =>
      ends_isAlive (.bind fun _ => ends_emit hop _) (.pure _)

/-- Some exit block ends. -/
def ExitEnds (exit : Option ExitCode) : Prop := ∃ code ∈ exit, Ends code.body

theorem ends_copyExit {exit : ExitCode} (hexit : Ends exit.body) : Ends (c.copyExit exit) := by
  rw [copyExit]
  cases exit.inFlight with
  | none => exact hexit
  | some i => exact .bind fun _ => .bind fun _ => .bind fun _ => hexit

/-- Where the guarded block or the exit block ends, nothing jumps behind the region. -/
theorem idle_completeNormally {exit : Option ExitCode}
    (hspares : ∀ code ∈ exit, Spares code.body) {a : Unit} (hunused : d.asm.IsUnused after)
    (hends : d.asm.alive = false ∨ ExitEnds exit)
    (h : (c.completeNormally exit after).run d = .ok (a, t)) : t.Idle after := by
  obtain ⟨alive, r, halive, h⟩ := exists_of_run_bind h
  cases halive
  cases hdead : d.asm.alive with
  | false =>
    rw [hdead, if_neg Bool.false_ne_true] at h
    cases h
    exact ⟨hdead, hunused⟩
  | true =>
    -- The exit block is copied here, and behind it nothing is left that could jump.
    rw [hdead] at hends
    obtain ⟨code, rfl, hcode⟩ := hends.resolve_left Bool.true_eq_false_eq_False.elim
    rw [hdead, if_pos rfl] at h
    obtain ⟨gaps, d₁, hleave, h⟩ := exists_of_run_bind h
    obtain ⟨_, d₂, hcopy, h⟩ := exists_of_run_bind h
    obtain ⟨_, d₃, henter, h⟩ := exists_of_run_bind h
    cases henter
    have hdead₂ := ends_copyExit hcode d₁ () d₂ hcopy
    have hunused₂ := (relates_copyExit (isKept_unused after) (hspares code rfl after)).ok d₁ () d₂
      hcopy ((isKept_unused after).relates_leaveRegion.ok d gaps d₁ hleave hunused)
    rw [eq_of_run_leaveTo (by exact hdead₂) h]
    exact ⟨hdead₂, hunused₂⟩

/-- Nothing jumps behind the region from handlers, where each ends or the exit block does. -/
theorem idle_handlerBlocks {exit : Option ExitCode} (hspares : ∀ code ∈ exit, Spares code.body)
    {handlers : List HandlerCode} (hbodies : ∀ h ∈ handlers, Spares h.body)
    (hends : ExitEnds exit ∨ ∀ h ∈ handlers, Ends h.body) {ranges : List CodeRange}
    (hd : d.Idle after) (h : (c.handlerBlocks exit after handlers).run d = .ok (ranges, t)) :
    t.Idle after := by
  induction handlers generalizing d t ranges with
  | nil =>
    cases h
    exact hd
  | cons handler rest ih =>
    obtain ⟨hbody, hrest⟩ := List.forall_mem_cons.1 hbodies
    have hkept := isKept_unused after
    obtain ⟨start, d₁, hstart, h₁⟩ := exists_of_run_bind h
    obtain ⟨_, d₂, henter, h₂⟩ := exists_of_run_bind h₁
    obtain ⟨slot, d₃, hslot, h₃⟩ := exists_of_run_bind h₂
    obtain ⟨_, d₄, hstore, h₄⟩ := exists_of_run_bind h₃
    obtain ⟨_, d₅, hrun, h₅⟩ := exists_of_run_bind h₄
    obtain ⟨stop, d₆, hstop, h₆⟩ := exists_of_run_bind h₅
    obtain ⟨_, d₇, hcomplete, h₇⟩ := exists_of_run_bind h₆
    obtain ⟨more, d₈, hmore, h₈⟩ := exists_of_run_bind h₇
    cases hstart
    cases hstop
    cases h₈
    -- Only the body and the way out of the handler could lead to the label.
    have hunused₄ : d₄.asm.IsUnused after := (hkept.relates_store _ _).ok _ _ _ hstore
      ((relates_variableSlot hkept _).ok _ _ _ hslot
        ((hkept.enterHandler 1).ok _ _ _ henter hd.unused))
    have hd₇ : d₇.Idle after := idle_completeNormally hspares
      ((hbody after).ok _ _ _ hrun hunused₄)
      (hends.symm.imp (fun hall => hall handler List.mem_cons_self _ _ _ hrun) id) hcomplete
    exact ih hrest (hends.imp id fun hall h hh => hall h (List.mem_cons_of_mem _ hh)) hd₇ hmore

/-- The table of handlers does not bear on where control goes. -/
theorem sameFlow_catchIn (covered : List CodeRange) (handlers : List (HandlerCode × CodeRange)) :
    Relates SameFlow (fun _ => True) (catchIn covered handlers) :=
  relates_catchIn sameFlow_addCatch
    (fun _ => relates_addConstant (fun _ _ => trivial) fun _ _ _ _ => ⟨rfl, rfl⟩) covered handlers

/-- The handler of an exit block throws the failure again, unless the block ends. -/
theorem ends_exitHandler (exit : ExitCode) (covered : List CodeRange) :
    Ends (c.exitHandler exit covered) := by
  refine .bind fun start => .bind fun _ => .bind fun _ => .bind fun _ => .bind fun _ => ?_
  exact ends_isAlive (.bind fun _ => (ends_emit rfl _).andThen fun _ =>
    sameFlow_addCatches covered start 0) (sameFlow_addCatches covered start 0)

/-! ### Statements -/

/-- A region ends where its exit block does, or all that it guards and the handlers. -/
theorem ends_region {block : Lower Unit} {handlers : List HandlerCode} {exit : Option ExitCode}
    (hblock : Spares block) (hbodies : ∀ h ∈ handlers, Spares h.body)
    (hexit : ∀ code ∈ exit, Spares code.body)
    (hends : ExitEnds exit ∨ (Ends block ∧ ∀ h ∈ handlers, Ends h.body)) :
    Ends (c.region block handlers exit) := by
  intro d _ t h
  obtain ⟨after, d₁, hafter, h₁⟩ := exists_of_run_bind h
  have hkept := isKept_unused after
  obtain ⟨_, d₂, henter, h₂⟩ := exists_of_run_bind h₁
  obtain ⟨start, d₃, hstart, h₃⟩ := exists_of_run_bind h₂
  obtain ⟨_, d₄, hrun, h₄⟩ := exists_of_run_bind h₃
  obtain ⟨stop, d₅, hstop, h₅⟩ := exists_of_run_bind h₄
  obtain ⟨_, d₆, hcomplete, h₆⟩ := exists_of_run_bind h₅
  obtain ⟨handled, d₇, hhandled, h₇⟩ := exists_of_run_bind h₆
  obtain ⟨gaps, d₈, hleave, h₈⟩ := exists_of_run_bind h₇
  obtain ⟨_, d₉, hcatch, h₉⟩ := exists_of_run_bind h₈
  cases hstart
  cases hstop
  -- The label behind the region is followed through the steps: only the ways on from the block
  -- and from the handlers could jump to it.
  have hunused₄ : d₄.asm.IsUnused after := (hblock after).ok _ _ _ hrun
    ((hkept.relates_enterRegion _).ok _ _ _ henter (unused_of_newLabel hafter).1)
  have hd₆ : d₆.Idle after := idle_completeNormally hexit hunused₄
    (hends.symm.imp (fun hall => hall.1 _ _ _ hrun) id) hcomplete
  have hd₇ : d₇.Idle after := idle_handlerBlocks hexit hbodies (hends.imp id And.right) hd₆ hhandled
  have hd₈ : d₈.Idle after := by
    cases hleave
    exact ⟨hd₇.dead, hd₇.unused⟩
  have hd₉ : d₉.Idle after := hd₈.of_sameFlow ((sameFlow_catchIn _ _).ok _ _ _ hcatch)
  cases exit with
  | none => exact hd₉.place h₉
  | some code =>
    obtain ⟨_, d₁₀, hhandler, hplace⟩ := exists_of_run_bind h₉
    refine Idle.place ⟨ends_exitHandler code _ _ _ _ hhandler, ?_⟩ hplace
    exact (relates_exitHandler hkept (hexit code rfl after) _).ok _ _ _ hhandler hd₉.unused

/-- A choice ends where both of its blocks do. -/
theorem ends_choice (cond : Cond) {yes no : Lower Unit} (hyes : Ends yes) (hno : Ends no)
    (hspares : Spares no) : Ends (c.choice cond yes (some no)) := by
  intro d _ t h
  obtain ⟨otherwise, d₁, hotherwise, h₁⟩ := exists_of_run_bind h
  obtain ⟨_, d₂, hbranch, h₂⟩ := exists_of_run_bind h₁
  obtain ⟨_, d₃, hyesRun, h₃⟩ := exists_of_run_bind h₂
  obtain ⟨after, d₄, hafter, h₄⟩ := exists_of_run_bind h₃
  obtain ⟨_, d₅, hleave, h₅⟩ := exists_of_run_bind h₄
  obtain ⟨_, d₆, hplace, h₆⟩ := exists_of_run_bind h₅
  obtain ⟨_, d₇, hnoRun, h₇⟩ := exists_of_run_bind h₆
  obtain ⟨hunused, halive⟩ := unused_of_newLabel hafter
  cases eq_of_run_leaveTo (halive.trans (hyes _ _ _ hyesRun)) hleave
  refine Idle.place ⟨hno _ _ _ hnoRun, ?_⟩ h₇
  exact (hspares after).ok _ _ _ hnoRun
    (((isKept_unused after).place otherwise).ok _ _ _ hplace hunused)

/-- Labels that are taken for the cases of a switch are none of those there were. -/
theorem ne_of_caseLabels {cases : List (Int32 × Lower Unit)} {labels : List (Int32 × Label)}
    (h : (caseLabels cases).run d = .ok (labels, t)) (hunused : d.asm.IsUnused after) :
    t.asm.IsUnused after ∧ ∀ e ∈ labels, e.2 ≠ after := by
  induction cases generalizing d labels with
  | nil =>
    cases h
    exact ⟨hunused, fun _ he => absurd he List.not_mem_nil⟩
  | cons e rest ih =>
    obtain ⟨label, d₁, hlabel, h₁⟩ := exists_of_run_bind h
    obtain ⟨more, d₂, hmore, h₂⟩ := exists_of_run_bind h₁
    cases h₂
    obtain ⟨hunused₁, hne⟩ := ne_of_newLabel hunused hlabel
    obtain ⟨hunused₂, hall⟩ := ih hmore hunused₁
    exact ⟨hunused₂, List.forall_mem_cons.2 ⟨hne, hall⟩⟩

theorem idle_caseBlocks {cases : List (Int32 × Lower Unit)}
    (hcases : ∀ e ∈ cases, Ends e.2 ∧ Spares e.2) {labels : List (Int32 × Label)} {a : Unit}
    (hd : d.Idle after) (h : (caseBlocks after labels cases).run d = .ok (a, t)) :
    t.Idle after := by
  induction cases generalizing d labels with
  | nil =>
    cases labels <;> (cases h; exact hd)
  | cons e rest ih =>
    obtain ⟨he, hrest⟩ := List.forall_mem_cons.1 hcases
    cases labels with
    | nil =>
      cases h
      exact hd
    | cons l labels =>
      obtain ⟨_, d₁, hplace, h₁⟩ := exists_of_run_bind h
      obtain ⟨_, d₂, hrun, h₂⟩ := exists_of_run_bind h₁
      obtain ⟨_, d₃, hleave, h₃⟩ := exists_of_run_bind h₂
      have hd₂ : d₂.Idle after := ⟨he.1 _ _ _ hrun, (he.2 after).ok _ _ _ hrun
        (((isKept_unused after).place l.2).ok _ _ _ hplace hd.unused)⟩
      rw [eq_of_run_leaveTo hd₂.dead hleave] at h₃
      exact ih hrest hd₂ h₃

/-- A switch ends where all of its blocks do. -/
theorem ends_switch (key : Expr) {cases : List (Int32 × Lower Unit)} {otherwise : Lower Unit}
    (hcases : ∀ e ∈ cases, Ends e.2 ∧ Spares e.2) (hotherwise : Ends otherwise)
    (hspares : Spares otherwise) : Ends (c.switch key cases otherwise) := by
  intro d _ t h
  obtain ⟨_, d₁, hkey, h₁⟩ := exists_of_run_bind h
  obtain ⟨after, d₂, hafter, h₂⟩ := exists_of_run_bind h₁
  obtain ⟨default, d₃, hdefault, h₃⟩ := exists_of_run_bind h₂
  obtain ⟨labels, d₄, hlabels, h₄⟩ := exists_of_run_bind h₃
  obtain ⟨_, d₅, hswitch, h₅⟩ := exists_of_run_bind h₄
  obtain ⟨_, d₆, hblocks, h₆⟩ := exists_of_run_bind h₅
  obtain ⟨_, d₇, hplace, h₇⟩ := exists_of_run_bind h₆
  obtain ⟨_, d₈, hrun, h₈⟩ := exists_of_run_bind h₇
  have hkept := isKept_unused after
  -- The switch itself jumps to labels that were taken after the one behind it.
  obtain ⟨hunused₃, hne⟩ := ne_of_newLabel (unused_of_newLabel hafter).1 hdefault
  obtain ⟨hunused₄, hall⟩ := ne_of_caseLabels hlabels hunused₃
  have hd₅ : d₅.Idle after := ⟨Assembly.kills_switch labels _ _ _ (runs_of_assemble hswitch).1,
    (hkept.switch hne hall).ok _ _ _ hswitch hunused₄⟩
  have hd₆ : d₆.Idle after := idle_caseBlocks hcases hd₅ hblocks
  refine Idle.place ⟨hotherwise _ _ _ hrun, ?_⟩ h₈
  exact (hspares after).ok _ _ _ hrun ((hkept.place default).ok _ _ _ hplace hd₆.unused)

/-- The regions around a place in a body, by the code of their exit blocks. -/
inductive IsAround (c : CodeContext) : List (Option ExitCode) → Prop
  | outermost : IsAround c []
  | region {exits : List (Option ExitCode)} (h : IsAround c exits) (exit : Option ExitBlock) :
    IsAround c (c.exitCode exits exit :: exits)

theorem IsAround.relatesExits {R : Draft → Draft → Prop} {E : LoweringFault → Prop}
    {own : Label → Prop} [IsPreorder Draft R] (hR : IsKept R E own)
    {exits : List (Option ExitCode)} (h : c.IsAround exits) : RelatesExits R E exits := by
  induction h with
  | outermost => exact fun _ h => absurd h List.not_mem_nil
  | region _ exit ih => exact ih.cons (relates_exitCode hR exit ih)

section

variable {exits : List (Option ExitCode)} (hexits : c.IsAround exits)

include hexits

theorem spares_block (b : Block) : Spares (c.block exits b) := fun label =>
  relates_block (isKept_unused label) b (hexits.relatesExits (isKept_unused label))

theorem spares_switchCases (cases : List (Int32 × Block)) :
    ∀ e ∈ c.switchCases exits cases, Spares e.2 := fun e he label =>
  relates_switchCases (isKept_unused label) cases (hexits.relatesExits (isKept_unused label)) e he

theorem spares_handlerCodes (handlers : List Handler) :
    ∀ h ∈ c.handlerCodes exits handlers, Spares h.body := fun h hh label =>
  relates_handlerCodes (isKept_unused label) handlers (hexits.relatesExits (isKept_unused label))
    h hh

theorem spares_exitCode (exit : Option ExitBlock) :
    ∀ code ∈ c.exitCode exits exit, Spares code.body := fun code hcode label =>
  relates_exitCode (isKept_unused label) exit (hexits.relatesExits (isKept_unused label)) code hcode

end

mutual

theorem ends_stmt : ∀ {s : Stmt} {exits : List (Option ExitCode)}, s.ends = true →
    c.IsAround exits → Ends (c.stmt exits s)
  | .ret value, _, _, _ => by rw [stmt]; exact ends_returnValue _ value
  | .throw e, _, _, _ => by rw [stmt]; exact .bind fun _ => ends_emit rfl _
  | .cond cond yes no, _, hends, hexits => by
    rw [Stmt.ends, Bool.and_eq_true] at hends
    have hno : no.isEmpty = false := by
      cases no with
      | nil => rw [blockEnds] at hends; exact absurd hends.2 Bool.false_ne_true
      | cons => rfl
    rw [stmt, hno, if_neg Bool.false_ne_true]
    exact ends_choice cond (ends_block hends.1 hexits) (ends_block hends.2 hexits)
      (spares_block hexits no)
  | .switch key cases otherwise, _, hends, hexits => by
    rw [Stmt.ends, Bool.and_eq_true] at hends
    rw [stmt]
    exact ends_switch key (fun e he => ⟨ends_switchCases hends.2 hexits e he,
        spares_switchCases hexits cases e he⟩)
      (ends_block hends.1 hexits) (spares_block hexits otherwise)
  | .region body handlers exit, exits, hends, hexits => by
    rw [Stmt.ends, Bool.or_eq_true, Bool.and_eq_true] at hends
    have hinner := hexits.region exit
    rw [stmt]
    exact ends_region (spares_block hinner body) (spares_handlerCodes hinner handlers)
      (spares_exitCode hexits exit) (hends.imp (ends_exitCode · hexits) fun hregion =>
        ⟨ends_block hregion.1 hinner, ends_handlerCodes hregion.2 hinner⟩)

/-- Control does not go on behind the code of a block that ends. -/
theorem ends_block : ∀ {b : Block} {exits : List (Option ExitCode)}, blockEnds b = true →
    c.IsAround exits → Ends (c.block exits b)
  | [s], _, hends, hexits => by
    rw [block]
    refine ends_isAlive ((ends_stmt hends hexits).andThen fun _ => ?_) (.pure _)
    rw [block]
    exact .pure _
  | s :: t :: rest, _, hends, hexits => by
    rw [block]
    exact ends_isAlive (.bind fun _ => ends_block (b := t :: rest) hends hexits) (.pure _)

theorem ends_switchCases : ∀ {cases : List (Int32 × Block)} {exits : List (Option ExitCode)},
    casesEnd cases = true → c.IsAround exits → ∀ e ∈ c.switchCases exits cases, Ends e.2
  | [], _, _, _ => by simp [switchCases]
  | (key, body) :: rest, _, hends, hexits => by
    rw [casesEnd, Bool.and_eq_true] at hends
    rw [switchCases]
    exact List.forall_mem_cons.2
      ⟨ends_block hends.1 hexits, ends_switchCases hends.2 hexits⟩

theorem ends_handlerCodes : ∀ {handlers : List Handler} {exits : List (Option ExitCode)},
    handlersEnd handlers = true → c.IsAround exits →
      ∀ h ∈ c.handlerCodes exits handlers, Ends h.body
  | [], _, _, _ => by simp [handlerCodes]
  | ⟨caught, binding, body⟩ :: rest, _, hends, hexits => by
    rw [handlersEnd, Bool.and_eq_true] at hends
    rw [handlerCodes]
    exact List.forall_mem_cons.2
      ⟨ends_block hends.1 hexits, ends_handlerCodes hends.2 hexits⟩

theorem ends_exitCode : ∀ {exit : Option ExitBlock} {exits : List (Option ExitCode)},
    exitEnds exit = true → c.IsAround exits → ExitEnds (c.exitCode exits exit)
  | some ⟨inFlight, body⟩, _, hends, hexits => by
    rw [exitCode]
    exact ⟨_, rfl, ends_block hends hexits⟩

end

/-! ### Whole bodies -/

/-- The fault that the end of a body is reached is found there and nowhere else. -/
theorem block_error_ne {exits : List (Option ExitCode)} (hexits : c.IsAround exits) (b : Block) :
    (c.block exits b).run d ≠ .error .completesNormally := by
  -- Of the walk only the faults are needed here, so that all drafts may be related.
  have : IsPreorder Draft fun _ _ => True :=
    { refl := fun _ => trivial, trans := fun _ _ _ _ _ => trivial }
  have hkept : IsKept (fun _ _ => True) (· ≠ .completesNormally) fun _ => True :=
    isKept_of_asm (fun _ => id) (fun _ _ => trivial) (fun _ _ _ _ _ => trivial)
      (fun _ _ => trivial) fun _ _ => trivial
  exact fun herror => (relates_block hkept b (hexits.relatesExits hkept)).error d _ herror rfl

/-- Where a body ends, control does not reach its end. -/
theorem wholeBody_error_ne (hends : blockEnds c.body.block = true) :
    c.wholeBody.run d ≠ .error .completesNormally := by
  rw [wholeBody, StateT.run_bind]
  cases hblock : (c.block [] c.body.block).run d with
  | error fault =>
    rintro ⟨⟩
    exact block_error_ne .outermost c.body.block hblock
  | ok r =>
    have hdead : r.2.asm.alive = false := ends_block hends .outermost d r.1 r.2 hblock
    show (if r.2.asm.alive = true then _ else assemble Assembly.finish : Lower Unit).run r.2 ≠ _
    rw [hdead, if_neg Bool.false_ne_true]
    intro herror
    obtain ⟨fault, hfault⟩ := fault_of_assemble herror
    cases hfault

end CodeContext

/-- No run of the block completes, in whatever frame and environment. -/
def NeverCompletes (b : Block) : Prop :=
  ∀ {σ : Type} (act : Activation σ) (f : Frame σ), (Effect.exec (act.block b) f).1 ≠ .ok .normal

/-- Wherever in a body the block stands, control does not go on behind its code. -/
def CodeEnds (b : Block) : Prop :=
  ∀ (c : CodeContext) (exits : List (Option ExitCode)), c.IsAround exits → ∀ d t : Draft,
    d.asm.alive = true → (c.block exits b).run d = .ok ((), t) → t.asm.alive = false

/-- What the structural check says about the ends of blocks holds when they run and in their code,
    so that where it accepts a body with a result, neither a run nor the code falls off its end. -/
theorem Blueprint.ending_agrees :
    (∀ b : Block, blockEnds b = true → NeverCompletes b ∧ CodeEnds b) ∧
      ∀ (h : Hierarchy) (blueprint : Blueprint), blueprint.check h = .ok () →
        ∀ m ∈ blueprint.methods, ∀ body, m.body = some body → m.result.isVoid = false →
          NeverCompletes body.block ∧ ∀ (unit : String) (hasClassConstants : Bool) (pool : Pool),
            (CodeContext.mk unit m body hasClassConstants).lower pool ≠
              .error .completesNormally := by
  have hruns : ∀ b : Block, blockEnds b = true → NeverCompletes b :=
    fun b hends σ act f => act.ends_block hends f
  refine ⟨fun b hends => ⟨hruns b hends, fun c exits hexits d t _ =>
    CodeContext.ends_block hends hexits d () t⟩, fun h blueprint hcheck m hm body hbody hvoid => ?_⟩
  have hmethod : m.check h = .ok () := by
    rw [Blueprint.check, Except.forM_eq_ok] at hcheck
    exact Except.mapError_eq_ok.1 (hcheck m hm)
  have hends : blockEnds body.block = true := ((Method.check_iff hbody).1 hmethod).2.resolve_left
    (by rw [hvoid]; exact Bool.false_ne_true)
  refine ⟨hruns _ hends, fun unit hasClassConstants pool herror => ?_⟩
  let c := CodeContext.mk unit m body hasClassConstants
  cases hrun : c.wholeBody ⟨{}, pool, c.firstFree, []⟩ with
  | ok r => rw [CodeContext.lower_of_ok hrun] at herror; cases herror
  | error fault =>
    rw [CodeContext.lower_of_error hrun, Except.error.injEq] at herror
    exact CodeContext.wholeBody_error_ne hends (herror ▸ hrun)

/-- Every way through the region and out of its handler ends. -/
def ranking : Stmt :=
  .region [.cond (.isNull (.arg 0)) [.ret (some (.int 0))] [.throw (.arg 0)]]
    [⟨some "java.lang.RuntimeException", 0,
      [.switch (.int 1) [(1, [.ret (some (.int 1))])] [.ret (some (.int 2))]]⟩]
    none

/-- The exit block ends, so that what is guarded may complete. -/
def settling : Stmt :=
  .region [.eval (.call ⟨.virtual, "acme.Voucher", "settle", [], .void⟩ (some .this) [])] []
    (some ⟨none, [.ret (some (.int 3))]⟩)

/-- A class with a method for each. -/
def voucher : Blueprint where
  name := "acme.Voucher"
  ancestor := Known.object
  methods := [
    { name := "rank"
      params := [.named "java.lang.Throwable"]
      result := .int
      body := some ⟨[⟨"failure", .named "java.lang.Throwable"⟩], [ranking]⟩ },
    { name := "settled", result := .int, body := some ⟨[], [settling]⟩ }]

theorem Blueprint.ending_agrees_voucher :
    (NeverCompletes [ranking, settling] ∧ CodeEnds [ranking, settling]) ∧
      ∀ m ∈ voucher.methods, ∀ body, m.body = some body → NeverCompletes body.block ∧
        ∀ (unit : String) (hasClassConstants : Bool) (pool : Pool),
          (CodeContext.mk unit m body hasClassConstants).lower pool ≠
            .error .completesNormally := by
  have hok : ∃ checked, voucher.check .standard = .ok checked ∧ checked = () := by decide
  obtain ⟨_, hcheck, rfl⟩ := hok
  have hresults : ∀ m ∈ voucher.methods, m.result.isVoid = false := by decide
  exact ⟨Blueprint.ending_agrees.1 _ (by decide), fun m hm body hbody =>
    Blueprint.ending_agrees.2 .standard voucher hcheck m hm body hbody (hresults m hm)⟩

end ComponentViews
