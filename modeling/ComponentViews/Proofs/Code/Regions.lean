import ComponentViews.Proofs.Code.Statements

/-!
# Code of regions

A region completes where its guarded block, its handlers and its exit block do. The ranges that
its handlers cover begin and end where lines do, and so does what is left of them without their
gaps; every handler begins with a line that takes the failure from the stack.
-/

namespace ComponentViews

open Sketch Draft
open Lines (IsHandler extent)

/-! ### Ranges -/

namespace CodeRange

variable {lines : List Line}

theorem isDrawn_between {stop cursor : Nat} {gaps : List CodeRange}
    (hstop : Lines.IsBound lines stop) (hcursor : Lines.IsBound lines cursor)
    (hgaps : ∀ gap ∈ gaps, gap.IsDrawn lines) :
    ∀ r ∈ between stop cursor gaps, r.IsDrawn lines := by
  induction gaps generalizing cursor with
  | nil =>
    intro r hr
    rw [between] at hr
    split at hr
    · rw [List.mem_singleton.1 hr]
      exact ⟨hcursor, hstop⟩
    · cases hr
  | cons gap gaps ih =>
    obtain ⟨hgap, hgaps⟩ := List.forall_mem_cons.1 hgaps
    intro r hr
    rw [between] at hr
    rcases List.mem_append.1 hr with hr | hr
    · split at hr
      · rw [List.mem_singleton.1 hr]
        exact ⟨hcursor, hgap.1⟩
      · cases hr
    · refine ih ?_ hgaps r hr
      rcases Nat.le_total cursor gap.stop with hle | hle
      · rw [Nat.max_eq_right hle]
        exact hgap.2
      · rw [Nat.max_eq_left hle]
        exact hcursor

/-- What is left of a range begins and ends where the range or a gap does. -/
theorem isDrawn_subtract {r : CodeRange} {gaps : List CodeRange} (hr : r.IsDrawn lines)
    (hgaps : ∀ gap ∈ gaps, gap.IsDrawn lines) : ∀ part ∈ r.subtract gaps, part.IsDrawn lines :=
  isDrawn_between hr.2 hr.1 fun gap hgap =>
    hgaps gap (List.mem_of_mem_filter (List.mem_mergeSort.1 hgap))

end CodeRange

namespace CodeContext

variable {c : CodeContext} {checked : Prop} {room : Nat} {s : Sketch c checked room} {n : Nat}
  {exit : Option ExitCode} {copy : Option Nat} {exitEnds : Bool}

/-! ### Handlers -/

variable (c checked room) in
/-- The handlers of a region, of whose exit block a copy takes `copy` slots. -/
inductive HandlersComplete (copy : Nat) : List HandlerCode → Nat → Bool → Prop where
  | nil : HandlersComplete copy [] 0 true
  | cons {handler : HandlerCode} {handlers : List HandlerCode} {need need' : Nat}
      {ends ends' : Bool} : handler.binding < c.method.variableTypes.length →
      Completes c checked room need ends handler.body →
      HandlersComplete copy handlers need' ends' →
      HandlersComplete copy (handler :: handlers)
        (need + (if ends then 0 else copy) + need') (ends && ends')

/-- Each handler begins with the failure on the stack, and leaves the region at its end. -/
theorem yields_handlerBlocks (hc : c.HasValues) {handlers : List HandlerCode} {need : Nat}
    {ends : Bool} {after : Label} (hfits : 1 ≤ room)
    (hexit : ExitIsSound c checked room exit copy exitEnds)
    (h : HandlersComplete c checked room (copy.getD 0) handlers need ends)
    (hopen : IsOpen s.labels after) (hdepth : s.depth = 0) (hdead : s.asm.alive = false) :
    Yields need (c.handlerBlocks exit after handlers) s fun ranges t =>
      Flows (fun k => k = after.id ∧ (exitEnds || ends) = false) nowhere nowhere s t ∧
        t.depth = 0 ∧ t.asm.alive = false ∧
          ∀ r ∈ ranges, r.IsDrawn t.lines ∧ IsHandler t.lines t.depths r.start := by
  -- By induction on the handlers: each is entered from the dead code behind the one before it.
  induction h generalizing s with
  | nil => exact Yields.pure ⟨Flows.refl s, hdepth, hdead, by simp⟩
  | @cons handler handlers need need' ends ends' hbinding hbody _ ih =>
    rw [handlerBlocks]
    refine yields_pc.andThen ?_
    rintro start s ⟨rfl, rfl⟩
    refine (yields_enterHandler hdead hdepth hfits).andThen ?_
    rintro - t ⟨hst, ht, halive, hlines⟩
    refine (yields_referenceSlot hc hbinding).andThen ?_
    rintro ⟨ty, slot⟩ t ⟨rfl, htaken⟩
    refine (yields_storeReference halive htaken (ht.trans (Nat.zero_add 1).symm)).andThen ?_
    rintro - u ⟨htu, hu, hstart⟩
    have hstart := hlines ▸ hstart rfl
    refine ((hbody u hu (by rw [htu.alive, halive])).bind (n :=
      (if ends then 0 else copy.getD 0) + need') ?_).mono (by omega) fun _ _ h => h
    rintro - v ⟨huv, hv, hvdead⟩
    have hsv := (hst.trans htu.passes).trans huv
    refine yields_pc.andThen ?_
    rintro stop v ⟨rfl, rfl⟩
    refine (yields_completeNormally hc hexit hv (hsv.labels.isOpen hopen id) hvdead).bind ?_
    rintro - w ⟨hvw, hw, hwdead⟩
    have hsw : Flows (fun k => k = after.id ∧ (exitEnds || ends) = false) nowhere nowhere s w :=
      (Passes.flows hsv).trans hvw
    refine (ih (hsw.labels.isOpen hopen id) hw hwdead).bind (n := 0) ?_
    rintro ranges x ⟨hwx, hx, hxdead, hranges⟩
    refine Yields.pure ⟨?_, hx, hxdead, List.forall_mem_cons.2 ⟨⟨⟨?_, ?_⟩, ?_⟩, hranges⟩⟩
    · have hends : ∀ a b : Bool, a = false ∨ b = false → (a && b) = false := by decide
      refine (hsw.mono (fun k _ hk => ⟨hk.1, ?_⟩) (fun _ _ => id) fun _ _ => id).trans
        (hwx.mono (fun k _ hk => ⟨hk.1, ?_⟩) (fun _ _ => id) fun _ _ => id)
      all_goals
        have hk := Bool.or_eq_false_iff.1 hk.2
        rw [hk.1, hends _ _ (by simp [hk.2])]
        rfl
    · exact hwx.isBound (hsw.isBound (Lines.isBound_extent _))
    · exact hwx.isBound (hvw.isBound (Lines.isBound_extent _))
    · exact hwx.isHandler (hvw.isHandler (huv.isHandler hstart))

/-- The handlers are found in the table. -/
theorem yields_catchIn {covered : List CodeRange} {handlers : List (HandlerCode × CodeRange)}
    (hcovered : ∀ r ∈ covered, r.IsDrawn s.lines)
    (hhandlers : ∀ e ∈ handlers, IsHandler s.lines s.depths e.2.start) :
    Yields n (catchIn covered handlers) s fun _ t => Straight s t ∧ t.depth = s.depth := by
  induction handlers generalizing s with
  | nil => exact Yields.pure ⟨Straight.refl s, rfl⟩
  | cons e handlers ih =>
    obtain ⟨handler, range⟩ := e
    obtain ⟨hhandler, hhandlers⟩ := List.forall_mem_cons.1 hhandlers
    -- The entry of a handler for all failures names no class, any other one in the pool.
    have hadd : ∀ (t : Sketch c checked room) (catchType : UInt16), Straight s t →
        t.depth = s.depth →
        catchType = 0 ∨ (t.draft.pool.get? catchType).any Constant.isClass = true →
        Yields n (do addCatches covered range.start catchType; catchIn covered handlers) t
          fun _ u => Straight s u ∧ u.depth = s.depth := by
      intro t catchType hst ht hclass
      refine (yields_addCatches (fun r hr => hst.range (hcovered r hr))
        (hst.isHandler hhandler) hclass).andThen ?_
      rintro - u ⟨htu, hlines, hdepths⟩
      have hu : u.depth = t.depth := by rw [depth, hlines, hdepths, depth]
      have hsu := hst.trans htu
      refine (ih (fun r hr => hsu.range (hcovered r hr))
        fun e he => hsu.isHandler (hhandlers e he)).weaken ?_
      rintro - v ⟨huv, hv⟩
      exact ⟨hsu.trans huv, by rw [hv, hu, ht]⟩
    rw [catchIn]
    cases handler.caught with
    | none => exact hadd s 0 (Straight.refl s) rfl (.inl rfl)
    | some className =>
      show Yields n (do
        let i ← addConstant (Pool.addClass className)
        addCatches covered range.start i
        catchIn covered handlers) s _
      refine (yields_addConstant fun i q hrun => Pool.spec_addClass s.drawn.pool hrun).andThen ?_
      rintro i t ⟨hst, ht, hclass⟩
      obtain ⟨text, hget, -⟩ := Pool.className?_eq_some.1 hclass
      exact hadd t i hst ht (.inr (by rw [hget]; rfl))

/-! ### Handlers of exits -/

/-- The slot for the failure in flight can hold a reference. -/
theorem yields_inFlightSlot (hc : c.HasValues) {exit : ExitCode}
    (hinFlight : ∀ i ∈ exit.inFlight, i < c.method.variableTypes.length) :
    Yields (demandOfInFlight (some exit)) (c.inFlightSlot exit) s fun slot t =>
      Straight s t ∧ t.depth = s.depth ∧ IsTaken t .object slot ∧ t.lines = s.lines := by
  obtain ⟨inFlight, body⟩ := exit
  cases inFlight with
  | none =>
    have hwidth : width (.named Known.throwable) = 1 := by decide
    have hnew : Yields (width (.named Known.throwable)) (newSlot (.named Known.throwable)) s _ :=
      yields_newSlot (by decide)
    rw [hwidth] at hnew
    refine hnew.weaken ?_
    rintro slot t ⟨hst, ht, htaken, hlines⟩
    exact ⟨hst, ht, ⟨by decide, htaken.word, htaken.taken⟩, hlines⟩
  | some i =>
    refine (yields_referenceSlot hc (hinFlight i rfl)).andThen ?_
    rintro ⟨ty, slot⟩ t ⟨rfl, htaken⟩
    exact Yields.pure ⟨Straight.refl t, rfl, htaken, rfl⟩

/-- The handler of an exit throws the failure again. -/
theorem yields_exitHandler (hc : c.HasValues) {exit : ExitCode} {need : Nat} {ends : Bool}
    {covered : List CodeRange} (hexit : ExitCompletes c checked room need ends exit)
    (hcovered : ∀ r ∈ covered, r.IsDrawn s.lines) (hdepth : s.depth = 0)
    (hdead : s.asm.alive = false) :
    Yields (demandOfInFlight (some exit) + need) (c.exitHandler exit covered) s fun _ t =>
      Passes s t ∧ t.depth = 0 ∧ t.asm.alive = false := by
  rw [exitHandler]
  refine yields_pc.andThen ?_
  rintro start s ⟨rfl, rfl⟩
  refine (yields_enterHandler hdead hdepth hexit.fits).andThen ?_
  rintro - t ⟨hst, ht, halive, hlines⟩
  refine (yields_inFlightSlot hc hexit.inFlight).bind ?_
  rintro slot u ⟨htu, hu, htaken, hlines'⟩
  have hualive : u.asm.alive = true := by rw [htu.alive, halive]
  refine (yields_storeReference hualive htaken (by rw [hu, ht])).andThen ?_
  rintro - v ⟨huv, hv, hstart⟩
  have hstart : IsHandler v.lines v.depths (extent s.lines) := by
    rw [← hlines, ← hlines']
    exact hstart rfl
  refine (hexit.body v hv (by rw [huv.alive, hualive])).bind (n := 0) ?_
  rintro - w ⟨hvw, hw, -⟩
  have hsw := (hst.trans (htu.trans huv).passes).trans hvw
  -- Whether the block ends or the failure is thrown again, the ranges are covered last.
  have hcatch : ∀ x : Sketch c checked room, Passes w x → x.depth = 0 → x.asm.alive = false →
      Yields 0 (addCatches covered (extent s.lines) 0) x fun _ y =>
        Passes s y ∧ y.depth = 0 ∧ y.asm.alive = false := by
    intro x hwx hx hxdead
    have hsx := hsw.trans hwx
    refine (yields_addCatches (fun r hr => hsx.range (hcovered r hr))
      (hwx.isHandler (hvw.isHandler hstart)) (.inl rfl)).weaken ?_
    rintro - y ⟨hxy, hlines, hdepths⟩
    exact ⟨hsx.trans hxy.passes, by rw [depth, hlines, hdepths]; exact hx,
      by rw [hxy.alive, hxdead]⟩
  refine yields_isAlive.andThen ?_
  rintro alive x ⟨rfl, rfl⟩
  cases hwalive : x.asm.alive with
  | false => exact hcatch x (Flows.refl x) hw hwalive
  | true =>
    refine (yields_loadReference hwalive
      (htaken.later (huv.toLater.trans hvw.toLater))
      (by rw [hw]; exact hexit.fits)).andThen ?_
    rintro - y ⟨hxy, hy⟩
    refine (yields_athrow (by rw [hy, hw])).andThen ?_
    rintro - z ⟨hyz, hz, hzdead⟩
    exact hcatch z (hxy.passes.trans hyz) hz hzdead

/-! ### Regions -/

/-- Behind the guarded code and the handlers the exception table gets its entries; then comes the
    handler of the exit, and the label at the end. -/
theorem yields_closeRegion (hc : c.HasValues) {guarded : CodeRange} {handled : List CodeRange}
    {after : Label} {ends : Bool} (hexit : ExitIsSound c checked room exit copy exitEnds)
    (hguarded : guarded.IsDrawn s.lines)
    (hhandled : ∀ r ∈ handled, r.IsDrawn s.lines ∧ IsHandler s.lines s.depths r.start)
    (hafter : Collects s.labels after ends) (hdepth : s.depth = 0) (hdead : s.asm.alive = false)
    (handlers : List HandlerCode) :
    Yields (demandOfInFlight exit + copy.getD 0) (do
      let gaps ← leaveRegion
      let covered := guarded.subtract gaps
      catchIn covered (handlers.zip handled)
      if let some exit := exit then
        c.exitHandler exit (covered ++ handled.flatMap (·.subtract gaps))
      place after) s fun _ t =>
        Flows nowhere (fun k => k = after.id) nowhere s t ∧ t.depth = 0 ∧
          (ends = true → t.asm.alive = false) ∧ IsPlaced t after.id := by
  refine yields_leaveRegion.andThen ?_
  rintro gaps t ⟨hst, hgaps⟩
  have hlater : ∀ r : CodeRange, r.IsDrawn s.lines → r.IsDrawn t.lines := fun r hr =>
    hst.passes.range hr
  -- What a gap leaves of a range begins and ends at lines, as both of them do.
  have hcovered : ∀ range : CodeRange, range.IsDrawn s.lines →
      ∀ r ∈ range.subtract gaps, r.IsDrawn t.lines := fun range hrange =>
    CodeRange.isDrawn_subtract (hlater range hrange) fun gap hgap => hlater gap (hgaps gap hgap)
  refine (yields_catchIn (hcovered guarded hguarded) fun e he =>
    hst.passes.isHandler (hhandled e.2 (List.of_mem_zip he).2).2).andThen ?_
  rintro - u ⟨htu, hu⟩
  have hu : u.depth = 0 := by rw [hu, hst.depth, hdepth]
  have hudead : u.asm.alive = false := by rw [htu.alive, hst.asm, hdead]
  have hsu := hst.passes.trans htu.passes
  have hplace : ∀ v : Sketch c checked room, Passes u v → v.depth = 0 → v.asm.alive = false →
      Yields 0 (place after) v fun _ w => Flows nowhere (fun k => k = after.id) nowhere s w ∧
        w.depth = 0 ∧ (ends = true → w.asm.alive = false) ∧ IsPlaced w after.id := by
    intro v huv hv hvdead
    have hsv := hsu.trans huv
    refine (yields_placeAfter hv (hsv.labels.collects hafter id False.elim id)
      fun _ => hvdead).weaken ?_
    rintro - w ⟨hvw, hw⟩
    exact ⟨(Passes.flows hsv).trans hvw, hw⟩
  rcases hexit with ⟨rfl, rfl, rfl⟩ | ⟨e, k, rfl, rfl, he⟩
  · exact (hplace u (Flows.refl u) hu hudead).free
  · refine (yields_exitHandler hc he (fun r hr => htu.range ?_) hu hudead).bind (n := 0) ?_
    · rcases List.mem_append.1 hr with hr | hr
      · exact hcovered guarded hguarded r hr
      · obtain ⟨range, hrange, hr⟩ := List.mem_flatMap.1 hr
        exact hcovered range (hhandled range hrange).1 r hr
    · rintro - v ⟨huv, hv, hvdead⟩
      exact hplace v huv hv hvdead

theorem completes_region (hc : c.HasValues) {block : Lower Unit} {handlers : List HandlerCode}
    {need need' : Nat} {ends ends' : Bool} (hfits : 1 ≤ room)
    (hblock : Completes c checked room need ends block)
    (hhandlers : HandlersComplete c checked room (copy.getD 0) handlers need' ends')
    (hexit : ExitIsSound c checked room exit copy exitEnds) :
    Completes c checked room
      (need + (if ends then 0 else copy.getD 0) + need' + demandOfInFlight exit + copy.getD 0)
      (exitEnds || (ends && ends')) (c.region block handlers exit) := by
  intro s hdepth halive
  rw [region]
  refine yields_newLabel.andThen ?_
  rintro after t ⟨hst, hfresh, hafter, ht, htalive⟩
  refine (yields_enterRegion (by simp)).andThen ?_
  rintro - u htu
  refine yields_pc.andThen ?_
  rintro start u ⟨rfl, rfl⟩
  refine ((hblock u (by rw [htu.depth, ht, hdepth]) (by rw [htu.asm, htalive, halive])).bind
    (n := (if ends then 0 else copy.getD 0) +
      (need' + (demandOfInFlight exit + copy.getD 0))) ?_).mono (by omega) fun _ _ h => h
  rintro - v ⟨huv, hv, hvdead⟩
  have htv := htu.passes.trans huv
  have hafter := htv.labels.awaits hafter id id
  refine yields_pc.andThen ?_
  rintro stop v ⟨rfl, rfl⟩
  refine (yields_completeNormally hc hexit hv hafter.isOpen hvdead).bind ?_
  rintro - w ⟨hvw, hw, hwdead⟩
  have hafter : Collects w.labels after (exitEnds || ends) :=
    hvw.labels.collects ⟨none, hafter, fun _ => rfl⟩ id (fun hk => hk.2) id
  refine (yields_handlerBlocks hc hfits hexit hhandlers hafter.isOpen hw hwdead).bind ?_
  rintro ranges x ⟨hwx, hx, hxdead, hranges⟩
  -- Control comes to the label from each part that can go on, unless the exit block cannot.
  have hafter : Collects x.labels after (exitEnds || (ends && ends')) := by
    have hends : ∀ a b d : Bool, ((a || d) = false → (a || (b && d)) = false) ∧
        ((a || (b && d)) = true → (a || b) = true) := by decide
    exact hwx.labels.collects hafter id (fun hk => (hends _ _ _).1 hk.2) (hends _ _ _).2
  have hguarded : CodeRange.IsDrawn x.lines ⟨extent u.lines, extent v.lines⟩ :=
    ⟨hwx.isBound (hvw.isBound (huv.isBound (Lines.isBound_extent _))),
      hwx.isBound (hvw.isBound (Lines.isBound_extent _))⟩
  refine (yields_closeRegion hc hexit hguarded hranges hafter hx hxdead handlers).weaken ?_
  rintro - y ⟨hxy, hy, hdead, hplaced⟩
  have hsw : Adds (fun k => k = after.id) s w :=
    (hst.passing htv).andThen hvw (fun k hk => hk.1 ▸ hfresh) (fun _ => False.elim)
      fun _ => False.elim
  have hsx := hsw.andThen hwx (fun k hk => hk.1 ▸ hfresh) (fun _ => False.elim)
    fun _ => False.elim
  have hsy := hsx.andThen hxy (fun _ => False.elim) (fun k hk => hk ▸ hfresh)
    fun _ => False.elim
  exact ⟨hsy.passes fun k hk => hk ▸ hplaced, hy, hdead⟩

end CodeContext

end ComponentViews
