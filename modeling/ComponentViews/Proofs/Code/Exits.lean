import ComponentViews.Proofs.Code.Expressions

/-!
# Code of ways out

What completes a statement keeps to itself: its jumps lead to labels of its own, and behind it
the stack is empty (`CodeContext.Completes`). Copies of exit blocks are of this kind, and so are
returns through them; where a region is left for a label, that label alone gets a jump.
-/

namespace ComponentViews

open Sketch Draft
open Lines (IsStart IsBound extent)

namespace CodeContext

variable {c : CodeContext} {checked : Prop} {room : Nat} {h : Hierarchy}

/-! ### Code of statements -/

variable (c checked room) in
/-- The code of a statement, which takes no more than `need` slots and where control `ends` or
    not. -/
def Completes (need : Nat) (ends : Bool) (x : Lower Unit) : Prop :=
  ∀ s : Sketch c checked room, s.depth = 0 → s.asm.alive = true →
    Yields need x s fun _ t => Passes s t ∧ t.depth = 0 ∧ (ends = true → t.asm.alive = false)

variable {need : Nat} {ends : Bool} {x : Lower Unit} {s : Sketch c checked room} {n : Nat}

theorem Completes.mono {need' : Nat} {ends' : Bool} (h : Completes c checked room need ends x)
    (hneed : need ≤ need') (hends : ends' = true → ends = true) :
    Completes c checked room need' ends' x :=
  fun s hdepth halive => (h s hdepth halive).mono hneed
    fun _ _ ⟨hst, ht, hdead⟩ => ⟨hst, ht, fun h => hdead (hends h)⟩

/-- An expression at the start of a statement. -/
theorem yields_operand (hc : c.HasValues) {e : Expr} (he : c.Typed True checked e)
    (hcheck : (c.scope h).checkExpr e = .ok ()) (hroom : c.peak e ≤ room) (hdepth : s.depth = 0)
    (halive : s.asm.alive = true) :
    Yields n (c.expr e) s fun _ t => Straight s t ∧ t.depth = (c.typeOf e).slots := by
  refine (yields_expr hc e he hcheck halive (by omega)).free.weaken ?_
  rintro - t ⟨hst, ht⟩
  exact ⟨hst, by rw [ht, hdepth, Nat.zero_add]⟩

/-- The slot of a variable, of which the first can hold a reference. -/
theorem yields_referenceSlot (hc : c.HasValues) {i : Nat}
    (hi : i < c.method.variableTypes.length) :
    Yields n (c.variableSlot i) s fun found t => t = s ∧ IsTaken s .object found.2 := by
  refine (yields_variableSlot hc hi).weaken ?_
  rintro found t ⟨rfl, -, hvoid, hword, htaken⟩
  obtain ⟨kind, hkind⟩ := Ty.exists_slotKind? hvoid
  have hpos := SlotKind.slots_pos kind
  rw [Ty.slots_of_slotKind? hkind] at htaken
  exact ⟨rfl, by decide, hword, by rw [slots_object]; omega⟩

/-! ### Copies of exit blocks -/

variable (c checked room) in
/-- An exit block whose copies take `need` slots. -/
structure ExitCompletes (need : Nat) (ends : Bool) (exit : ExitCode) : Prop where
  inFlight : ∀ i ∈ exit.inFlight, i < c.method.variableTypes.length
  -- A copy pushes null for the failure in flight.
  fits : 1 ≤ room
  body : Completes c checked room need ends exit.body

variable (c checked room) in
/-- The exit blocks of regions, with the slots that their copies take. -/
inductive Covers : List (Option ExitCode) → List (Option Nat) → Prop where
  | nil : Covers [] []
  | plain {exits : List (Option ExitCode)} {needs : List (Option Nat)} :
      Covers exits needs → Covers (none :: exits) (none :: needs)
  | exit {exits : List (Option ExitCode)} {needs : List (Option Nat)} {exit : ExitCode}
      {need : Nat} : ExitCompletes c checked room need false exit → Covers exits needs →
      Covers (some exit :: exits) (some need :: needs)

theorem Covers.any_isSome {exits : List (Option ExitCode)} {needs : List (Option Nat)}
    (h : Covers c checked room exits needs) :
    exits.any (·.isSome) = needs.any (·.isSome) := by
  induction h with
  | nil => rfl
  | plain _ ih => rw [List.any_cons, List.any_cons, ih]; rfl
  | exit _ _ _ => rfl

theorem completes_copyExit (hc : c.HasValues) {exit : ExitCode}
    (h : ExitCompletes c checked room need ends exit) :
    Completes c checked room need ends (c.copyExit exit) := by
  intro s hdepth halive
  rw [copyExit]
  cases hinFlight : exit.inFlight with
  | none => exact h.body s hdepth halive
  | some i =>
    refine (yields_referenceSlot hc (h.inFlight i (by rw [hinFlight]; rfl))).andThen ?_
    rintro ⟨ty, slot⟩ t ⟨rfl, htaken⟩
    have hroom : t.depth + 1 ≤ room := by rw [hdepth]; exact h.fits
    refine (yields_push halive rfl hroom (.plain rfl (fun _ => rfl) rfl rfl rfl)
      (fun _ => rfl) rfl).andThen ?_
    rintro - u ⟨htu, hu⟩
    have hualive : u.asm.alive = true := by rw [htu.alive, halive]
    refine (yields_storeReference hualive (htaken.later htu.toLater)
      (by rw [hu, hdepth])).andThen ?_
    rintro - v ⟨huv, hv, -⟩
    exact (h.body v hv (by rw [huv.alive, hualive])).weaken fun _ w ⟨hvw, hw⟩ =>
      ⟨(htu.trans huv).passes.trans hvw, hw⟩

/-- Copies of the exit blocks of regions that are left. -/
theorem yields_copyExits (hc : c.HasValues) {exits : List (Option ExitCode)}
    {needs : List (Option Nat)} (h : Covers c checked room exits needs) (left : Nat)
    (hdepth : s.depth = 0) (halive : s.asm.alive = true) :
    Yields (demandOfCopies needs) (c.copyExits left exits) s fun _ t =>
      Passes s t ∧ t.depth = 0 := by
  induction h generalizing left s with
  | nil => exact Yields.pure ⟨Flows.refl s, hdepth⟩
  | plain _ ih =>
    rw [copyExits]
    exact (ih (left + 1) hdepth halive).mono (by simp [demandOfCopies]) fun _ _ h => h
  | @exit exits needs exit need hexit _ ih =>
    have hdemand : demandOfCopies (some need :: needs) = need + demandOfCopies needs := rfl
    rw [copyExits, hdemand]
    refine yields_pc.andThen ?_
    rintro start t ⟨rfl, rfl⟩
    refine yields_leaveRegions.andThen ?_
    rintro inner t ⟨hst, hinner⟩
    refine (completes_copyExit hc hexit t (by rw [hst.depth]; exact hdepth)
      (by rw [hst.asm]; exact halive)).bind ?_
    rintro - u ⟨htu, hu, -⟩
    have hsu := hst.passes.trans htu
    refine yields_pc.andThen ?_
    rintro stop t' ⟨rfl, rfl⟩
    refine (yields_reenterRegions
      (fun gs hgs r hr => hsu.range (hinner gs hgs r hr))
      ⟨hsu.isBound (Lines.isBound_extent _), Lines.isBound_extent _⟩).andThen ?_
    rintro - v huv
    have hsv := hsu.trans huv.passes
    have hv : v.depth = 0 := by rw [huv.depth, hu]
    refine yields_isAlive.andThen ?_
    rintro alive w ⟨rfl, rfl⟩
    cases hvalive : w.asm.alive with
    | false => exact Yields.pure ⟨hsv, hv⟩
    | true =>
      exact (ih (left + 1) hv hvalive).weaken fun _ x ⟨hwx, hx⟩ => ⟨hsv.trans hwx, hx⟩

/-! ### Leaving for a label -/

theorem yields_leaveTo {label : Label} (hdepth : s.depth = 0) (hopen : IsOpen s.labels label) :
    Yields n (leaveTo label) s fun _ t =>
      Flows (fun k => k = label.id ∧ s.asm.alive = true) nowhere nowhere s t ∧
        t.depth = 0 ∧ t.asm.alive = false := by
  rw [leaveTo]
  refine yields_isAlive.andThen ?_
  rintro alive t ⟨rfl, rfl⟩
  cases halive : t.asm.alive with
  | false => exact Yields.pure ⟨Flows.refl t, hdepth, halive⟩
  | true =>
    refine (yields_branch (by decide) halive rfl rfl hdepth hopen).weaken ?_
    rintro - u ⟨htu, hu, hdead, -⟩
    exact ⟨htu.mono (fun k _ hk => ⟨hk, rfl⟩) (fun _ _ => id) fun _ _ => id, hu, hdead⟩

variable (c checked room) in
/-- What the exit block of a region, if there is one, takes for a copy. -/
def ExitIsSound (exit : Option ExitCode) (copy : Option Nat) (ends : Bool) : Prop :=
  (exit = none ∧ copy = none ∧ ends = false) ∨
    ∃ e k, exit = some e ∧ copy = some k ∧ ExitCompletes c checked room k ends e

/-- A region is left for the label behind it, unless control does not come to its end. -/
theorem yields_completeNormally (hc : c.HasValues) {exit : Option ExitCode} {copy : Option Nat}
    {exitEnds dead : Bool} {after : Label}
    (hexit : ExitIsSound c checked room exit copy exitEnds) (hdepth : s.depth = 0)
    (hopen : IsOpen s.labels after) (hdead : dead = true → s.asm.alive = false) :
    Yields (if dead then 0 else copy.getD 0) (c.completeNormally exit after) s fun _ t =>
      Flows (fun k => k = after.id ∧ (exitEnds || dead) = false) nowhere nowhere s t ∧
        t.depth = 0 ∧ t.asm.alive = false := by
  rw [completeNormally]
  refine yields_isAlive.andThen ?_
  rintro alive t ⟨rfl, rfl⟩
  cases halive : t.asm.alive with
  | false => exact Yields.pure ⟨Flows.refl t, hdepth, halive⟩
  | true =>
    have hgoes : dead = false := by
      cases dead with
      | false => rfl
      | true => rw [hdead rfl] at halive; cases halive
    rw [hgoes]
    refine yields_leaveRegion.andThen ?_
    rintro gaps u ⟨htu, hgaps⟩
    have hu : u.depth = 0 := by rw [htu.depth, hdepth]
    have hualive : u.asm.alive = true := by rw [htu.asm, halive]
    -- With or without a copy of the exit block, the gap is closed and the jump follows.
    have hrest : ∀ v : Sketch c checked room, Passes u v → v.depth = 0 →
        (exitEnds = true → v.asm.alive = false) → Yields 0 (do enterRegion gaps; leaveTo after) v
          fun _ w => Flows (fun k => k = after.id ∧ (exitEnds || false) = false) nowhere nowhere
            t w ∧ w.depth = 0 ∧ w.asm.alive = false := by
      intro v huv hv hends
      have htv := htu.passes.trans huv
      refine (yields_enterRegion fun r hr => htv.range (hgaps r hr)).andThen ?_
      rintro - w hvw
      have htw := htv.trans hvw.passes
      refine (yields_leaveTo (by rw [hvw.depth, hv])
        (htw.labels.isOpen hopen id)).weaken ?_
      rintro - x ⟨hwx, hx, hxdead⟩
      have hgo : w.asm.alive = true → (exitEnds || false) = false := by
        intro hwalive
        rw [hvw.asm] at hwalive
        cases exitEnds with
        | false => rfl
        | true => rw [hends rfl] at hwalive; cases hwalive
      exact ⟨(Passes.flows htw).trans (hwx.mono (fun k _ hk => ⟨hk.1, hgo hk.2⟩) (fun _ _ => id)
        fun _ _ => id), hx, hxdead⟩
    rcases hexit with ⟨rfl, rfl, rfl⟩ | ⟨e, k, rfl, rfl, he⟩
    · exact hrest u (Flows.refl u) hu fun h => by cases h
    · refine ((completes_copyExit hc he u hu hualive).bind (n := 0) ?_)
      rintro - v ⟨huv, hv, hends⟩
      exact hrest v huv hv hends

/-! ### Instructions that end control -/

theorem returnOp_terminal (ty : Ty) :
    Opcode.isReturn (returnOp ty) = true ∧ Opcode.isTerminal (returnOp ty) = true ∧
      (Instruction.plain (returnOp ty)).isListed = true ∧
        (Instruction.plain (returnOp ty)).lastSlot? = none ∧
          Opcode.plainEffect? (returnOp ty) = some (ty.slots, 0) := by
  rw [returnOp]
  cases hvoid : ty.isVoid with
  | true =>
    rw [if_pos rfl, show ty.slots = 0 by rw [Ty.slots, hvoid, if_pos rfl]]
    decide
  | false =>
    rw [if_neg Bool.false_ne_true, Ty.slots_of_slotKind? (slotKind?_of_isVoid hvoid)]
    cases kindOf ty <;> decide

/-- A failure is thrown, with nothing else on the stack. -/
theorem yields_athrow (hdepth : s.depth = 1) :
    Yields n (emit (.plain Opcode.athrow) (-1)) s fun _ t =>
      Passes s t ∧ t.depth = 0 ∧ t.asm.alive = false :=
  yields_emit_terminal rfl rfl hdepth
    { known := .inl rfl
      listed := fun _ => .inl rfl
      constant := fun e he => by cases he
      locals := fun slot hslot => by cases hslot
      returns := fun hreturn => absurd hreturn (by decide) } (fun _ => rfl) rfl

/-- The return of the method, with nothing but its value on the stack. -/
theorem yields_return {delta : Int} (hdelta : (c.method.result.slots : Int) + delta = 0)
    (hdepth : s.depth = c.method.result.slots) :
    Yields n (emit (.plain (returnOp c.method.result)) delta) s fun _ t =>
      Passes s t ∧ t.depth = 0 ∧ t.asm.alive = false := by
  obtain ⟨-, hterminal, hlisted, hslot, heffect⟩ := returnOp_terminal c.method.result
  exact yields_emit_terminal heffect hdelta hdepth
    { known := .inl (Instruction.isKnown_of_isListed hlisted)
      listed := fun _ => .inl hlisted
      constant := fun e he => by cases he
      locals := fun slot h => absurd (hslot.symm.trans h) (by simp)
      returns := fun _ => rfl } (fun _ => rfl) hterminal

/-! ### Returns -/

/-- A return without a value. -/
theorem completes_returnNone (hc : c.HasValues) {exits : List (Option ExitCode)}
    {needs : List (Option Nat)} (hexits : Covers c checked room exits needs)
    (hvoid : c.method.result.isVoid = true) :
    Completes c checked room (demandOfCopies needs) true (c.returnValue exits none) := by
  intro s hdepth halive
  have hop : Opcode.vreturn = returnOp c.method.result := by rw [returnOp, hvoid, if_pos rfl]
  have hslots : c.method.result.slots = 0 := by rw [Ty.slots, hvoid, if_pos rfl]
  have hreturn : ∀ t : Sketch c checked room, t.depth = 0 →
      Yields 0 (emit (.plain (returnOp c.method.result)) 0) t fun _ u =>
        Passes t u ∧ u.depth = 0 ∧ u.asm.alive = false :=
    fun t ht => yields_return (by rw [hslots]; rfl) (by rw [ht, hslots])
  rw [returnValue, hop]
  cases exits.any (·.isSome) with
  | false =>
    rw [if_neg Bool.false_ne_true]
    refine yields_isAlive.andThen ?_
    rintro alive t ⟨rfl, rfl⟩
    exact (hreturn t hdepth).free.weaken fun _ u ⟨htu, hu, hdead⟩ => ⟨htu, hu, fun _ => hdead⟩
  | true =>
    rw [if_pos rfl]
    refine (yields_copyExits hc hexits 0 hdepth halive).bind (n := 0) ?_
    rintro - t ⟨hst, ht⟩
    refine yields_isAlive.andThen ?_
    rintro alive u ⟨rfl, rfl⟩
    cases hualive : u.asm.alive with
    | false => exact Yields.pure ⟨hst, ht, fun _ => hualive⟩
    | true =>
      exact (hreturn u ht).weaken fun _ v ⟨huv, hv, hdead⟩ =>
        ⟨hst.trans huv, hv, fun _ => hdead⟩

/-- A return with a value, which waits while exit blocks run. -/
theorem completes_returnSome (hc : c.HasValues) {exits : List (Option ExitCode)}
    {needs : List (Option Nat)} {e : Expr} (hexits : Covers c checked room exits needs)
    (he : c.Typed True checked e) (hcheck : (c.scope h).checkExpr e = .ok ())
    (hroom : c.peak e ≤ room) (hkind : c.kindOf? e = c.method.result.slotKind?)
    (hvoid : c.method.result.isVoid = false) :
    Completes c checked room (if needs.any (·.isSome) then
      width c.method.result + demandOfCopies needs else 0) true
        (c.returnValue exits (some e)) := by
  intro s hdepth halive
  have hslots : (c.typeOf e).slots = c.method.result.slots := Ty.slots_congr hkind
  have hreturn : ∀ t : Sketch c checked room, t.depth = c.method.result.slots →
      Yields 0 (emit (.plain (returnOp c.method.result)) (-(c.method.result.slots : Int))) t
        fun _ u => Passes t u ∧ u.depth = 0 ∧ (true = true → u.asm.alive = false) := by
    intro t ht
    refine (yields_return (by omega) ht).weaken ?_
    rintro - u ⟨htu, hu, hdead⟩
    exact ⟨htu, hu, fun _ => hdead⟩
  rw [returnValue, ← hexits.any_isSome]
  refine (yields_operand hc he hcheck hroom hdepth halive).andThen ?_
  rintro - t ⟨hst, ht⟩
  rw [hslots] at ht
  have hfits : c.method.result.slots ≤ room := by rw [← ht]; exact t.depth_le
  -- Without exit blocks the value is returned from the stack; they would find it there.
  cases exits.any (·.isSome) with
  | false =>
    rw [if_neg Bool.false_ne_true, if_neg Bool.false_ne_true]
    refine (hreturn t ht).weaken ?_
    rintro - u ⟨htu, hu⟩
    exact ⟨hst.passes.trans htu, hu⟩
  | true =>
    rw [if_pos rfl, if_pos rfl]
    have htalive : t.asm.alive = true := by rw [hst.alive, halive]
    refine (yields_newSlot hvoid).bind ?_
    rintro slot u ⟨htu, hu, htaken, -⟩
    have hualive : u.asm.alive = true := by rw [htu.alive, htalive]
    refine (yields_store hualive htaken (by rw [hu, ht, Nat.zero_add])).andThen ?_
    rintro - v ⟨huv, hv⟩
    have hsv := ((hst.trans htu).trans huv).passes
    refine (yields_copyExits hc hexits 0 hv (by rw [huv.alive, hualive])).bind (n := 0) ?_
    rintro - w ⟨hvw, hw⟩
    have htaken := (htaken.later huv.toLater).later hvw.toLater
    -- A copy of an exit block may end, and then nothing is returned.
    refine yields_isAlive.andThen ?_
    rintro alive x ⟨rfl, rfl⟩
    cases hxalive : x.asm.alive with
    | false => exact Yields.pure ⟨hsv.trans hvw, hw, fun _ => hxalive⟩
    | true =>
      refine (yields_load hxalive htaken (by rw [hw, Nat.zero_add]; exact hfits)).andThen ?_
      rintro - y ⟨hxy, hy⟩
      refine (hreturn y (by rw [hy, hw, Nat.zero_add])).weaken ?_
      rintro - z ⟨hyz, hz⟩
      exact ⟨((hsv.trans hvw).trans hxy.passes).trans hyz, hz⟩

end CodeContext

end ComponentViews
