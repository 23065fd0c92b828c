import ComponentViews.Proofs.Code.Exits

/-!
# Code of choices and switches

A choice and a switch complete where their blocks do: the labels that they add have a place in
the end, and control goes on behind them only from a block that it goes on from.
-/

namespace ComponentViews

open Sketch Draft

namespace CodeContext

variable {c : CodeContext} {checked : Prop} {room : Nat} {h : Hierarchy}
  {s : Sketch c checked room} {n : Nat}

/-! ### Conditions -/

/-- The jump for a condition whose operand is on the stack. -/
theorem yields_test {op : UInt8} {label : Label} {takes : Nat} {delta : Int}
    (hop : Opcode.isJump op = true) (hgoes : (op != Opcode.goto) = true)
    (heffect : Opcode.jumpEffect op = (takes, 0)) (hdelta : (takes : Int) + delta = 0)
    {t : Sketch c checked room} (hst : Straight s t) (halive : s.asm.alive = true)
    (hdepth : t.depth = takes) (hawaits : Awaits s.labels label none) :
    Yields n (branch op label delta) t fun _ u =>
      Flows (fun k => k = label.id) nowhere nowhere s u ∧ u.depth = 0 ∧ u.asm.alive = true ∧
        Awaits u.labels label (some 0) := by
  have hopen : IsOpen t.labels label := by
    rw [hst.labels]
    exact hawaits.isOpen
  refine (yields_branch hop (by rw [hst.alive, halive]) heffect hdelta hdepth hopen).weaken ?_
  rintro - u ⟨htu, hu, hualive, huawaits⟩
  exact ⟨hst.passes.flows.trans htu, hu, hualive.trans hgoes, huawaits⟩

theorem yields_branchUnless (hc : c.HasValues) {cond : Cond} {label : Label}
    (hcond : c.TypedCond True checked cond) (hcheck : (c.scope h).checkCond cond = .ok ())
    (hroom : c.peakOfCond cond ≤ room) (hdepth : s.depth = 0) (halive : s.asm.alive = true)
    (hawaits : Awaits s.labels label none) :
    Yields n (c.branchUnless cond label) s fun _ t =>
      Flows (fun k => k = label.id) nowhere nowhere s t ∧ t.depth = 0 ∧ t.asm.alive = true ∧
        Awaits t.labels label (some 0) := by
  have hint : ∀ {e}, c.kindOf? e = some .int → (c.typeOf e).slots = 1 := fun he =>
    Ty.slots_of_slotKind? he
  unfold branchUnless
  -- Each condition leaves one slot that its jump takes, or two for a comparison.
  cases cond with
  | isTrue e | isFalse e =>
    refine (yields_operand hc hcond.1 hcheck hroom hdepth halive).andThen ?_
    rintro - t ⟨hst, ht⟩
    rw [hint hcond.2] at ht
    exact yields_test (by decide) rfl rfl rfl hst halive ht hawaits
  | isNull e | notNull e =>
    refine (yields_operand hc hcond.1 hcheck hroom hdepth halive).andThen ?_
    rintro - t ⟨hst, ht⟩
    rw [slots_of_isReference hcond.2] at ht
    exact yields_test (by decide) rfl rfl rfl hst halive ht hawaits
  | instanceOf e className =>
    refine (yields_operand hc hcond.1 hcheck hroom hdepth halive).andThen ?_
    rintro - t ⟨hst, ht⟩
    rw [slots_of_isReference hcond.2] at ht
    have hwithin := t.depth_le
    simp only [← bind_assoc]
    refine (yields_onClass (n := 0) names_instanceof rfl rfl (by rw [hst.alive, halive]) rfl
      (ht.trans (Nat.zero_add 1).symm) (by omega)).andThen ?_
    rintro - u ⟨htu, hu⟩
    exact yields_test (by decide) rfl rfl rfl (hst.trans htu) halive hu hawaits
  | same a b =>
    obtain ⟨⟨ha, haref⟩, hb, hbref⟩ := hcond
    obtain ⟨hacheck, hbcheck⟩ := (Scope.checkCond_same _).1 hcheck
    rw [peakOfCond] at hroom
    refine (yields_operand hc ha hacheck (by omega) hdepth halive).andThen ?_
    rintro - t ⟨hst, ht⟩
    rw [slots_of_isReference haref] at ht
    refine (yields_expr hc b hb hbcheck (by rw [hst.alive, halive]) (by omega)).andThen ?_
    rintro - u ⟨htu, hu⟩
    rw [slots_of_isReference hbref, ht] at hu
    exact yields_test (by decide) rfl rfl rfl (hst.trans htu) halive hu hawaits

/-! ### The end of a statement -/

/-- The label at the end of a statement gets its place. -/
theorem yields_placeAfter {after : Label} {ends : Bool} (hdepth : s.depth = 0)
    (hafter : Collects s.labels after ends) (hdead : ends = true → s.asm.alive = false) :
    Yields n (place after) s fun _ t =>
      Flows nowhere (fun k => k = after.id) nowhere s t ∧ t.depth = 0 ∧
        (ends = true → t.asm.alive = false) ∧ IsPlaced t after.id := by
  obtain ⟨depth, hawaits, hnone⟩ := hafter
  refine (yields_place hdepth hawaits).weaken ?_
  rintro - t ⟨hst, ht, halive, hplaced⟩
  refine ⟨hst, ht, fun hends => ?_, hplaced⟩
  rw [halive, hdead hends, hnone hends]
  rfl

/-- The last block of a statement, from its label to the one at the end. -/
theorem yields_lastBlock {first after : Label} {block : Lower Unit} {need : Nat} {ends ends' : Bool}
    (hblock : Completes c checked room need ends' block) (hdepth : s.depth = 0)
    (hfirst : Awaits s.labels first (some 0)) (hafter : Collects s.labels after ends)
    (hne : after.id ≠ first.id) :
    Yields need (do place first; block; place after) s fun _ t =>
      Flows nowhere (fun k => k = first.id ∨ k = after.id) nowhere s t ∧ t.depth = 0 ∧
        (ends = true → ends' = true → t.asm.alive = false) ∧
          IsPlaced t first.id ∧ IsPlaced t after.id := by
  refine (yields_place hdepth hfirst).andThen ?_
  rintro - t ⟨hst, ht, halive, hplaced⟩
  have hafter := hst.labels.collects hafter hne False.elim id
  refine (hblock t ht (by rw [halive, Option.isSome_some, Bool.or_true])).bind (n := 0) ?_
  rintro - u ⟨htu, hu, hudead⟩
  have hafter : Collects u.labels after (ends && ends') :=
    htu.labels.collects hafter id False.elim fun he => (Bool.and_eq_true_iff.1 he).1
  refine (yields_placeAfter hu hafter fun he => hudead (Bool.and_eq_true_iff.1 he).2).weaken ?_
  rintro - v ⟨huv, hv, hdead, hplaced'⟩
  have hsu : Flows nowhere (fun k => k = first.id ∨ k = after.id) nowhere s u :=
    (hst.mono (fun _ _ => id) (fun _ _ => .inl) fun _ _ => id).trans htu.flows
  exact ⟨hsu.trans (huv.mono (fun _ _ => id) (fun _ _ => .inr) fun _ _ => id), hv,
    fun he he' => hdead (by rw [he, he']; rfl), huv.isPlaced (htu.isPlaced hplaced), hplaced'⟩

/-! ### Choices -/

theorem completes_choiceNone (hc : c.HasValues) {cond : Cond} {yes : Lower Unit} {need : Nat}
    {ends : Bool} (hcond : c.TypedCond True checked cond)
    (hcheck : (c.scope h).checkCond cond = .ok ()) (hroom : c.peakOfCond cond ≤ room)
    (hyes : Completes c checked room need ends yes) :
    Completes c checked room need false (c.choice cond yes none) := by
  intro s hdepth halive
  rw [choice]
  refine yields_newLabel.andThen ?_
  rintro otherwise t ⟨hst, hfresh, hawaits, ht, htalive⟩
  refine (yields_branchUnless hc hcond hcheck hroom (by rw [ht, hdepth])
    (by rw [htalive, halive]) hawaits).andThen ?_
  rintro - u ⟨htu, hu, hualive, hawaits⟩
  refine (hyes u hu hualive).bind (n := 0) ?_
  rintro - v ⟨huv, hv, -⟩
  refine (yields_place hv (huv.labels.awaits hawaits id id)).weaken ?_
  rintro - w ⟨hvw, hw, -, hplaced⟩
  have hsu := hst.andThen htu (fun k hk => hk ▸ hfresh) (fun _ => False.elim)
    fun _ => False.elim
  have hsw := (hsu.passing huv).andThen hvw (fun _ => False.elim) (fun k hk => hk ▸ hfresh)
    fun _ => False.elim
  exact ⟨hsw.passes fun k hk => hk ▸ hplaced, hw, fun h => by cases h⟩

theorem completes_choiceSome (hc : c.HasValues) {cond : Cond} {yes no : Lower Unit}
    {need need' : Nat} {ends ends' : Bool} (hcond : c.TypedCond True checked cond)
    (hcheck : (c.scope h).checkCond cond = .ok ()) (hroom : c.peakOfCond cond ≤ room)
    (hyes : Completes c checked room need ends yes)
    (hno : Completes c checked room need' ends' no) :
    Completes c checked room (need + need') (ends && ends') (c.choice cond yes (some no)) := by
  intro s hdepth halive
  rw [choice]
  refine yields_newLabel.andThen ?_
  rintro otherwise t ⟨hst, hfresh, hawaits, ht, htalive⟩
  refine (yields_branchUnless hc hcond hcheck hroom (by rw [ht, hdepth])
    (by rw [htalive, halive]) hawaits).andThen ?_
  rintro - u ⟨htu, hu, hualive, hawaits⟩
  refine (hyes u hu hualive).bind ?_
  rintro - v ⟨huv, hv, hvdead⟩
  have hawaits := huv.labels.awaits hawaits id id
  have hlt := hawaits.isOpen.lt
  refine yields_newLabel.andThen ?_
  rintro after w ⟨hvw, hfresh', hafter, hw, hwalive⟩
  have hfreshAfter : s.labels.size ≤ after.id := by omega
  have hawaits := hvw.labels.awaits hawaits (Nat.not_le.2 hlt) (Nat.not_le.2 hlt)
  refine (yields_leaveTo (by rw [hw, hv]) hafter.isOpen).andThen ?_
  rintro - x ⟨hwx, hx, hxdead⟩
  have hawaits := hwx.labels.awaits hawaits (fun hk => by omega) id
  have hafter : Collects x.labels after ends := by
    refine hwx.labels.collects ⟨none, hafter, fun _ => rfl⟩ id (fun hk => ?_) id
    cases ends with
    | false => rfl
    | true => rw [hwalive, hvdead rfl] at hk; cases hk.2
  refine (yields_lastBlock hno hx hawaits hafter (by omega)).weaken ?_
  rintro - y ⟨hxy, hy, hdead, hplaced, hplaced'⟩
  -- Two labels are added, and both have their places in the end.
  have hst : Adds (fun k => k = otherwise.id ∨ k = after.id) s t :=
    hst.mono (fun _ _ => id) (fun _ _ => id) fun _ _ => .inl
  have hsv := (hst.andThen htu (fun k hk => hk ▸ hfresh) (fun _ => False.elim)
    fun _ => False.elim).passing huv
  have hsw := hsv.andThen hvw (fun k hk => by omega) (fun k hk => by omega) fun _ => .inr
  have hsx := hsw.andThen hwx (fun k hk => hk.1 ▸ hfreshAfter) (fun _ => False.elim)
    fun _ => False.elim
  have hsy := hsx.andThen hxy (fun _ => False.elim)
    (by rintro k (rfl | rfl); exacts [hfresh, hfreshAfter]) fun _ => False.elim
  refine ⟨hsy.passes (by rintro k (rfl | rfl); exacts [hplaced, hplaced']), hy, fun he => ?_⟩
  obtain ⟨hyes, hno⟩ := Bool.and_eq_true_iff.1 he
  exact hdead hyes hno

/-! ### Switches -/

variable (c checked room) in
/-- The blocks of cases, with the slots that they take together, and whether they all end. -/
inductive CasesComplete : List (Int32 × Lower Unit) → Nat → Bool → Prop where
  | nil : CasesComplete [] 0 true
  | cons {key : Int32} {block : Lower Unit} {cases : List (Int32 × Lower Unit)}
      {need need' : Nat} {ends ends' : Bool} : Completes c checked room need ends block →
      CasesComplete cases need' ends' →
      CasesComplete ((key, block) :: cases) (need + need') (ends && ends')

/-- The labels of cases are new and differ from each other. -/
theorem yields_caseLabels (cases : List (Int32 × Lower Unit)) :
    Yields 0 (caseLabels cases) s fun labels t =>
      Adds (fun k => ∃ e ∈ labels, k = e.2.id) s t ∧ labels.length = cases.length ∧
        (labels.map (·.2.id)).Nodup ∧
          (∀ e ∈ labels, s.labels.size ≤ e.2.id ∧ Awaits t.labels e.2 none) ∧
            t.depth = s.depth ∧ t.asm.alive = s.asm.alive := by
  induction cases generalizing s with
  | nil => exact Yields.pure ⟨Flows.refl s, rfl, List.nodup_nil, by simp, rfl, rfl⟩
  | cons e cases ih =>
    obtain ⟨key, block⟩ := e
    rw [caseLabels]
    refine yields_newLabel.andThen ?_
    rintro label t ⟨hst, hfresh, hawaits, ht, halive⟩
    refine ih.andThen ?_
    rintro labels u ⟨htu, hlength, hnodup, hlabels, hu, hualive⟩
    have hsize := hst.labels.size
    have hlt := hawaits.isOpen.lt
    refine Yields.pure ⟨?_, congrArg Nat.succ hlength, ?_, ?_, hu.trans ht,
      hualive.trans halive⟩
    · have hst : Adds (fun k => ∃ e ∈ (key, label) :: labels, k = e.2.id) s t :=
        hst.mono (fun _ _ => id) (fun _ _ => id) fun k _ hk => ⟨_, List.mem_cons_self, hk⟩
      exact hst.andThen htu (fun k hk => by omega) (fun k hk => by omega)
        fun k ⟨e, he, hk⟩ => ⟨e, List.mem_cons_of_mem _ he, hk⟩
    · -- Later labels have higher ids, so none of them is the first one.
      refine List.nodup_cons.2 ⟨fun hmem => ?_, hnodup⟩
      obtain ⟨e, he, heq⟩ := List.mem_map.1 hmem
      have := (hlabels e he).1
      simp only at heq
      omega
    · intro e he
      rcases List.mem_cons.1 he with rfl | he
      · exact ⟨hfresh, htu.labels.awaits hawaits (Nat.not_le.2 hlt) (Nat.not_le.2 hlt)⟩
      · exact ⟨Nat.le_trans hsize (hlabels e he).1, (hlabels e he).2⟩

/-- The blocks of cases come behind their labels, and lead to the label at the end. -/
theorem yields_caseBlocks {cases : List (Int32 × Lower Unit)} {need : Nat} {ends : Bool}
    (h : CasesComplete c checked room cases need ends) {labels : List (Int32 × Label)}
    {after : Label} (hlength : labels.length = cases.length)
    (hnodup : (labels.map (·.2.id)).Nodup)
    (hlabels : ∀ e ∈ labels, e.2.id ≠ after.id ∧ Awaits s.labels e.2 (some 0))
    (hafter : IsOpen s.labels after) (hdepth : s.depth = 0) (hdead : s.asm.alive = false) :
    Yields need (caseBlocks after labels cases) s fun _ t =>
      Flows (fun k => k = after.id ∧ ends = false) (fun k => ∃ e ∈ labels, k = e.2.id) nowhere
        s t ∧ t.depth = 0 ∧ t.asm.alive = false ∧ ∀ e ∈ labels, IsPlaced t e.2.id := by
  induction h generalizing labels s with
  | nil =>
    rw [List.length_eq_zero_iff.1 hlength]
    exact Yields.pure ⟨Flows.refl s, hdepth, hdead, by simp⟩
  | @cons key block cases need need' ends ends' hblock _ ih =>
    obtain ⟨⟨key', label⟩, labels, rfl⟩ := List.exists_cons_of_length_eq_add_one hlength
    obtain ⟨⟨hne, hawaits⟩, hlabels⟩ := List.forall_mem_cons.1 hlabels
    obtain ⟨hnotin, hnodup⟩ := List.nodup_cons.1 hnodup
    have hother : ∀ e ∈ labels, e.2.id ≠ label.id := fun e he heq =>
      hnotin (List.mem_map.2 ⟨e, he, heq⟩)
    rw [caseBlocks]
    refine (yields_place hdepth hawaits).andThen ?_
    rintro - t ⟨hst, ht, htalive, hplaced⟩
    refine (hblock t ht (by rw [htalive, Option.isSome_some, Bool.or_true])).bind ?_
    rintro - u ⟨htu, hu, hudead⟩
    have hafter := htu.labels.isOpen (hst.labels.isOpen hafter (Ne.symm hne)) id
    refine (yields_leaveTo hu hafter).andThen ?_
    rintro - v ⟨huv, hv, hvdead⟩
    -- A block is left by a jump to the end only if control can come to its own end.
    have hgoes : u.asm.alive = true → (ends && ends') = false := fun halive => by
      cases ends with
      | false => rfl
      | true => rw [hudead rfl] at halive; cases halive
    have hsv : Flows (fun k => k = after.id ∧ (ends && ends') = false)
        (fun k => k = label.id) nowhere s v :=
      (((hst.mono (fun _ _ => False.elim) (fun _ _ => id) fun _ _ => id).trans
        htu.flows).trans (huv.mono (fun k _ hk => ⟨hk.1, hgoes hk.2⟩)
          (fun _ _ => False.elim) fun _ _ => id))
    refine (ih (Nat.succ.inj hlength) hnodup (fun e he => ⟨(hlabels e he).1,
      hsv.labels.awaits (hlabels e he).2 (fun hk => (hlabels e he).1 hk.1) (hother e he)⟩)
      (huv.labels.isOpen hafter id) hv hvdead).weaken ?_
    rintro - w ⟨hvw, hw, hwdead, hplaced'⟩
    refine ⟨(hsv.mono (fun _ _ => id) (fun k _ hk => ⟨_, List.mem_cons_self, hk⟩)
      fun _ _ => id).trans (hvw.mono (fun k _ hk => ⟨hk.1, by rw [hk.2, Bool.and_false]⟩)
        (fun k _ ⟨e, he, hk⟩ => ⟨e, List.mem_cons_of_mem _ he, hk⟩) fun _ _ => id),
      hw, hwdead, List.forall_mem_cons.2 ⟨?_, hplaced'⟩⟩
    exact hvw.isPlaced (huv.isPlaced (htu.isPlaced hplaced))

/-- The labels of a switch: the one behind it, the one of its default, and those of its cases. -/
def switchLabels (after default : Label) (labels : List (Int32 × Label)) (k : Nat) : Prop :=
  k = after.id ∨ k = default.id ∨ ∃ e ∈ labels, k = e.2.id

/-- With its key on the stack and its labels at hand, a switch leads to the blocks of its cases and
    to the one of its default, and all its labels get their places. -/
theorem yields_switchBlocks {cases : List (Int32 × Lower Unit)} {otherwise : Lower Unit}
    {need need' : Nat} {ends ends' : Bool} (hcases : CasesComplete c checked room cases need ends)
    (hotherwise : Completes c checked room need' ends' otherwise) {after default : Label}
    {labels : List (Int32 × Label)} (hlength : labels.length = cases.length)
    (hnodup : (labels.map (·.2.id)).Nodup) (hne : after.id ≠ default.id)
    (hcase : ∀ k, (∃ e ∈ labels, k = e.2.id) → k ≠ after.id ∧ k ≠ default.id)
    (hafter : Awaits s.labels after none) (hdefault : IsOpen s.labels default)
    (hlabels : ∀ e ∈ labels, IsOpen s.labels e.2) (hdepth : s.depth = 1)
    (halive : s.asm.alive = true) :
    Yields (need + need') (do
        assemble (Assembly.switch default labels)
        caseBlocks after labels cases
        place default
        otherwise
        place after) s fun _ t =>
      Flows (switchLabels after default labels) (switchLabels after default labels) nowhere s t ∧
        t.depth = 0 ∧ ((ends' && ends) = true → t.asm.alive = false) ∧
          ∀ k, switchLabels after default labels k → IsPlaced t k := by
  refine (yields_switch halive hdepth hdefault hlabels).andThen ?_
  rintro - t ⟨hst, ht, htdead, hdefault, hawaits⟩
  have hafter := hst.labels.awaits hafter
    (by rintro (hk | hk); exacts [hne hk, (hcase _ hk).1 rfl]) id
  refine (yields_caseBlocks hcases hlength hnodup
    (fun e he => ⟨(hcase _ ⟨e, he, rfl⟩).1, hawaits e he⟩) hafter.isOpen ht htdead).bind ?_
  rintro - u ⟨htu, hu, hudead, hplaced⟩
  have hafter : Collects u.labels after ends :=
    htu.labels.collects ⟨none, hafter, fun _ => rfl⟩ (fun hk => (hcase _ hk).1 rfl)
      (fun hk => hk.2) id
  have hdefault := htu.labels.awaits hdefault (fun hk => hne hk.1.symm)
    fun hk => (hcase _ hk).2 rfl
  refine (yields_lastBlock hotherwise hu hdefault hafter hne).weaken ?_
  rintro - v ⟨huv, hv, hdead, hplaced', hplaced''⟩
  refine ⟨((hst.mono (fun _ _ => .inr) (fun _ _ => False.elim) fun _ _ => id).trans
    (htu.mono (fun _ _ hk => .inl hk.1) (fun _ _ hk => .inr (.inr hk)) fun _ _ => id)).trans
      (huv.mono (fun _ _ => False.elim) (fun _ _ hk => ?_) fun _ _ => id), hv, fun he => ?_, ?_⟩
  · exact hk.elim (fun hk => .inr (.inl hk)) .inl
  · obtain ⟨hlast, hcases⟩ := Bool.and_eq_true_iff.1 he
    exact hdead hcases hlast
  · rintro k (rfl | rfl | ⟨e, he, rfl⟩)
    · exact hplaced''
    · exact hplaced'
    · exact huv.isPlaced (hplaced e he)

theorem completes_switch (hc : c.HasValues) {key : Expr} {cases : List (Int32 × Lower Unit)}
    {otherwise : Lower Unit} {need need' : Nat} {ends ends' : Bool}
    (hkey : c.Typed True checked key) (hkind : c.kindOf? key = some .int)
    (hcheck : (c.scope h).checkExpr key = .ok ()) (hroom : c.peak key ≤ room)
    (hcases : CasesComplete c checked room cases need ends)
    (hotherwise : Completes c checked room need' ends' otherwise) :
    Completes c checked room (need + need') (ends' && ends) (c.switch key cases otherwise) := by
  intro s hdepth halive
  rw [switch]
  refine (yields_operand hc hkey hcheck hroom hdepth halive).andThen ?_
  rintro - r ⟨hsr, hr⟩
  rw [show (c.typeOf key).slots = 1 from Ty.slots_of_slotKind? hkind] at hr
  refine yields_newLabel.andThen ?_
  rintro after t ⟨hrt, hfresh, hafter, ht, htalive⟩
  have hlt := hafter.isOpen.lt
  refine yields_newLabel.andThen ?_
  rintro default u ⟨htu, hfresh', hdefault, hu, hualive⟩
  have hafter := htu.labels.awaits hafter (Nat.not_le.2 hlt) (Nat.not_le.2 hlt)
  have hlt' := hdefault.isOpen.lt
  refine (yields_caseLabels cases).andThen ?_
  rintro labels v ⟨huv, hlength, hnodup, hlabels, hv, hvalive⟩
  -- All these labels are new, and no two are the same.
  have hrsize := hrt.labels.size
  have htsize := htu.labels.size
  have hcase : ∀ k, (∃ e ∈ labels, k = e.2.id) →
      r.labels.size ≤ k ∧ k ≠ after.id ∧ k ≠ default.id := by
    rintro _ ⟨e, he, rfl⟩
    have := (hlabels e he).1
    omega
  have hafter := huv.labels.awaits hafter (by omega) (by omega)
  have hdefault := huv.labels.awaits hdefault (by omega) (by omega)
  refine (yields_switchBlocks hcases hotherwise hlength hnodup (by omega)
    (fun k hk => (hcase k hk).2) hafter hdefault.isOpen (fun e he => (hlabels e he).2.isOpen)
    (by rw [hv, hu, ht, hr]) (by rw [hvalive, hualive, htalive, hsr.alive, halive])).weaken ?_
  rintro - w ⟨hvw, hw, hdead, hplaced⟩
  -- So those that a switch leaves open are its own, and all have their places in the end.
  have hnew : ∀ k, switchLabels after default labels k → r.labels.size ≤ k := by
    rintro k (rfl | rfl | hk)
    · exact hfresh
    · exact Nat.le_trans hrsize hfresh'
    · exact (hcase k hk).1
  have hrt : Adds (switchLabels after default labels) r t :=
    hrt.mono (fun _ _ => id) (fun _ _ => id) fun _ _ => .inl
  have hru := hrt.andThen htu (fun k hk => by omega) (fun k hk => by omega)
    fun _ hk => .inr (.inl hk)
  have hrv := hru.andThen huv (fun k hk => by omega) (fun k hk => by omega)
    fun _ hk => .inr (.inr hk)
  have hrw := hrv.andThen hvw hnew hnew fun _ => False.elim
  exact ⟨hsr.passes.trans (hrw.passes hplaced), hw, hdead⟩

end CodeContext

end ComponentViews
