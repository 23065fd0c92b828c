import ComponentViews.Proofs.Code.Directives

/-!
# Offsets filled in

Finishing fills in the offsets of a code array, one fixup after another. A fixup has its bytes
overwritten and nothing else (`runs_applyFixup_iff`), so that the pieces of the code are filled in
piece by piece (`code_of_runs_pieces`), and it fails only where its label has not been placed, or
lies out of its reach (`exists_runs_applyFixups_iff`).

`finish_follow` says of all directives what becomes of the code that they leave: when it cannot be
finished, and what it is when it is.
-/

namespace ComponentViews

namespace Piece

/-- A number fits into the bytes of an offset. -/
def Fits (isWide : Bool) (n : Int) : Prop :=
  if isWide then -2147483648 ≤ n ∧ n ≤ 2147483647 else -32768 ≤ n ∧ n ≤ 32767

/-- A label has been placed where an offset of two bytes reaches it; one of four reaches all. -/
def Leads (place? : Label → Option Nat) (jumpPc : Nat) (isWide : Bool) (label : Label) : Prop :=
  ∃ target, place? label = some target ∧ (isWide = true ∨ Fits false ((target : Int) - jumpPc))

/-- How far it is from `pc` to the place of a label. -/
def distance (place? : Label → Option Nat) (pc : Nat) (label : Label) : Int :=
  ((place? label).getD 0 : Int) - pc

end Piece

namespace Laid

/-- The bytes of directives where labels have been placed. -/
def spell (place? : Label → Option Nat) (laid : List Laid) : List UInt8 :=
  laid.flatMap fun e => Piece.spellAll (Piece.distance place? e.pc) e.pieces

/-- Finished code: bytes are as they have been appended, and every offset leads from its directive
    to the place of its label. -/
structure IsFinished (laid : List Laid) (code : List UInt8) : Prop where
  spelled : code = spell (place? laid) laid
  stands : ∀ before e after, laid = before ++ e :: after →
    (spell (place? laid) before).length = e.pc
  leads : ∀ e ∈ laid, ∀ isWide label, .offset isWide label ∈ e.pieces →
    ∃ target, place? laid label = some target ∧ Piece.Fits isWide ((target : Int) - e.pc)

end Laid

namespace Assembly

variable {a b : Assembly}

/-! ### Fixups -/

theorem offsetBytes_eq_ok_iff {isWide : Bool} {n : Int} {bytes : List UInt8} :
    offsetBytes isWide n = .ok bytes ↔
      (isWide = true ∨ Piece.Fits false n) ∧ bytes = Piece.operand isWide n := by
  cases isWide with
  | true => simp [offsetBytes, Piece.operand, eq_comm]
  | false =>
    by_cases hfits : -32768 ≤ n ∧ n ≤ 32767
    · simp [offsetBytes, Piece.operand, Piece.Fits, hfits, eq_comm]
    · simp [offsetBytes, Piece.Fits, hfits]

theorem runs_applyFixup_iff {f : Fixup} : Runs (applyFixup f) a () b ↔
    ∃ target, a.place? f.label = some target ∧
      (f.isWide = true ∨ Piece.Fits false ((target : Int) - f.jumpPc)) ∧
      b = { a with
        code := patch a.code f.operandPc
          (Piece.operand f.isWide ((target : Int) - f.jumpPc)) } := by
  constructor
  · intro h
    obtain ⟨_, _, ⟨⟩, h⟩ := exists_of_runs_bind h
    split at h
    · cases h
    · rename_i target htarget
      obtain ⟨bytes, c, hbytes, h⟩ := exists_of_runs_bind h
      obtain rfl : a = c := congrArg Prod.snd hbytes
      obtain ⟨hfits, rfl⟩ := offsetBytes_eq_ok_iff.1 (congrArg Prod.fst hbytes)
      exact ⟨target, htarget, hfits, (congrArg Prod.snd h).symm⟩
  · rintro ⟨target, htarget, hfits, rfl⟩
    have hplace : placeOf a.labels f.label = target := congrArg (·.getD 0) htarget
    refine runs_applyFixup ⟨target, htarget⟩ ?_
    rw [hplace]
    exact offsetBytes_eq_ok_iff.2 ⟨hfits, rfl⟩

/-- Fixups are applied if and only if each of them leads to where its label has been placed. -/
theorem exists_runs_applyFixups_iff {fs : List Fixup} :
    (∃ b, Runs (fs.forM applyFixup) a () b) ↔
      ∀ f ∈ fs, Piece.Leads a.place? f.jumpPc f.isWide f.label := by
  induction fs generalizing a with
  | nil => exact ⟨fun _ f hf => absurd hf List.not_mem_nil, fun _ => ⟨a, rfl⟩⟩
  | cons f fs ih =>
    rw [List.forall_mem_cons]
    -- The places of labels stay as they are.
    have hstay : ∀ code, ({ a with code } : Assembly).place? = a.place? := fun _ => rfl
    constructor
    · rintro ⟨b, h⟩
      obtain ⟨_, c, hf, hrest⟩ := exists_of_runs_bind h
      obtain ⟨target, htarget, hfits, hc⟩ := runs_applyFixup_iff.1 hf
      have hleads := (ih (a := c)).1 ⟨b, hrest⟩
      rw [hc, hstay] at hleads
      exact ⟨⟨target, htarget, hfits⟩, hleads⟩
    · rintro ⟨⟨target, htarget, hfits⟩, hrest⟩
      have hf := runs_applyFixup_iff.2 ⟨target, htarget, hfits, rfl⟩
      rw [← hstay (patch a.code f.operandPc
        (Piece.operand f.isWide ((target : Int) - f.jumpPc)))] at hrest
      obtain ⟨b, hb⟩ := ih.2 hrest
      exact ⟨b, hf.bind hb⟩

theorem code_of_runs_pieces {pieces : List Piece} {jumpPc : Nat} {pre post : List UInt8}
    (h : Runs ((Piece.fixups jumpPc pre.length pieces).forM applyFixup) a () b)
    (hcode : a.code.toList = pre ++ (Piece.blank pieces ++ post)) :
    b.labels = a.labels ∧
      b.code.toList = pre ++ (Piece.spellAll (Piece.distance a.place? jumpPc) pieces ++ post) := by
  induction pieces generalizing a pre with
  | nil =>
    cases h
    exact ⟨rfl, hcode⟩
  | cons piece pieces ih =>
    cases piece with
    | bytes bs =>
      rw [Piece.fixups, ← List.length_append] at h
      have hnext : a.code.toList = (pre ++ bs) ++ (Piece.blank pieces ++ post) := by
        rw [hcode]
        simp [Piece.blank, Piece.spellAll, Piece.spell]
      obtain ⟨hlabels, hfilled⟩ := ih h hnext
      refine ⟨hlabels, hfilled.trans ?_⟩
      simp [Piece.spellAll, Piece.spell]
    | offset isWide label =>
      rw [Piece.fixups] at h
      obtain ⟨_, c, hfirst, hrest⟩ := exists_of_runs_bind h
      obtain ⟨target, htarget, -, rfl⟩ := runs_applyFixup_iff.1 hfirst
      have hdistance : Piece.distance a.place? jumpPc label = (target : Int) - jumpPc := by
        rw [Piece.distance, htarget, Option.getD_some]
      -- The blank bytes of the offset are overwritten.
      have hblank : a.code.toList =
          pre ++ (Piece.operand isWide 0 ++ (Piece.blank pieces ++ post)) := by
        rw [hcode]
        simp [Piece.blank, Piece.spellAll, Piece.spell]
      have hlength : (Piece.operand isWide 0).length =
          (Piece.operand isWide ((target : Int) - jumpPc)).length := by
        rw [Piece.length_operand, Piece.length_operand]
      have hnext := toList_patch pre hblank hlength
      rw [← List.append_assoc] at hnext
      rw [← Piece.length_operand isWide ((target : Int) - jumpPc), ← List.length_append] at hrest
      obtain ⟨hlabels, hfilled⟩ := ih hrest hnext
      refine ⟨hlabels, hfilled.trans ?_⟩
      rw [Piece.spellAll, Piece.spellAll, List.flatMap_cons, Piece.spell, hdistance,
        List.append_assoc, List.append_assoc]
      rfl

theorem code_of_runs_laid {laid : List Laid} (pre : List UInt8)
    (h : Runs ((Laid.fixups pre.length laid).forM applyFixup) a () b)
    (hcode : a.code.toList = pre ++ Laid.blank laid) :
    b.code.toList = pre ++ Laid.spell a.place? laid := by
  induction laid generalizing a pre with
  | nil =>
    cases h
    exact hcode
  | cons e laid ih =>
    rw [Laid.fixups, List.forM_eq_forM, List.forM_append] at h
    obtain ⟨_, c, hfirst, hrest⟩ := exists_of_runs_bind h
    -- What is filled in here lies before all that is still to be filled in.
    obtain ⟨hlabels, hfilled⟩ := code_of_runs_pieces hfirst hcode
    have hplaces : c.place? = a.place? := by
      funext label
      rw [place?, place?, hlabels]
    rw [← List.append_assoc] at hfilled
    rw [Piece.blank, Piece.length_spellAll _ (Piece.distance a.place? e.pc),
      ← List.length_append] at hrest
    rw [ih _ hrest hfilled, hplaces, List.append_assoc]
    rfl

/-! ### Finishing -/

theorem runs_finish_iff : Runs finish a () b ↔ a.pc ≠ 0 ∧ a.pc ≤ 65535 ∧
    Runs (a.fixups.toList.forM applyFixup) { a with fixups := #[] } () b := by
  constructor
  · intro h
    obtain ⟨_, _, ⟨⟩, h⟩ := exists_of_runs_bind h
    by_cases hempty : a.pc = 0
    · simp only [if_pos hempty] at h
      obtain ⟨_, _, ⟨⟩, _⟩ := exists_of_runs_bind h
    by_cases hlarge : maxSize < a.pc
    · simp only [if_neg hempty, if_pos hlarge] at h
      obtain ⟨_, _, ⟨⟩, _⟩ := exists_of_runs_bind h
    simp only [if_neg hempty, if_neg hlarge] at h
    obtain ⟨_, _, ⟨⟩, h⟩ := exists_of_runs_bind h
    exact ⟨hempty, Nat.not_lt.1 hlarge, h⟩
  · rintro ⟨hempty, hlarge, h⟩
    refine Runs.bind (b := a) (r := a) rfl ?_
    simp only [if_neg hempty, if_neg (Nat.not_lt.2 hlarge : ¬maxSize < a.pc)]
    exact h

/-- A step fails if and only if it does not succeed. -/
theorem exists_fails_iff {step : Assemble Unit} :
    (∃ fault, Fails step a fault) ↔ ¬∃ b, Runs step a () b := by
  constructor
  · rintro ⟨fault, hfails⟩ ⟨b, hruns⟩
    rw [Fails, show step.run.run a = (.ok (), b) from hruns] at hfails
    cases hfails
  · intro h
    cases hrun : step.run.run a with
    | mk result b =>
      cases result with
      | error fault => exact ⟨fault, congrArg Prod.fst hrun⟩
      | ok r => exact absurd ⟨b, hrun⟩ h

end Assembly

namespace Piece

theorem forall_mem_fixups_iff {pieces : List Piece} {jumpPc pc : Nat}
    {P : Nat → Bool → Label → Prop} :
    (∀ f ∈ fixups jumpPc pc pieces, P f.jumpPc f.isWide f.label) ↔
      ∀ isWide label, .offset isWide label ∈ pieces → P jumpPc isWide label := by
  induction pieces generalizing pc with
  | nil => simp [fixups]
  | cons piece pieces ih =>
    cases piece with
    | bytes bs => simp [fixups, ih]
    | offset isWide label =>
      rw [fixups, List.forall_mem_cons, ih]
      constructor
      · rintro ⟨hfirst, hrest⟩ isWide' label' hmem
        rcases List.mem_cons.1 hmem with heq | hmem
        · cases heq
          exact hfirst
        · exact hrest isWide' label' hmem
      · intro h
        exact ⟨h _ _ List.mem_cons_self, fun isWide' label' hmem =>
          h isWide' label' (List.mem_cons_of_mem _ hmem)⟩

end Piece

namespace Laid

theorem forall_mem_fixups_iff {laid : List Laid} {pc : Nat} {P : Nat → Bool → Label → Prop} :
    (∀ f ∈ fixups pc laid, P f.jumpPc f.isWide f.label) ↔
      ∀ e ∈ laid, ∀ isWide label, .offset isWide label ∈ e.pieces → P e.pc isWide label := by
  induction laid generalizing pc with
  | nil => simp [fixups]
  | cons e laid ih =>
    rw [fixups, List.forall_mem_append, ih, Piece.forall_mem_fixups_iff, List.forall_mem_cons]

/-- A label has been placed where a directive began. -/
theorem exists_of_place? {laid : List Laid} {label : Label} {target : Nat}
    (h : place? laid label = some target) : ∃ e ∈ laid, e.pc = target := by
  induction laid with
  | nil => cases h
  | cons e laid ih =>
    rw [place?, Option.or_eq_some_iff] at h
    rcases h with h | ⟨-, h⟩
    · obtain ⟨f, hf, hpc⟩ := ih h
      exact ⟨f, List.mem_cons_of_mem _ hf, hpc⟩
    · refine ⟨e, List.mem_cons_self, ?_⟩
      unfold placed at h
      split at h
      · split at h
        · exact Option.some.inj h
        · cases h
      · cases h

/-- An offset leads nowhere if its label has not been placed, or is out of its reach. -/
theorem not_leads_iff {laid : List Laid} {place? : Label → Option Nat} :
    (¬∀ e ∈ laid, ∀ isWide label, .offset isWide label ∈ e.pieces →
        Piece.Leads place? e.pc isWide label) ↔
      (∃ e ∈ laid, ∃ isWide label, .offset isWide label ∈ e.pieces ∧ place? label = none) ∨
        ∃ e ∈ laid, ∃ label target, .offset false label ∈ e.pieces ∧
          place? label = some target ∧ ¬Piece.Fits false ((target : Int) - e.pc) := by
  constructor
  · intro h
    simp only [not_forall] at h
    obtain ⟨e, he, isWide, label, hmem, hnot⟩ := h
    cases hplace : place? label with
    | none => exact .inl ⟨e, he, isWide, label, hmem, hplace⟩
    | some target =>
      cases isWide with
      | true => exact absurd ⟨target, hplace, .inl rfl⟩ hnot
      | false =>
        exact .inr ⟨e, he, label, target, hmem, hplace,
          fun hfits => hnot ⟨target, hplace, .inr hfits⟩⟩
  · rintro (⟨e, he, isWide, label, hmem, hnone⟩ | ⟨e, he, label, target, hmem, hsome, hnot⟩) h
    · obtain ⟨target, htarget, -⟩ := h e he isWide label hmem
      rw [hnone] at htarget
      cases htarget
    · obtain ⟨target', htarget, hwide | hfits⟩ := h e he false label hmem
      · cases hwide
      · rw [hsome, Option.some.injEq] at htarget
        exact hnot (htarget ▸ hfits)

theorem length_spell (place? : Label → Option Nat) (laid : List Laid) :
    (spell place? laid).length = (blank laid).length := by
  simp only [spell, blank, List.length_flatMap]
  exact congrArg List.sum (List.map_congr_left fun e _ => Piece.length_spellAll _ _ _)

end Laid

/-- A directive begins behind what those before it have appended. -/
theorem Lays.pc_eq {a : Assembly} {ds : List Directive} {laid before after : List Laid} {e : Laid}
    (h : Lays a ds laid) (hlaid : laid = before ++ e :: after) :
    e.pc = a.pc + (Laid.blank before).length := by
  induction h generalizing before with
  | nil => simp at hlaid
  | @cons a d ds pieces whole laid _ _ _ hcode hrest ih =>
    cases before with
    | nil =>
      obtain ⟨rfl, -⟩ := List.cons.inj hlaid
      rfl
    | cons f before =>
      obtain ⟨rfl, htail⟩ := List.cons.inj hlaid
      have hpc : (d.after a).pc = a.pc + (Piece.blank pieces).length := by
        rw [Assembly.pc_eq, hcode, List.length_append, Assembly.pc_eq]
      rw [ih htail, hpc, Laid.blank, Laid.blank, List.flatMap_cons, List.length_append,
        Nat.add_assoc]

theorem Lays.pc_le {a : Assembly} {ds : List Directive} {laid : List Laid} {e : Laid}
    (h : Lays a ds laid) (he : e ∈ laid) : e.pc ≤ a.pc + (Laid.blank laid).length := by
  obtain ⟨before, after, rfl⟩ := List.append_of_mem he
  rw [h.pc_eq rfl, Laid.blank, Laid.blank, List.flatMap_append, List.length_append]
  omega

namespace Assembly

/-- Directives lay their pieces one after another. The code cannot be finished if and only if it
    is empty or too large, a label that is used has not been placed, or an offset of two bytes does
    not reach its label; otherwise it is finished with every offset filled in. -/
theorem finish_follow (maxLocals : Nat) (ds : List Directive) :
    ∃ laid, Lays { maxLocals } ds laid ∧
      (follow { maxLocals } ds).code.toList = Laid.blank laid ∧
      ((∃ fault, Fails finish (follow { maxLocals } ds) fault) ↔
        Laid.blank laid = [] ∨ 65535 < (Laid.blank laid).length ∨
        (∃ e ∈ laid, ∃ isWide label, .offset isWide label ∈ e.pieces ∧
          Laid.place? laid label = none) ∨
        ∃ e ∈ laid, ∃ label target, .offset false label ∈ e.pieces ∧
          Laid.place? laid label = some target ∧ ¬Piece.Fits false ((target : Int) - e.pc)) ∧
      ∀ b, Runs finish (follow { maxLocals } ds) () b → Laid.IsFinished laid b.code.toList := by
  obtain ⟨laid, hlays, hextended⟩ := exists_lays { maxLocals } ds
  have hcode : (follow { maxLocals } ds).code.toList = Laid.blank laid := hextended.code
  have hfixups : (follow { maxLocals } ds).fixups.toList = Laid.fixups 0 laid := hextended.fixups
  have hplaces : (follow { maxLocals } ds).place? = Laid.place? laid := by
    funext label
    exact (hextended.places label).trans (Option.or_none)
  have hpc : (follow { maxLocals } ds).pc = (Laid.blank laid).length := by rw [pc_eq, hcode]
  -- All fixups can be applied exactly where every offset leads somewhere.
  have hleads : (∃ b, Runs ((Laid.fixups 0 laid).forM applyFixup)
      { follow { maxLocals } ds with fixups := #[] } () b) ↔ ∀ e ∈ laid, ∀ isWide label,
        .offset isWide label ∈ e.pieces → Piece.Leads (Laid.place? laid) e.pc isWide label := by
    rw [exists_runs_applyFixups_iff, ← hplaces]
    exact Laid.forall_mem_fixups_iff
  have hfinishes : (∃ b, Runs finish (follow { maxLocals } ds) () b) ↔
      (Laid.blank laid).length ≠ 0 ∧ (Laid.blank laid).length ≤ 65535 ∧
        ∀ e ∈ laid, ∀ isWide label, .offset isWide label ∈ e.pieces →
          Piece.Leads (Laid.place? laid) e.pc isWide label := by
    simp only [runs_finish_iff, hpc, hfixups, exists_and_left, hleads]
  refine ⟨laid, hlays, hcode, ?_, fun b hb => ?_⟩
  · rw [exists_fails_iff, hfinishes, not_and_or, not_and_or, not_not, Nat.not_le,
      Laid.not_leads_iff, List.length_eq_zero_iff]
  · obtain ⟨hempty, hlarge, hruns⟩ := runs_finish_iff.1 hb
    rw [hfixups] at hruns
    rw [hpc] at hlarge
    have hspelled := code_of_runs_laid [] hruns hcode
    refine ⟨?_, ?_, ?_⟩
    · rw [hspelled, ← hplaces]
      rfl
    · intro before e after hlaid
      rw [Laid.length_spell, hlays.pc_eq hlaid]
      exact (Nat.zero_add _).symm
    · intro e he isWide label hmem
      obtain ⟨target, htarget, hfits⟩ := hleads.1 ⟨b, hruns⟩ e he isWide label hmem
      refine ⟨target, htarget, ?_⟩
      cases isWide with
      | false => exact hfits.resolve_left Bool.false_ne_true
      | true =>
        -- Code that is not too large is no larger than what four bytes reach.
        obtain ⟨f, hf, hpc'⟩ := Laid.exists_of_place? htarget
        have htarget' := hlays.pc_le hf
        have hjump := hlays.pc_le he
        have hstart : ({ maxLocals } : Assembly).pc = 0 := rfl
        rw [Piece.Fits, if_pos rfl]
        omega

theorem runs_of_fst {α : Type} {step : Assemble α} {r : α} (h : (step.run.run a).1 = .ok r) :
    Runs step a r (step.run.run a).2 :=
  Prod.ext h rfl

/-- A switch with its keys out of order, a jump ahead and one back. -/
def switching : List Directive :=
  [.newLabel, .newLabel, .instruction (.plain Opcode.iconst0) 1,
    .switch ⟨1⟩ [(7, ⟨0⟩), (-3, ⟨1⟩)], .place ⟨0⟩, .instruction (.plain Opcode.aconstNull) 1,
    .branch Opcode.ifnull ⟨1⟩ (-1), .branch Opcode.goto ⟨0⟩ 0, .place ⟨1⟩,
    .instruction (.plain Opcode.vreturn) 0]

theorem finish_follow_switching :
    ∃ laid, Lays { maxLocals := 1 } switching laid ∧
      Laid.IsFinished laid [3, 171, 0, 0, 0, 0, 0, 34, 0, 0, 0, 2, 255, 255, 255, 253, 0, 0, 0, 34,
        0, 0, 0, 7, 0, 0, 0, 27, 1, 198, 0, 6, 167, 255, 252, 177] := by
  obtain ⟨laid, hlays, -, -, hfinished⟩ := finish_follow 1 switching
  have hsorted : ([(7, ⟨0⟩), (-3, ⟨1⟩)] : List (Int32 × Label)).mergeSort (fun a b => a.1 ≤ b.1) =
      [(-3, ⟨1⟩), (7, ⟨0⟩)] := by simp [List.mergeSort]
  have hrun : (finish.run.run (follow { maxLocals := 1 } switching)).1.isOk = true ∧
      (finish.run.run (follow { maxLocals := 1 } switching)).2.code.toList =
        [3, 171, 0, 0, 0, 0, 0, 34, 0, 0, 0, 2, 255, 255, 255, 253, 0, 0, 0, 34, 0, 0, 0, 7,
          0, 0, 0, 27, 1, 198, 0, 6, 167, 255, 252, 177] := by
    -- A sort does not evaluate, so the keys are put in order first.
    simp only [follow, switching, List.foldl_cons, List.foldl_nil, Directive.after, Directive.run,
      switch, hsorted]
    decide +kernel
  cases hresult : (finish.run.run (follow { maxLocals := 1 } switching)).1 with
  | error fault =>
    rw [hresult] at hrun
    cases hrun.1
  | ok => exact ⟨laid, hlays, hrun.2 ▸ hfinished _ (runs_of_fst hresult)⟩

end Assembly

end ComponentViews
