import ComponentViews.Proofs.Code.Finish

/-!
# Steps of assembling

What each step that adds to a code array leaves, where the stack does not run empty and every
label that is jumped to is reached with an empty stack. Jumps *note* the labels that they lead
to (`Noted`); nothing else about a label changes until it is placed.
-/

namespace ComponentViews

open Instruction (switchPadding)

namespace Opcode

/-- Of the jumps only `goto` ends a line of control. -/
theorem isTerminal_of_isJump {op : UInt8} (h : isJump op = true) :
    isTerminal op = (op == goto) := by
  simp only [isJump, Bool.or_eq_true, beq_iff_eq] at h
  rcases h with (((((rfl | rfl) | rfl) | rfl) | rfl) | rfl) | rfl <;> rfl

end Opcode

namespace Assembly

@[simp] theorem toList_appendBytes (a : Assembly) (bytes : List UInt8) :
    (a.appendBytes bytes).code.toList = a.code.toList ++ bytes := by
  show (bytes.foldl Array.push a.code).toList = _
  induction bytes generalizing a with
  | nil => simp
  | cons b bytes ih =>
    rw [List.foldl_cons]
    have h := ih { a with code := a.code.push b }
    rw [h]
    simp

theorem pc_eq (a : Assembly) : a.pc = a.code.toList.length := by
  rw [pc, Array.length_toList]

theorem pc_appendBytes (a : Assembly) (bytes : List UInt8) :
    (a.appendBytes bytes).pc = a.pc + bytes.length := by
  rw [pc_eq, toList_appendBytes, List.length_append, pc_eq]

@[simp] theorem appendBytes_appendBytes (a : Assembly) (bytes more : List UInt8) :
    (a.appendBytes bytes).appendBytes more = a.appendBytes (bytes ++ more) := by
  simp [appendBytes, List.foldl_append]

/-! ### Instructions -/

/-- The assembly with the stack at another depth. -/
def atDepth (a : Assembly) (depth : Nat) : Assembly :=
  { a with depth, maxDepth := max a.maxDepth depth }

theorem runs_adjust {a : Assembly} {delta : Int} {n : Nat}
    (hdepth : (a.depth : Int) + delta = n) : Runs (adjust delta) a () (a.atDepth (n % 65536)) := by
  refine Runs.bind (b := a) (r := a) rfl ?_
  simp only [hdepth, Int.not_ofNat_neg, if_false]
  rfl

theorem fails_adjust {a : Assembly} {delta : Int} (hdown : (a.depth : Int) + delta < 0) :
    Fails (adjust delta) a (.stackUnderflow a.depth delta) := by
  refine Runs.bind_fails (b := a) (r := a) rfl ?_
  simp only [if_pos hdown]
  rfl

/-- The assembly behind an instruction. -/
def behind (a : Assembly) (i : Instruction) (depth : Nat) : Assembly :=
  if Opcode.isTerminal i.opcode then
    { (a.appendBytes (i.encode a.pc)).atDepth depth with alive := false, depth := 0 }
  else (a.appendBytes (i.encode a.pc)).atDepth depth

/-- Where the stack is as deep as it has been followed, up to multiples of 65536, an instruction
    that takes no more than there is succeeds, or the depth has been too large to be followed. -/
theorem emits {a : Assembly} {i : Instruction} {delta : Int} {depth next : Nat}
    (hlevel : a.depth = depth % 65536) (hnext : (depth : Int) + delta = next) :
    (Runs (emit i delta) a () (a.behind i (next % 65536)) ∧ (next ≤ 65535 → depth ≤ 65535)) ∨
      Fails (emit i delta) a (.stackUnderflow a.depth delta) ∧ 65535 < depth := by
  by_cases hdown : (a.depth : Int) + delta < 0
  · refine .inr ⟨Runs.bind_fails (b := a.appendBytes (i.encode a.pc)) (r := ()) rfl ?_, by omega⟩
    exact Fails.bind (fails_adjust (a := a.appendBytes (i.encode a.pc)) hdown)
  · obtain ⟨n, hn⟩ := Int.eq_ofNat_of_zero_le (Int.not_lt.1 hdown)
    have hmod : next % 65536 = n % 65536 := by omega
    refine .inl ⟨?_, by omega⟩
    rw [hmod]
    refine Runs.bind (b := a.appendBytes (i.encode a.pc)) (r := ()) rfl ?_
    refine (runs_adjust (a := a.appendBytes (i.encode a.pc)) hn).bind ?_
    rw [behind]
    split <;> rfl

/-! ### Labels -/

/-- Jumps have come to some labels, all with an empty stack. -/
structure Noted (labels noted : Array LabelState) (jumped : Nat → Prop) : Prop where
  size : noted.size = labels.size
  others : ∀ k, ¬ jumped k → noted[k]? = labels[k]?
  jumped : ∀ k, jumped k → ∀ st, labels[k]? = some st →
    noted[k]? = some { st with depth := some 0 }

/-- A label is there, and jumps have come to it with an empty stack, if at all. -/
def CanJump (labels : Array LabelState) (label : Label) : Prop :=
  ∃ st, labels[label.id]? = some st ∧ (st.depth = none ∨ st.depth = some 0)

theorem Noted.refl (labels : Array LabelState) : Noted labels labels fun _ => False :=
  ⟨rfl, fun _ _ => rfl, fun _ h => h.elim⟩

theorem Noted.trans {labels noted again : Array LabelState} {T U : Nat → Prop}
    (h : Noted labels noted T) (h' : Noted noted again U) :
    Noted labels again fun k => T k ∨ U k where
  size := h'.size.trans h.size
  others := fun k hk => by
    rw [not_or] at hk
    rw [h'.others k hk.2, h.others k hk.1]
  jumped := fun k hk st hst => by
    by_cases hU : U k
    · by_cases hT : T k
      · exact h'.jumped k hU { st with depth := some 0 } (h.jumped k hT st hst)
      · rw [← h.others k hT] at hst
        exact h'.jumped k hU st hst
    · rw [h'.others k hU]
      exact h.jumped k (hk.resolve_right hU) st hst

theorem Noted.congr {labels noted : Array LabelState} {T U : Nat → Prop}
    (h : Noted labels noted T) (hTU : ∀ k, T k ↔ U k) : Noted labels noted U where
  size := h.size
  others := fun k hk => h.others k fun hT => hk ((hTU k).1 hT)
  jumped := fun k hk => h.jumped k ((hTU k).2 hk)

theorem Noted.canJump {labels noted : Array LabelState} {T : Nat → Prop}
    (h : Noted labels noted T) {label : Label} (hlabel : CanJump labels label) :
    CanJump noted label := by
  obtain ⟨st, hst, hdepth⟩ := hlabel
  by_cases hT : T label.id
  · exact ⟨_, h.jumped _ hT st hst, .inr rfl⟩
  · exact ⟨st, by rw [h.others _ hT, hst], hdepth⟩

/-- A jump to a label notes it. -/
theorem runs_noteDepth {a : Assembly} {l : Label} (hdepth : a.depth = 0)
    (hlabel : CanJump a.labels l) :
    ∃ labels, Runs (noteDepth l) a () { a with labels } ∧
      Noted a.labels labels fun k => k = l.id := by
  obtain ⟨st, hst, hnone | hsome⟩ := hlabel
  · refine ⟨a.labels.setIfInBounds l.id { st with depth := some 0 }, ?_, ?_⟩
    · refine Runs.bind (b := a) (r := a) rfl ?_
      simp only [hst, hnone]
      rw [show some a.depth = some 0 from congrArg some hdepth]
      rfl
    · constructor
      · exact Array.size_setIfInBounds ..
      · intro k hk
        exact Array.getElem?_setIfInBounds_ne (Ne.symm hk)
      · rintro k rfl st' hst'
        have hlt := (Array.getElem?_eq_some_iff.1 hst).1
        rw [hst, Option.some.injEq] at hst'
        rw [← hst', Array.getElem?_setIfInBounds_self_of_lt hlt]
  · refine ⟨a.labels, ?_, rfl, fun _ _ => rfl, ?_⟩
    · refine Runs.bind (b := a) (r := a) rfl ?_
      simp only [hst, hsome]
      rw [if_neg (Classical.not_not.2 hdepth.symm)]
      rfl
    · rintro k rfl st' hst'
      rw [hst, Option.some.injEq] at hst'
      rw [hst, ← hst', ← hsome]

/-- The assembly behind a line that jumps, with what it notes. -/
def behindLine (a : Assembly) (l : Line) (labels : Array LabelState) : Assembly :=
  { (a.appendBytes (l.blank.encode a.pc)).atDepth 0 with
    labels
    fixups := a.fixups ++ (l.fixups a.pc).toArray
    alive := a.alive && !Opcode.isTerminal l.blank.opcode }

theorem runs_branch {a : Assembly} {op : UInt8} {label : Label} {delta : Int}
    (hop : Opcode.isJump op = true) (hdepth : (a.depth : Int) + delta = 0)
    (hlabel : CanJump a.labels label) :
    ∃ labels, Runs (branch op label delta) a () (a.behindLine (.jump op label) labels) ∧
      Noted a.labels labels fun k => k = label.id := by
  obtain ⟨labels, hnote, hnoted⟩ := runs_noteDepth
    (a := (a.appendBytes [op]).atDepth 0) (l := label) rfl hlabel
  refine ⟨labels, ?_, hnoted⟩
  have hpc : (a.appendBytes [op]).pc = a.pc + 1 := pc_appendBytes a [op]
  have hterminal : Opcode.isTerminal op = (op == Opcode.goto) := Opcode.isTerminal_of_isJump hop
  refine Runs.bind (b := a) (r := a) rfl ?_
  refine Runs.bind (b := a.appendBytes [op]) (r := ()) rfl ?_
  refine (runs_adjust (a := a.appendBytes [op]) (n := 0) hdepth).bind ?_
  refine hnote.bind ?_
  refine Runs.bind (b := { (a.appendBytes [op]).atDepth 0 with
    labels, fixups := a.fixups.push ⟨a.pc, a.pc + 1, false, label⟩ }) (r := ()) ?_ ?_
  · rw [← hpc]
    rfl
  refine Runs.bind (b := { (a.appendBytes [op, 0, 0]).atDepth 0 with
    labels, fixups := a.fixups.push ⟨a.pc, a.pc + 1, false, label⟩ }) (r := ()) rfl ?_
  rw [behindLine, show (Line.jump op label).blank.opcode = op from rfl, hterminal]
  cases op == Opcode.goto with
  | true => rw [Bool.not_true, Bool.and_false]; rfl
  | false => rw [Bool.not_false, Bool.and_true]; rfl

/-! ### Switches -/

/-- The assembly behind the cases of a switch at `jumpPc`. -/
def behindCases (a : Assembly) (jumpPc : Nat) (cases : List (Int32 × Label))
    (labels : Array LabelState) : Assembly :=
  { a.appendBytes (cases.flatMap fun e => Word.bytes32 e.1.toUInt32 ++ Word.bytes32 0) with
    labels
    fixups := a.fixups ++ (Line.caseFixups jumpPc a.pc cases).toArray }

theorem runs_switchCases (jumpPc : Nat) {cases : List (Int32 × Label)} {a : Assembly}
    (hdepth : a.depth = 0) (hlabels : ∀ e ∈ cases, CanJump a.labels e.2) :
    ∃ labels, Runs (switchCases jumpPc cases) a () (a.behindCases jumpPc cases labels) ∧
      Noted a.labels labels fun k => ∃ e ∈ cases, k = e.2.id := by
  induction cases generalizing a with
  | nil =>
    refine ⟨a.labels, ?_, rfl, fun _ _ => rfl, fun k ⟨e, he, _⟩ => absurd he List.not_mem_nil⟩
    show (Except.ok (), a) = _
    simp [behindCases, Line.caseFixups, appendBytes]
  | cons e cases ih =>
    obtain ⟨noted, hnote, hnoted⟩ := runs_noteDepth
      (a := a.appendBytes (Word.bytes32 e.1.toUInt32)) hdepth (hlabels e List.mem_cons_self)
    -- The assembly behind the first case.
    let b : Assembly := { a.appendBytes (Word.bytes32 e.1.toUInt32 ++ Word.bytes32 0) with
      labels := noted
      fixups := a.fixups.push ⟨jumpPc, a.pc + 4, true, e.2⟩ }
    obtain ⟨labels, hruns, hrest⟩ := ih (a := b) hdepth
      fun f hf => hnoted.canJump (hlabels f (List.mem_cons_of_mem _ hf))
    refine ⟨labels, ?_, ?_⟩
    · refine Runs.bind (b := a.appendBytes (Word.bytes32 e.1.toUInt32)) (r := ()) rfl ?_
      refine hnote.bind ?_
      refine Runs.bind (b := { a.appendBytes (Word.bytes32 e.1.toUInt32) with
        labels := noted
        fixups := a.fixups.push ⟨jumpPc, a.pc + 4, true, e.2⟩ }) (r := ()) ?_ ?_
      · rw [← show _ = a.pc + 4 from pc_appendBytes a (Word.bytes32 e.1.toUInt32)]
        rfl
      refine Runs.bind (b := b) (r := ()) ?_ ?_
      · simp only [b]
        rw [← appendBytes_appendBytes]
        rfl
      · have hpc : b.pc = a.pc + 8 := pc_appendBytes ..
        have hfixups : a.fixups ++ (Line.caseFixups jumpPc a.pc (e :: cases)).toArray =
            b.fixups ++ (Line.caseFixups jumpPc b.pc cases).toArray := by
          rw [hpc, Line.caseFixups]
          simp [b]
        have hcases : a.behindCases jumpPc (e :: cases) labels =
            b.behindCases jumpPc cases labels := by
          rw [behindCases, behindCases, hfixups, List.flatMap_cons, ← appendBytes_appendBytes]
          rfl
        rw [hcases]
        exact hruns
    · refine (hnoted.trans hrest).congr fun k => ?_
      simp

/-- The order of the cases of a switch. -/
def sortedCases (cases : List (Int32 × Label)) : List (Int32 × Label) :=
  cases.mergeSort fun a b => a.1 ≤ b.1

theorem runs_switch {a : Assembly} {otherwise : Label} {cases : List (Int32 × Label)}
    (hdepth : a.depth = 1) (hotherwise : CanJump a.labels otherwise)
    (hcases : ∀ e ∈ cases, CanJump a.labels e.2) :
    ∃ labels, Runs (switch otherwise cases) a ()
        (a.behindLine (.switch otherwise (sortedCases cases)) labels) ∧
      Noted a.labels labels fun k => k = otherwise.id ∨ ∃ e ∈ cases, k = e.2.id := by
  have hmem : ∀ e, e ∈ sortedCases cases ↔ e ∈ cases := fun e => List.mem_mergeSort
  have hlength : (sortedCases cases).length = cases.length := List.length_mergeSort ..
  -- The assembly behind the opcode and its padding, with the key taken off the stack.
  let b : Assembly := (a.appendBytes (Opcode.lookupswitch ::
    List.replicate (switchPadding a.pc) 0)).atDepth 0
  have hpc : b.pc = a.pc + 1 + switchPadding a.pc := by
    have h := pc_appendBytes a (Opcode.lookupswitch :: List.replicate (switchPadding a.pc) 0)
    rw [List.length_cons, List.length_replicate] at h
    exact h.trans (by omega)
  obtain ⟨noted, hnote, hnoted⟩ := runs_noteDepth (a := b) rfl hotherwise
  let count := Word.bytes32 0 ++ Word.bytes32 (UInt32.ofNat cases.length)
  let d : Assembly := { b.appendBytes count with
    labels := noted
    fixups := a.fixups.push ⟨a.pc, b.pc, true, otherwise⟩ }
  have hpcd : d.pc = a.pc + 1 + switchPadding a.pc + 8 := by
    rw [← hpc]
    exact pc_appendBytes b count
  obtain ⟨labels, hruns, hrest⟩ := runs_switchCases (a := d) a.pc
    (show d.depth = 0 from rfl) fun e he => hnoted.canJump (hcases e ((hmem e).1 he))
  refine ⟨labels, ?_, (hnoted.trans hrest).congr fun k => by simp only [hmem]⟩
  refine Runs.bind (b := a) (r := a) rfl ?_
  refine Runs.bind (b := a.appendBytes (Opcode.lookupswitch ::
    List.replicate (switchPadding a.pc) 0)) (r := ()) rfl ?_
  refine (runs_adjust (a := a.appendBytes _) (n := 0) ?_).bind ?_
  · show (a.depth : Int) + -1 = 0
    rw [hdepth]
    rfl
  refine hnote.bind ?_
  refine Runs.bind (b := { b with
    labels := noted
    fixups := a.fixups.push ⟨a.pc, b.pc, true, otherwise⟩ }) (r := ()) rfl ?_
  refine Runs.bind (b := d) (r := ()) rfl ?_
  refine hruns.bind ?_
  have hbytes : (Line.switch otherwise (sortedCases cases)).blank.encode a.pc =
      (Opcode.lookupswitch :: List.replicate (switchPadding a.pc) 0) ++ (count ++
        (sortedCases cases).flatMap fun e => Word.bytes32 e.1.toUInt32 ++ Word.bytes32 0) := by
    simp only [Line.blank, Instruction.encode, List.length_map, List.flatMap_map, hlength, count,
      List.append_assoc]
    rfl
  have hfixups : a.fixups ++ ((Line.switch otherwise (sortedCases cases)).fixups a.pc).toArray =
      d.fixups ++ (Line.caseFixups a.pc d.pc (sortedCases cases)).toArray := by
    rw [hpcd, Line.fixups, ← hpc]
    simp [d]
  rw [behindLine, hbytes, ← appendBytes_appendBytes, ← appendBytes_appendBytes, hfixups,
    show Opcode.isTerminal (Line.switch otherwise (sortedCases cases)).blank.opcode = true from rfl,
    Bool.not_true, Bool.and_false]
  rfl

/-! ### Places and handlers -/

/-- The assembly behind a label that is placed, with the stack empty. -/
def behindLabel (a : Assembly) (label : Label) (st : LabelState) : Assembly :=
  { a with
    labels := a.labels.setIfInBounds label.id { st with pc := some a.pc }
    alive := a.alive || st.depth.isSome }

theorem runs_place {a : Assembly} {label : Label} {st : LabelState} (hdepth : a.depth = 0)
    (hst : a.labels[label.id]? = some st) (hnoted : st.depth = none ∨ st.depth = some 0) :
    Runs (place label) a () (a.behindLabel label st) := by
  obtain ⟨pc, depth⟩ := st
  have hnoted : depth = none ∨ depth = some 0 := hnoted
  refine Runs.bind (b := a) (r := a) rfl ?_
  simp only [hst]
  rcases hnoted with rfl | rfl
  · rw [behindLabel, Option.isSome_none, Bool.or_false]
    rfl
  · have hstays : (if a.alive = true then a.depth else 0) = a.depth := by rw [hdepth, ite_self]
    rw [behindLabel, Option.isSome_some, Bool.or_true]
    refine Eq.trans (b := (.ok (), _)) rfl (congrArg (Prod.mk _) ?_)
    simp only [hstays]

/-- The assembly at the start of a handler, with the failure on the stack. -/
def atHandler (a : Assembly) : Assembly :=
  { a with alive := true, depth := 1, maxDepth := max a.maxDepth 1 }

theorem runs_enterHandler (a : Assembly) : Runs (enterHandler 1) a () a.atHandler :=
  Runs.bind (b := { a with alive := true, depth := 0 }) (r := ()) rfl
    (runs_adjust (a := { a with alive := true, depth := 0 }) (n := 1) rfl)

end Assembly

end ComponentViews
