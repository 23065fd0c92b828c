import Mathlib.Algebra.GroupWithZero.Nat
import ComponentViews.Proofs.Code.Assembly
import ComponentViews.Proofs.Code.Machine

/-!
# Sketches

While a body is turned into code, a *sketch* is a draft together with the lines that its code
consists of, the depth of the stack before each of them, and what the verifier and a machine
will ask of them (`Drawn`): each line is one that the verifier accepts (`Accepts`), and finds on
the stack what it takes (`Line.Moves`); labels stand where lines begin with an empty stack,
handlers where they begin with the failure on it; and where control does not go on, the last
line is one that ends it.

The depth is followed in a 16-bit word while code is written. A sketch knows the true depth,
which some number `room` bounds: the two are equal unless `room` is larger than a word. Slots
are counted in such a word as well, and a sketch knows how many have been given away.
-/

namespace ComponentViews

open Lines (IsStart IsBound IsHandler extent)

/-! ### Labels -/

namespace LabelState

/-- No jump comes to the label, or jumps come to it with an empty stack. -/
def IsLevel (st : LabelState) : Prop := st.depth = none ∨ st.depth = some 0

end LabelState

/-- What becomes of labels: those in `noted` may get jumps and those in `placed` a place, and
    new ones have a place in the end unless they are in `left`. -/
structure LabelsFlow (noted placed left : Nat → Prop) (before after : Array LabelState) :
    Prop where
  size : before.size ≤ after.size
  stays : ∀ k st, before[k]? = some st → ∃ st', after[k]? = some st' ∧
    (¬ noted k → st'.depth = st.depth) ∧ (¬ placed k → st'.pc = st.pc) ∧
      ∀ pc, st.pc = some pc → st'.pc = some pc
  fresh : ∀ k st, before.size ≤ k → after[k]? = some st → st.pc = none → left k

namespace LabelsFlow

variable {noted placed left : Nat → Prop} {a b d : Array LabelState}

theorem refl (a : Array LabelState) : LabelsFlow noted placed left a a where
  size := Nat.le_refl _
  stays := fun _ st hst => ⟨st, hst, fun _ => rfl, fun _ => rfl, fun _ h => h⟩
  fresh := fun k st hk hst _ => by
    have := (Array.getElem?_eq_some_iff.1 hst).1
    omega

theorem trans (hab : LabelsFlow noted placed left a b) (hbd : LabelsFlow noted placed left b d) :
    LabelsFlow noted placed left a d where
  size := Nat.le_trans hab.size hbd.size
  stays := fun k st hst => by
    obtain ⟨st', hst', hn, hp, hpc⟩ := hab.stays k st hst
    obtain ⟨st'', hst'', hn', hp', hpc'⟩ := hbd.stays k st' hst'
    exact ⟨st'', hst'', fun h => (hn' h).trans (hn h), fun h => (hp' h).trans (hp h),
      fun pc h => hpc' pc (hpc pc h)⟩
  fresh := fun k st hk hst hnone => by
    by_cases hlt : k < b.size
    · obtain ⟨st', hst', -, -, hpc⟩ := hbd.stays k b[k] (Array.getElem?_eq_getElem hlt)
      rw [hst, Option.some.injEq] at hst'
      subst hst'
      refine hab.fresh k b[k] hk (Array.getElem?_eq_getElem hlt) ?_
      cases hb : b[k].pc with
      | none => rfl
      | some pc => rw [hpc pc hb] at hnone; cases hnone
    · exact hbd.fresh k st (Nat.not_lt.1 hlt) hst hnone

theorem mono {noted' placed' left' : Nat → Prop} (h : LabelsFlow noted placed left a b)
    (hn : ∀ k, k < a.size → noted k → noted' k) (hp : ∀ k, k < a.size → placed k → placed' k)
    (hl : ∀ k, a.size ≤ k → left k → left' k) : LabelsFlow noted' placed' left' a b where
  size := h.size
  stays := fun k st hst => by
    have hlt := (Array.getElem?_eq_some_iff.1 hst).1
    obtain ⟨st', hst', hn', hp', hpc⟩ := h.stays k st hst
    exact ⟨st', hst', fun hk => hn' fun hk' => hk (hn k hlt hk'),
      fun hk => hp' fun hk' => hk (hp k hlt hk'), hpc⟩
  fresh := fun k st hk hst hnone => hl k hk (h.fresh k st hk hst hnone)

/-- What is left has its place in the end. -/
theorem settle {left' : Nat → Prop} (h : LabelsFlow noted placed left a b)
    (hleft : ∀ k st, a.size ≤ k → left k → b[k]? = some st → st.pc = none → left' k) :
    LabelsFlow noted placed left' a b where
  size := h.size
  stays := h.stays
  fresh := fun k st hk hst hnone => hleft k st hk (h.fresh k st hk hst hnone) hst hnone

theorem push : LabelsFlow noted placed (fun k => k = a.size) a (a.push {}) where
  size := by rw [Array.size_push]; omega
  stays := fun k st hst => by
    have hlt := (Array.getElem?_eq_some_iff.1 hst).1
    exact ⟨st, by rw [Array.getElem?_push_lt hlt, ← hst, Array.getElem?_eq_getElem hlt],
      fun _ => rfl, fun _ => rfl, fun _ h => h⟩
  fresh := fun k st hk hst _ => by
    have hlt := (Array.getElem?_eq_some_iff.1 hst).1
    rw [Array.size_push] at hlt
    omega

end LabelsFlow

theorem Assembly.Noted.flow {labels after : Array LabelState} {noted : Nat → Prop}
    (h : Assembly.Noted labels after noted) :
    LabelsFlow noted (fun _ => False) (fun _ => False) labels after where
  size := Nat.le_of_eq h.size.symm
  stays := fun k st hst => by
    by_cases hk : noted k
    · exact ⟨_, h.jumped k hk st hst, fun hk' => absurd hk hk', fun _ => rfl, fun _ h => h⟩
    · exact ⟨st, by rw [h.others k hk, hst], fun _ => rfl, fun _ => rfl, fun _ h => h⟩
  fresh := fun k st hk hst _ => by
    have := (Array.getElem?_eq_some_iff.1 hst).1
    rw [h.size] at this
    omega

/-- A label is there, and has no place yet. -/
def IsOpen (labels : Array LabelState) (label : Label) : Prop :=
  ∃ st, labels[label.id]? = some st ∧ st.pc = none

/-- A label has no place yet, and jumps have come to it with the given depth, if any. -/
def Awaits (labels : Array LabelState) (label : Label) (depth : Option Nat) : Prop :=
  ∃ st, labels[label.id]? = some st ∧ st.pc = none ∧ st.depth = depth

theorem Awaits.isOpen {labels : Array LabelState} {label : Label} {depth : Option Nat}
    (h : Awaits labels label depth) : IsOpen labels label := by
  obtain ⟨st, hst, hpc, -⟩ := h
  exact ⟨st, hst, hpc⟩

theorem IsOpen.lt {labels : Array LabelState} {label : Label} (h : IsOpen labels label) :
    label.id < labels.size := by
  obtain ⟨st, hst, -⟩ := h
  exact (Array.getElem?_eq_some_iff.1 hst).1

theorem IsOpen.awaits {labels : Array LabelState} {label : Label} (h : IsOpen labels label) :
    ∃ depth, Awaits labels label depth := by
  obtain ⟨st, hst, hpc⟩ := h
  exact ⟨st.depth, st, hst, hpc, rfl⟩

theorem LabelsFlow.awaits {noted placed left : Nat → Prop} {a b : Array LabelState}
    (h : LabelsFlow noted placed left a b) {label : Label} {depth : Option Nat}
    (hawaits : Awaits a label depth) (hnoted : ¬ noted label.id) (hplaced : ¬ placed label.id) :
    Awaits b label depth := by
  obtain ⟨st, hst, hpc, hdepth⟩ := hawaits
  obtain ⟨st', hst', hn, hp, -⟩ := h.stays _ st hst
  exact ⟨st', hst', (hp hplaced).trans hpc, (hn hnoted).trans hdepth⟩

theorem LabelsFlow.isOpen {noted placed left : Nat → Prop} {a b : Array LabelState}
    (h : LabelsFlow noted placed left a b) {label : Label} (hopen : IsOpen a label)
    (hplaced : ¬ placed label.id) : IsOpen b label := by
  obtain ⟨st, hst, hpc⟩ := hopen
  obtain ⟨st', hst', -, hp, -⟩ := h.stays _ st hst
  exact ⟨st', hst', (hp hplaced).trans hpc⟩

/-- No jump has come to a label if all the blocks before it end. -/
def Collects (labels : Array LabelState) (label : Label) (ends : Bool) : Prop :=
  ∃ depth, Awaits labels label depth ∧ (ends = true → depth = none)

theorem Collects.isOpen {labels : Array LabelState} {label : Label} {ends : Bool}
    (h : Collects labels label ends) : IsOpen labels label := by
  obtain ⟨depth, hawaits, -⟩ := h
  exact hawaits.isOpen

theorem LabelsFlow.collects {noted placed left : Nat → Prop} {a b : Array LabelState}
    {label : Label} {ends ends' : Bool} (h : LabelsFlow noted placed left a b)
    (ha : Collects a label ends) (hplaced : ¬ placed label.id)
    (hnoted : noted label.id → ends' = false) (hends : ends' = true → ends = true) :
    Collects b label ends' := by
  by_cases hlabel : noted label.id
  · obtain ⟨depth, hawaits⟩ := (h.isOpen ha.isOpen hplaced).awaits
    exact ⟨depth, hawaits, fun he => by rw [hnoted hlabel] at he; cases he⟩
  · obtain ⟨depth, hawaits, hnone⟩ := ha
    exact ⟨depth, h.awaits hawaits hlabel hplaced, fun he => hnone (hends he)⟩

/-- A label that is jumped to has its depth noted. -/
theorem Assembly.Noted.awaits {labels after : Array LabelState} {noted : Nat → Prop}
    (h : Assembly.Noted labels after noted) {label : Label} (hopen : IsOpen labels label)
    (hnoted : noted label.id) : Awaits after label (some 0) := by
  obtain ⟨st, hst, hpc⟩ := hopen
  exact ⟨_, h.jumped _ hnoted st hst, hpc, rfl⟩

/-! ### Slots -/

/-- What the word holds that counts slots is their number, reduced. -/
theorem slotBehind_mod (count n : Nat) :
    slotBehind (count % 65536) n = (count + n) % 65536 := by
  rw [slotBehind, Nat.mod_add_mod]

theorem slotBehindAll_mod (count : Nat) (width : Ty → Nat) (types : List Ty) :
    slotBehindAll (count % 65536) width types = (count + (types.map width).sum) % 65536 := by
  induction types generalizing count with
  | nil => rfl
  | cons ty rest ih =>
    rw [slotBehindAll, List.foldl_cons, slotBehind_mod, List.map_cons, List.sum_cons,
      ← Nat.add_assoc]
    exact ih (count + width ty)

theorem sum_slots (types : List Ty) : (types.map Ty.slots).sum = slotsOf types := by
  induction types with
  | nil => rfl
  | cons ty rest ih => rw [List.map_cons, List.sum_cons, ih, slotsOf]

namespace CodeContext

/-- The slots of variables of some types. -/
def widths (types : List Ty) : Nat := (types.map width).sum

/-- The slots of the object, the arguments and the variables of the body. -/
def fixedSlots (c : CodeContext) : Nat :=
  c.firstArg + slotsOf c.method.params + widths c.method.variableTypes

theorem firstArg_le (c : CodeContext) : c.firstArg ≤ 1 := by
  rw [firstArg]
  split <;> decide

theorem firstVariable_eq (c : CodeContext) :
    c.firstVariable = (c.firstArg + slotsOf c.method.params) % 65536 := by
  have hfirst : c.firstArg % 65536 = c.firstArg :=
    Nat.mod_eq_of_lt (Nat.lt_of_le_of_lt c.firstArg_le (by decide))
  rw [firstVariable, ← sum_slots, ← slotBehindAll_mod, hfirst]

theorem firstFree_eq (c : CodeContext) : c.firstFree = c.fixedSlots % 65536 := by
  rw [firstFree, firstVariable_eq, slotBehindAll_mod, fixedSlots, widths]

end CodeContext

/-! ### What is asked of lines -/

variable (c : CodeContext) (checked : Prop)

/-- The verifier accepts an instruction apart from where it leads, and a machine knows it. -/
structure Accepts (p : Pool) (slots : Nat) (i : Instruction) : Prop where
  -- A switch of too many cases is too large for a method.
  known : i.isKnown = true ∨ ∃ otherwise cases, i = .switch otherwise cases
  listed : checked → i.isListed = true ∨ ∃ otherwise cases, i = .switch otherwise cases
  constant : ∀ e, i.constant? = some e → (p.get? e.1).any e.2 = true
  locals : ∀ slot, i.lastSlot? = some slot → slot < slots
  returns : Opcode.isReturn i.opcode = true → i.opcode = Draft.returnOp c.method.result

variable {c checked} in
theorem Accepts.mono {p q : Pool} {slots slots' : Nat} {i : Instruction}
    (h : Accepts c checked p slots i) (hpool : p.Extends q) (hslots : slots ≤ slots') :
    Accepts c checked q slots' i where
  known := h.known
  listed := h.listed
  constant := fun e he => by
    have hany := h.constant e he
    cases hget : p.get? e.1 with
    | none => rw [hget] at hany; exact absurd hany (by simp)
    | some found => rw [hpool _ _ hget, ← hget]; exact hany
  locals := fun slot hslot => Nat.lt_of_lt_of_le (h.locals slot hslot) hslots
  returns := h.returns

/-- A line that has been drawn, where so many slots have been given away. -/
structure Line.IsDrawn (slots : Nat) (d : Draft) (l : Line) : Prop where
  accepted : Accepts c checked d.pool slots l.blank
  leads : ∀ i, l = .instr i → ∀ pc, i.targets pc = []
  noted : ∀ label ∈ l.labels, ∃ st, d.asm.labels[label.id]? = some st ∧ st.depth = some 0

/-- A line takes the stack from one depth to the next. Behind a jump the stack is empty. -/
def Line.Moves (p : Pool) (depth next : Nat) (l : Line) : Prop :=
  ∃ takes pushes, l.blank.effect? p = some (takes, pushes) ∧ takes ≤ depth ∧
    (l.labels ≠ [] → depth = takes ∧ pushes = 0) ∧
      (Opcode.isTerminal l.blank.opcode = false → next + takes = depth + pushes)

theorem Line.Moves.mono {p q : Pool} {depth next : Nat} {l : Line} (h : l.Moves p depth next)
    (hpool : p.Extends q) : l.Moves q depth next := by
  obtain ⟨takes, pushes, heffect, hmoves⟩ := h
  exact ⟨takes, pushes, Instruction.effect?_mono hpool heffect, hmoves⟩

/-- A label that is placed where a line begins or will begin: where control comes to it by a
    jump, the stack is empty there, and there is a line to come. -/
structure LabelState.IsDrawn (lines : List Line) (depths : Nat → Nat) (alive : Bool)
    (st : LabelState) : Prop where
  level : st.IsLevel
  bound : ∀ pc, st.pc = some pc → IsBound lines pc
  reached : st.pc = some (extent lines) → st.depth = some 0 → alive = true
  empty : ∀ pc, st.pc = some pc → st.depth = some 0 → depths pc = 0

/-- A range whose ends lie where lines begin or end. -/
def CodeRange.IsDrawn (lines : List Line) (r : CodeRange) : Prop :=
  IsBound lines r.start ∧ IsBound lines r.stop

/-- An entry of the exception table that has been drawn; its offsets may yet turn out to be
    too large. -/
def ExceptionEntry.IsDrawn (lines : List Line) (depths : Nat → Nat) (p : Pool)
    (e : ExceptionEntry) : Prop :=
  ∃ range : CodeRange, range.start < range.stop ∧ range.IsDrawn lines ∧ ∃ handler catchType,
    IsHandler lines depths handler ∧
      (catchType = 0 ∨ (p.get? catchType).any Constant.isClass = true) ∧
        e = ⟨UInt16.ofNat range.start, UInt16.ofNat range.stop, UInt16.ofNat handler, catchType⟩

variable (room : Nat)

/-- A draft whose code consists of some lines, with the depths of the stack at their ends and
    the number of slots that have been given away. -/
structure Drawn (lines : List Line) (depths : Nat → Nat) (slots : Nat) (d : Draft) : Prop where
  code : d.asm.code.toList = Lines.spell lines
  fixups : d.asm.fixups.toList = Lines.fixupsFrom 0 lines
  pool : d.pool.Sound checked
  fixed : c.fixedSlots ≤ slots
  counted : d.nextSlot = slots % 65536
  drawn : ∀ l ∈ lines, l.IsDrawn c checked slots d
  moves : ∀ before l after, lines = before ++ l :: after →
    l.Moves d.pool (depths (extent before)) (depths (extent (before ++ [l])))
  labels : ∀ (k : Nat) (st : LabelState), d.asm.labels[k]? = some st →
    st.IsDrawn lines depths d.asm.alive
  table : ∀ e ∈ d.asm.table.toList, e.IsDrawn lines depths d.pool
  gaps : ∀ gaps ∈ d.gaps, ∀ r ∈ gaps, r.IsDrawn lines
  ends : d.asm.alive = false → ∃ l, lines.getLast? = some l ∧ Opcode.isTerminal l.blank.opcode
  first : depths 0 = 0
  within : depths (extent lines) ≤ room
  wraps : d.asm.depth = depths (extent lines) % 65536
  small : d.asm.maxDepth ≤ 65535
  -- A depth that is too large to be followed does not come down again.
  peak : depths (extent lines) ≤ 65535 → ∀ pc, IsBound lines pc → depths pc ≤ d.asm.maxDepth

variable {c checked room} {lines more : List Line} {depths depths' : Nat → Nat} {slots : Nat}
  {d : Draft}

theorem CodeRange.IsDrawn.mono {r : CodeRange} (h : r.IsDrawn lines) :
    r.IsDrawn (lines ++ more) :=
  ⟨h.1.mono, h.2.mono⟩

theorem ExceptionEntry.IsDrawn.mono {p q : Pool} {e : ExceptionEntry}
    (h : e.IsDrawn lines depths p) (hagree : Lines.Agree lines depths depths')
    (hpool : p.Extends q) : e.IsDrawn (lines ++ more) depths' q := by
  obtain ⟨range, hlt, hrange, handler, catchType, hhandler, hclass, rfl⟩ := h
  refine ⟨range, hlt, hrange.mono, handler, catchType, hhandler.mono hagree, ?_, rfl⟩
  refine hclass.imp_right fun hany => ?_
  cases hget : p.get? catchType with
  | none => rw [hget] at hany; exact absurd hany (by simp)
  | some found => rw [hpool _ _ hget, ← hget]; exact hany

namespace Drawn

theorem pc_eq (h : Drawn c checked room lines depths slots d) : d.asm.pc = extent lines := by
  rw [Assembly.pc_eq, h.code, extent]

theorem canJump (h : Drawn c checked room lines depths slots d) {label : Label}
    (hopen : IsOpen d.asm.labels label) : Assembly.CanJump d.asm.labels label := by
  obtain ⟨st, hst, -⟩ := hopen
  exact ⟨st, hst, (h.labels _ st hst).level⟩

/-- Code of which control does not come to the end has lines. -/
theorem extent_pos (h : Drawn c checked room lines depths slots d) (hdead : d.asm.alive = false) :
    0 < extent lines := by
  obtain ⟨l, hlast, -⟩ := h.ends hdead
  obtain ⟨before, rfl⟩ := List.getLast?_eq_some_iff.1 hlast
  exact Nat.lt_of_le_of_lt (Nat.zero_le _) (Lines.isStart_extent before l []).lt

end Drawn

/-- What a step does to the depth that is followed. -/
structure Assembly.Deepens (a b : Assembly) (depth next : Nat) : Prop where
  wraps : b.depth = next % 65536
  grows : a.maxDepth ≤ b.maxDepth
  covers : b.depth ≤ b.maxDepth
  small : a.maxDepth ≤ 65535 → b.maxDepth ≤ 65535
  followed : next ≤ 65535 → depth ≤ 65535

namespace Drawn

/-- Nothing has been drawn. -/
theorem start {p : Pool} (hp : p.Sound checked) :
    Drawn c checked room [] (fun _ => 0) c.fixedSlots ⟨{}, p, c.firstFree, []⟩ where
  code := rfl
  fixups := rfl
  pool := hp
  fixed := Nat.le_refl _
  counted := c.firstFree_eq
  drawn := fun _ hl => absurd hl List.not_mem_nil
  moves := fun before _ _ hlines => absurd hlines.symm (by simp)
  labels := fun k st hst => absurd hst (by simp)
  table := fun _ he => absurd he List.not_mem_nil
  gaps := fun _ hgaps => absurd hgaps List.not_mem_nil
  ends := fun hdead => Bool.noConfusion hdead
  first := rfl
  within := Nat.zero_le _
  wraps := rfl
  small := Nat.zero_le _
  peak := fun _ _ _ => Nat.zero_le _

section Line

variable {l : Line} {a : Assembly} {next : Nat} (h : Drawn c checked room lines depths slots d)
include h

/-! #### A further line -/

/-- The labels that a further line leads to are noted, and those that were noted stay so. -/
theorem isDrawn_append
    (hnoted : Assembly.Noted d.asm.labels a.labels fun k => ∃ label ∈ l.labels, k = label.id)
    (hopen : ∀ label ∈ l.labels, IsOpen d.asm.labels label)
    (haccepts : Accepts c checked d.pool slots l.blank)
    (hleads : ∀ i, l = .instr i → ∀ pc, i.targets pc = []) :
    ∀ k ∈ lines ++ [l], k.IsDrawn c checked slots { d with asm := a } := by
  intro k hk
  rcases List.mem_append.1 hk with hk | hk
  · refine ⟨(h.drawn k hk).accepted, (h.drawn k hk).leads, fun label hlabel => ?_⟩
    obtain ⟨st, hst, hdepth⟩ := (h.drawn k hk).noted label hlabel
    by_cases hjumped : ∃ label' ∈ l.labels, label.id = label'.id
    · exact ⟨_, hnoted.jumped _ hjumped st hst, rfl⟩
    · exact ⟨st, by rw [hnoted.others _ hjumped, hst], hdepth⟩
  · rw [List.mem_singleton.1 hk]
    refine ⟨haccepts, hleads, fun label hlabel => ?_⟩
    obtain ⟨st, hst, -⟩ := hopen label hlabel
    exact ⟨_, hnoted.jumped _ ⟨label, hlabel, rfl⟩ st hst, rfl⟩

/-- A further line takes the stack on from where the lines before it have left it. -/
theorem moves_append (hkeeps : ∀ pc ≤ extent lines, depths' pc = depths pc)
    (hmoves : l.Moves d.pool (depths (extent lines)) (depths' (extent (lines ++ [l]))))
    {before after : List Line} {k : Line} (hsplit : lines ++ [l] = before ++ k :: after) :
    k.Moves d.pool (depths' (extent before)) (depths' (extent (before ++ [k]))) := by
  rcases Lines.append_singleton_eq hsplit with ⟨rfl, rfl, rfl⟩ | ⟨after', rfl, hlines⟩
  · rw [hkeeps _ (Nat.le_refl _)]
    exact hmoves
  · have hsuffix := Lines.extent_le_of_eq
      (show lines = (before ++ [k]) ++ after' by simpa using hlines)
    have hprefix := Lines.extent_le_of_eq hlines
    rw [hkeeps _ hprefix, hkeeps _ hsuffix]
    exact h.moves before k after' hlines

/-- A label that a further line leads to has no place yet; others stay where they are. -/
theorem label_append (hkeeps : ∀ pc ≤ extent lines, depths' pc = depths pc)
    (hnoted : Assembly.Noted d.asm.labels a.labels fun k => ∃ label ∈ l.labels, k = label.id)
    (hopen : ∀ label ∈ l.labels, IsOpen d.asm.labels label) {k : Nat} {st : LabelState}
    (hst : a.labels[k]? = some st) : st.IsDrawn (lines ++ [l]) depths' a.alive := by
  by_cases hjumped : ∃ label ∈ l.labels, k = label.id
  · obtain ⟨label, hlabel, rfl⟩ := hjumped
    obtain ⟨st', hst', hpc⟩ := hopen label hlabel
    have hnew := hnoted.jumped label.id ⟨label, hlabel, rfl⟩ st' hst'
    rw [hst, Option.some.injEq] at hnew
    subst hnew
    have hunplaced : ∀ pc, st'.pc ≠ some pc := fun pc h => absurd (hpc.symm.trans h) (by simp)
    exact ⟨.inr rfl, fun pc h => absurd h (hunplaced pc), fun h => absurd h (hunplaced _),
      fun pc h => absurd h (hunplaced pc)⟩
  · rw [hnoted.others k hjumped] at hst
    have hdrawn := h.labels k st hst
    have hlt : extent lines < extent (lines ++ [l]) := (Lines.isStart_extent lines l []).lt
    refine ⟨hdrawn.level, fun pc hpc => (hdrawn.bound pc hpc).mono, fun hpc => ?_,
      fun pc hpc hdepth => ?_⟩
    · exact absurd (hdrawn.bound _ hpc).le (by omega)
    · rw [hkeeps pc (hdrawn.bound pc hpc).le]
      exact hdrawn.empty pc hpc hdepth

/-- The deepest that the stack has been is not below where a further line takes it. -/
theorem peak_append (hkeeps : ∀ pc ≤ extent lines, depths' pc = depths pc)
    (hdeepens : Assembly.Deepens d.asm a (depths (extent lines)) (depths' (extent (lines ++ [l]))))
    (hfits : depths' (extent (lines ++ [l])) ≤ 65535) {pc : Nat}
    (hpc : IsBound (lines ++ [l]) pc) : depths' pc ≤ a.maxDepth := by
  have hcovers := hdeepens.covers
  rw [hdeepens.wraps, Nat.mod_eq_of_lt (by omega)] at hcovers
  rcases Lines.isBound_append_singleton hpc with hpc | rfl
  · rw [hkeeps pc hpc.le]
    exact Nat.le_trans (h.peak (hdeepens.followed hfits) pc hpc) hdeepens.grows
  · exact hcovers

/-- A further line is drawn. -/
theorem line
    (hcode : a.code.toList = d.asm.code.toList ++ l.blank.encode d.asm.pc)
    (hfixups : a.fixups.toList = d.asm.fixups.toList ++ l.fixups d.asm.pc)
    (hnoted : Assembly.Noted d.asm.labels a.labels fun k => ∃ label ∈ l.labels, k = label.id)
    (hopen : ∀ label ∈ l.labels, IsOpen d.asm.labels label)
    (htable : a.table = d.asm.table)
    (halive : a.alive = !Opcode.isTerminal l.blank.opcode)
    (haccepts : Accepts c checked d.pool slots l.blank)
    (hleads : ∀ i, l = .instr i → ∀ pc, i.targets pc = [])
    (hmoves : l.Moves d.pool (depths (extent lines)) next) (hnext : next ≤ room)
    (hdeepens : Assembly.Deepens d.asm a (depths (extent lines)) next) :
    Drawn c checked room (lines ++ [l]) (Function.update depths (extent (lines ++ [l])) next)
      slots { d with asm := a } := by
  have hlt : extent lines < extent (lines ++ [l]) := (Lines.isStart_extent lines l []).lt
  have hkeeps : ∀ pc ≤ extent lines,
      Function.update depths (extent (lines ++ [l])) next pc = depths pc := fun pc hpc =>
    Function.update_of_ne (by omega) ..
  -- Up to the line all is as it was; behind it the new depth counts.
  have hcurrent : Function.update depths (extent (lines ++ [l])) next (extent (lines ++ [l])) =
    next := Function.update_self ..
  have hend : 0 + (Listing.encodeAll 0 (lines.map Line.blank)).length = extent lines :=
    Nat.zero_add _
  exact {
    code := by
      rw [hcode, h.code, h.pc_eq, Lines.spell_append]
      simp [Listing.encodeAll]
    fixups := by
      rw [hfixups, h.fixups, h.pc_eq, Lines.fixupsFrom_append, hend]
      simp [Lines.fixupsFrom]
    pool := h.pool
    fixed := h.fixed
    counted := h.counted
    drawn := h.isDrawn_append hnoted hopen haccepts hleads
    moves := fun _ _ _ => h.moves_append hkeeps (by rw [hcurrent]; exact hmoves)
    labels := fun _ _ => h.label_append hkeeps hnoted hopen
    table := fun e he => (h.table e (htable ▸ he)).mono
      (fun pc hpc => hkeeps pc (Nat.le_of_lt hpc)) (Pool.Extends.refl _)
    gaps := fun gaps hgaps r hr => (h.gaps gaps hgaps r hr).mono
    ends := fun hdead => by
      have hdead : a.alive = false := hdead
      rw [halive, Bool.not_eq_false'] at hdead
      exact ⟨l, List.getLast?_concat .., hdead⟩
    first := by rw [hkeeps 0 (Nat.zero_le _), h.first]
    within := by rw [hcurrent]; exact hnext
    wraps := by rw [hcurrent]; exact hdeepens.wraps
    small := hdeepens.small h.small
    peak := fun hfits _ => h.peak_append hkeeps (by rw [hcurrent]; exact hdeepens) hfits }

end Line

/-- Nothing is drawn; other parts of the draft may change. -/
theorem frame (h : Drawn c checked room lines depths slots d) (e : Draft) (hasm : e.asm = d.asm)
    (hpool : e.pool.Sound checked) (hext : d.pool.Extends e.pool)
    {slots' : Nat} (hslots : slots ≤ slots') (hcounted : e.nextSlot = slots' % 65536)
    (hgaps : ∀ gs ∈ e.gaps, ∀ r ∈ gs, r.IsDrawn lines) :
    Drawn c checked room lines depths slots' e where
  code := by rw [hasm, h.code]
  fixups := by rw [hasm, h.fixups]
  pool := hpool
  fixed := Nat.le_trans h.fixed hslots
  counted := hcounted
  drawn := fun l hl => ⟨(h.drawn l hl).accepted.mono hext hslots, (h.drawn l hl).leads,
    by rw [hasm]; exact (h.drawn l hl).noted⟩
  moves := fun before l after hlines => (h.moves before l after hlines).mono hext
  labels := by rw [hasm]; exact h.labels
  table := fun entry he => by
    rw [hasm] at he
    have hentry : entry.IsDrawn (lines ++ []) depths e.pool :=
      (h.table entry he).mono (fun _ _ => rfl) hext
    rwa [List.append_nil] at hentry
  gaps := hgaps
  ends := by rw [hasm]; exact h.ends
  first := h.first
  within := h.within
  wraps := by rw [hasm]; exact h.wraps
  small := by rw [hasm]; exact h.small
  peak := by rw [hasm]; exact h.peak

section Handler

variable (h : Drawn c checked room lines depths slots d) (hdead : d.asm.alive = false)
include h hdead

/-! #### Handlers -/

/-- The last line ends control, so that it does not matter what depth there is behind it. -/
theorem moves_of_dead (hkeeps : ∀ pc ≠ extent lines, depths' pc = depths pc)
    {before after : List Line} {l : Line} (hlines : lines = before ++ l :: after) :
    l.Moves d.pool (depths' (extent before)) (depths' (extent (before ++ [l]))) := by
  have hstart : IsStart lines (extent before) := ⟨before, l, after, hlines, rfl⟩
  obtain ⟨takes, pushes, heffect, htakes, hjumps, hgoes⟩ := h.moves before l after hlines
  rw [hkeeps _ (Nat.ne_of_lt hstart.lt)]
  refine ⟨takes, pushes, heffect, htakes, hjumps, fun hgo => ?_⟩
  rcases after with _ | ⟨next, after⟩
  · obtain ⟨last, hlast, hterminal⟩ := h.ends hdead
    rw [hlines, List.getLast?_concat, Option.some.injEq] at hlast
    rw [hlast, hterminal] at hgo
    cases hgo
  · have hstart : IsStart lines (extent (before ++ [l])) :=
      ⟨before ++ [l], next, after, by simpa using hlines, rfl⟩
    rw [hkeeps _ (Nat.ne_of_lt hstart.lt)]
    exact hgoes hgo

/-- No jump leads to the end of code that control does not go on from. -/
theorem label_of_dead (hkeeps : ∀ pc ≠ extent lines, depths' pc = depths pc) {k : Nat}
    {st : LabelState} (hst : d.asm.labels[k]? = some st) : st.IsDrawn lines depths' true := by
  have hdrawn := h.labels k st hst
  refine ⟨hdrawn.level, hdrawn.bound, fun _ _ => rfl, fun pc hpc hdepth => ?_⟩
  rw [hkeeps pc ?_]
  · exact hdrawn.empty pc hpc hdepth
  · rintro rfl
    exact absurd ((hdrawn.reached hpc hdepth).symm.trans hdead) (by simp)

/-- A handler is entered behind code that control does not go on from. -/
theorem handler (hempty : depths (extent lines) = 0) (hroom : 1 ≤ room) :
    Drawn c checked room lines (Function.update depths (extent lines) 1) slots
      { d with asm := d.asm.atHandler } := by
  -- Only the depth at the end of the lines changes, from which no line is left.
  have hkeeps : ∀ pc ≠ extent lines, Function.update depths (extent lines) 1 pc = depths pc :=
    fun pc hpc => Function.update_of_ne hpc ..
  have hcurrent : Function.update depths (extent lines) 1 (extent lines) = 1 :=
    Function.update_self ..
  have hagree : Lines.Agree lines depths (Function.update depths (extent lines) 1) :=
    fun pc hpc => hkeeps pc (Nat.ne_of_lt hpc)
  exact {
    code := h.code
    fixups := h.fixups
    pool := h.pool
    fixed := h.fixed
    counted := h.counted
    drawn := fun l hl => ⟨(h.drawn l hl).accepted, (h.drawn l hl).leads, (h.drawn l hl).noted⟩
    moves := fun _ _ _ => h.moves_of_dead hdead hkeeps
    labels := fun _ _ => h.label_of_dead hdead hkeeps
    table := fun e he => by
      have hentry : e.IsDrawn (lines ++ []) (Function.update depths (extent lines) 1) d.pool :=
        (h.table e he).mono hagree (Pool.Extends.refl _)
      rwa [List.append_nil] at hentry
    gaps := h.gaps
    ends := fun hdead => absurd hdead (by simp [Assembly.atHandler])
    first := by rw [hkeeps 0 (Nat.ne_of_lt (h.extent_pos hdead)), h.first]
    within := by rw [hcurrent]; exact hroom
    wraps := by rw [hcurrent]; rfl
    small := Nat.max_le.2 ⟨h.small, by omega⟩
    peak := fun _ pc hpc => by
      by_cases hend : pc = extent lines
      · rw [hend, hcurrent]
        exact Nat.le_max_right ..
      · rw [hkeeps pc hend]
        exact Nat.le_trans (h.peak (by omega) pc hpc) (Nat.le_max_left ..) }

end Handler

/-- Entries are added to the exception table. -/
theorem catches (h : Drawn c checked room lines depths slots d) {r : CodeRange} {handler : Nat}
    {catchType : UInt16} (hrange : r.IsDrawn lines)
    (hhandler : IsHandler lines depths handler)
    (hclass : catchType = 0 ∨ (d.pool.get? catchType).any Constant.isClass = true) :
    Drawn c checked room lines depths slots
      { d with asm := Assembly.addCatch r.start r.stop handler catchType d.asm } := by
  -- A range without code is not entered.
  by_cases hlt : r.start < r.stop
  · rw [Assembly.addCatch, if_pos hlt]
    exact {
      code := h.code
      fixups := h.fixups
      pool := h.pool
      fixed := h.fixed
      counted := h.counted
      drawn := fun l hl =>
        ⟨(h.drawn l hl).accepted, (h.drawn l hl).leads, (h.drawn l hl).noted⟩
      moves := h.moves
      labels := h.labels
      table := fun e he => by
        rw [Array.toList_push, List.mem_append, List.mem_singleton] at he
        rcases he with he | rfl
        · exact h.table e he
        · exact ⟨r, hlt, hrange, handler, catchType, hhandler, hclass, rfl⟩
      gaps := h.gaps
      ends := h.ends
      first := h.first
      within := h.within
      wraps := h.wraps
      small := h.small
      peak := h.peak }
  · rw [Assembly.addCatch, if_neg hlt]
    exact h

/-- A label is added. -/
theorem label (h : Drawn c checked room lines depths slots d) :
    Drawn c checked room lines depths slots
      { d with asm := { d.asm with labels := d.asm.labels.push {} } } where
  code := h.code
  fixups := h.fixups
  pool := h.pool
  fixed := h.fixed
  counted := h.counted
  drawn := fun l hl => ⟨(h.drawn l hl).accepted, (h.drawn l hl).leads, fun label hlabel => by
    obtain ⟨st, hst, hdepth⟩ := (h.drawn l hl).noted label hlabel
    have hlt := (Array.getElem?_eq_some_iff.1 hst).1
    refine ⟨st, ?_, hdepth⟩
    rw [Array.getElem?_push_lt hlt, ← hst, Array.getElem?_eq_getElem hlt]⟩
  moves := h.moves
  labels := fun k st hst => by
    rw [Array.getElem?_push] at hst
    -- The new label has no place, and no jump has been noted for it.
    split at hst
    · rw [← Option.some.inj hst]
      exact ⟨.inl rfl, fun _ h => absurd h (by simp), fun h => absurd h (by simp),
        fun _ h => absurd h (by simp)⟩
    · exact h.labels k st hst
  table := h.table
  gaps := h.gaps
  ends := h.ends
  first := h.first
  within := h.within
  wraps := h.wraps
  small := h.small
  peak := h.peak

/-- A label is placed where the stack is empty. -/
theorem place (h : Drawn c checked room lines depths slots d) {label : Label} {st : LabelState}
    (hempty : depths (extent lines) = 0) (hst : d.asm.labels[label.id]? = some st) :
    Drawn c checked room lines depths slots { d with asm := d.asm.behindLabel label st } where
  code := h.code
  fixups := h.fixups
  pool := h.pool
  fixed := h.fixed
  counted := h.counted
  drawn := fun l hl => ⟨(h.drawn l hl).accepted, (h.drawn l hl).leads, fun k hk => by
    obtain ⟨st', hst', hdepth⟩ := (h.drawn l hl).noted k hk
    -- The label itself keeps what was noted for it, and has a place now; the others stay.
    by_cases hsame : label.id = k.id
    · rw [hsame, hst', Option.some.injEq] at hst
      refine ⟨{ st with pc := some d.asm.pc }, ?_, hst ▸ hdepth⟩
      show (d.asm.labels.setIfInBounds label.id _)[k.id]? = _
      rw [hsame, Array.getElem?_setIfInBounds_self_of_lt (Array.getElem?_eq_some_iff.1 hst').1]
    · refine ⟨st', ?_, hdepth⟩
      show (d.asm.labels.setIfInBounds label.id _)[k.id]? = _
      rw [Array.getElem?_setIfInBounds_ne hsame, hst']⟩
  moves := h.moves
  labels := fun k st' hst' => by
    have hst' : (d.asm.labels.setIfInBounds label.id { st with pc := some d.asm.pc })[k]? =
      some st' := hst'
    by_cases hsame : label.id = k
    · subst hsame
      rw [Array.getElem?_setIfInBounds_self_of_lt (Array.getElem?_eq_some_iff.1 hst).1,
        Option.some.injEq] at hst'
      subst hst'
      refine ⟨(h.labels _ st hst).level, fun pc hpc => ?_, fun _ hdepth => ?_, fun pc hpc _ => ?_⟩
      · rw [← Option.some.inj hpc, h.pc_eq]
        exact Lines.isBound_extent lines
      · -- If a jump was noted for the label, control comes to it, so it is alive from here on.
        show (d.asm.alive || st.depth.isSome) = true
        rw [show st.depth = some 0 from hdepth, Option.isSome_some, Bool.or_true]
      · rw [← Option.some.inj hpc, h.pc_eq, hempty]
    · rw [Array.getElem?_setIfInBounds_ne hsame] at hst'
      have hdrawn := h.labels k st' hst'
      refine ⟨hdrawn.level, hdrawn.bound, fun hpc hdepth => ?_, hdrawn.empty⟩
      show (d.asm.alive || st.depth.isSome) = true
      rw [hdrawn.reached hpc hdepth, Bool.true_or]
  table := h.table
  gaps := h.gaps
  ends := fun hdead => h.ends (Bool.or_eq_false_iff.1 hdead).1
  first := h.first
  within := h.within
  wraps := h.wraps
  small := h.small
  peak := h.peak

end Drawn

end ComponentViews
