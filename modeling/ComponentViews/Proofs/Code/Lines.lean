import ComponentViews.Code.Assembly
import ComponentViews.Proofs.ClassFile.Instruction

/-!
# Lines of code

A code array under construction is a list of *lines*: instructions in which jumps name the
labels that they lead to. Until the code is finished the offsets of jumps are blank, and
fixups tell where they go (`fixupsFrom`). Finishing fills them in line by line: the code that
comes out is that of the instructions in which each label has been replaced by its place
(`resolve`), so that each line still stands where it began (`encodeAll_resolve`).

Lines begin at *starts*. Where code is added, the starts that there were remain
(`IsStart.mono`).
-/

namespace ComponentViews

open Instruction (switchPadding)
open Listing (encodeAll)

/-- A line of code. -/
inductive Line where
  /-- An instruction that does not jump. -/
  | instr (i : Instruction)
  | jump (op : UInt8) (label : Label)
  | switch (otherwise : Label) (cases : List (Int32 × Label))

namespace Line

/-- The labels that a line leads to. -/
def labels : Line → List Label
  | instr _ => []
  | jump _ label => [label]
  | switch otherwise cases => otherwise :: cases.map (·.2)

/-- The instruction with its offsets left blank. -/
def blank : Line → Instruction
  | instr i => i
  | jump op _ => .jump op 0
  | switch _ cases => .switch 0 (cases.map fun e => (e.1, 0))

/-- The instruction of a line at `pc`, where each label has its place. -/
def resolve (place : Label → Nat) (pc : Nat) : Line → Instruction
  | instr i => i
  | jump op label => .jump op (Int16.ofInt ((place label : Int) - pc))
  | switch otherwise cases =>
    .switch (Int32.ofInt ((place otherwise : Int) - pc))
      (cases.map fun e => (e.1, Int32.ofInt ((place e.2 : Int) - pc)))

/-- What is to be filled in for the cases of a switch at `jumpPc`, from `pc` on. -/
def caseFixups (jumpPc pc : Nat) : List (Int32 × Label) → List Fixup
  | [] => []
  | (_, label) :: rest => ⟨jumpPc, pc + 4, true, label⟩ :: caseFixups jumpPc (pc + 8) rest

/-- What is to be filled in for a line at `pc`. -/
def fixups (pc : Nat) : Line → List Fixup
  | instr _ => []
  | jump _ label => [⟨pc, pc + 1, false, label⟩]
  | switch otherwise cases =>
    ⟨pc, pc + 1 + switchPadding pc, true, otherwise⟩ ::
      caseFixups pc (pc + 1 + switchPadding pc + 8) cases

theorem size_resolve (place : Label → Nat) (pc : Nat) (l : Line) :
    (l.resolve place pc).size pc = l.blank.size pc := by
  cases l <;> simp [resolve, blank, Instruction.size]

theorem opcode_resolve (place : Label → Nat) (pc : Nat) (l : Line) :
    (l.resolve place pc).opcode = l.blank.opcode := by
  cases l <;> rfl

end Line

namespace Listing

theorem encodeAll_append (pc : Nat) (is js : List Instruction) :
    encodeAll pc (is ++ js) =
      encodeAll pc is ++ encodeAll (pc + (encodeAll pc is).length) js := by
  induction is generalizing pc with
  | nil => simp [encodeAll]
  | cons i is ih =>
    rw [List.cons_append, encodeAll, ih, encodeAll, List.append_assoc, List.length_append,
      Instruction.length_encode, Nat.add_assoc]

end Listing

namespace Lines

/-- The bytes of lines with their offsets blank. -/
def spell (lines : List Line) : List UInt8 := encodeAll 0 (lines.map Line.blank)

/-- The number of bytes of lines. -/
def extent (lines : List Line) : Nat := (spell lines).length

/-- What is to be filled in for lines of which the first stands at `pc`. -/
def fixupsFrom (pc : Nat) : List Line → List Fixup
  | [] => []
  | l :: rest => l.fixups pc ++ fixupsFrom (pc + l.blank.size pc) rest

/-- The instructions of lines of which the first stands at `pc`. -/
def resolve (place : Label → Nat) (pc : Nat) : List Line → List Instruction
  | [] => []
  | l :: rest => l.resolve place pc :: resolve place (pc + l.blank.size pc) rest

theorem spell_append (lines more : List Line) :
    spell (lines ++ more) = spell lines ++ encodeAll (extent lines) (more.map Line.blank) := by
  rw [spell, List.map_append, Listing.encodeAll_append, Nat.zero_add]
  rfl

theorem extent_append_singleton (lines : List Line) (l : Line) :
    extent (lines ++ [l]) = extent lines + l.blank.size (extent lines) := by
  rw [extent, spell_append, List.length_append]
  simp [encodeAll, Instruction.length_encode, extent]

theorem fixupsFrom_append (pc : Nat) (lines more : List Line) :
    fixupsFrom pc (lines ++ more) =
      fixupsFrom pc lines ++
        fixupsFrom (pc + (encodeAll pc (lines.map Line.blank)).length) more := by
  induction lines generalizing pc with
  | nil => simp [fixupsFrom, encodeAll]
  | cons l lines ih =>
    rw [List.cons_append, fixupsFrom, ih, fixupsFrom, List.append_assoc, List.map_cons, encodeAll,
      List.length_append, Instruction.length_encode, Nat.add_assoc]

theorem size_pos (pc : Nat) (l : Line) : 0 < l.blank.size pc := by
  cases l with
  | instr i => cases i <;> simp only [Line.blank, Instruction.size] <;> omega
  | jump => exact Nat.zero_lt_succ 2
  | switch => simp only [Line.blank, Instruction.size]; omega

/-- A line among lines and one more is that one, or lies among the others. -/
theorem append_singleton_eq {lines before after : List Line} {k l : Line}
    (h : lines ++ [l] = before ++ k :: after) :
    (before = lines ∧ k = l ∧ after = []) ∨
      ∃ after', after = after' ++ [l] ∧ lines = before ++ k :: after' := by
  rcases List.eq_nil_or_concat after with rfl | ⟨after', last, rfl⟩
  · obtain ⟨hlines, hl⟩ := List.append_inj' h rfl
    exact .inl ⟨hlines.symm, (List.cons.inj hl).1.symm, rfl⟩
  · rw [List.concat_eq_append, ← List.cons_append, ← List.append_assoc] at h
    obtain ⟨hlines, hl⟩ := List.append_inj' h rfl
    exact .inr ⟨after', by rw [(List.cons.inj hl).1, List.concat_eq_append], hlines⟩

/-! ### Starts -/

/-- A line begins at `pc`. -/
def IsStart (lines : List Line) (pc : Nat) : Prop :=
  ∃ before l after, lines = before ++ l :: after ∧ extent before = pc

/-- A line begins or ends at `pc`. -/
def IsBound (lines : List Line) (pc : Nat) : Prop := IsStart lines pc ∨ pc = extent lines

theorem isBound_extent (lines : List Line) : IsBound lines (extent lines) := .inr rfl

theorem isStart_extent (lines : List Line) (l : Line) (more : List Line) :
    IsStart (lines ++ l :: more) (extent lines) :=
  ⟨lines, l, more, rfl, rfl⟩

theorem extent_mono {lines more : List Line} : extent lines ≤ extent (lines ++ more) := by
  rw [extent, extent, spell_append, List.length_append]
  exact Nat.le_add_right _ _

theorem IsStart.lt {lines : List Line} {pc : Nat} (h : IsStart lines pc) : pc < extent lines := by
  obtain ⟨before, l, after, rfl, rfl⟩ := h
  have hle : extent (before ++ [l]) ≤ extent ((before ++ [l]) ++ after) := extent_mono
  rw [extent_append_singleton, List.append_assoc, List.singleton_append] at hle
  have := size_pos (extent before) l
  omega

theorem IsBound.le {lines : List Line} {pc : Nat} (h : IsBound lines pc) : pc ≤ extent lines := by
  rcases h with h | rfl
  · exact Nat.le_of_lt h.lt
  · exact Nat.le_refl _

theorem IsBound.isStart {lines : List Line} {pc : Nat} (h : IsBound lines pc)
    (hlt : pc < extent lines) : IsStart lines pc := by
  rcases h with h | rfl
  · exact h
  · exact absurd hlt (Nat.lt_irrefl _)

theorem IsStart.mono {lines more : List Line} {pc : Nat} (h : IsStart lines pc) :
    IsStart (lines ++ more) pc := by
  obtain ⟨before, l, after, rfl, rfl⟩ := h
  exact ⟨before, l, after ++ more, by simp, rfl⟩

theorem IsBound.mono {lines more : List Line} {pc : Nat} (h : IsBound lines pc) :
    IsBound (lines ++ more) pc := by
  rcases h with h | rfl
  · exact .inl h.mono
  · cases more with
    | nil => rw [List.append_nil]; exact isBound_extent lines
    | cons l more => exact .inl (isStart_extent lines l more)

theorem extent_le_of_eq {lines before after : List Line} (h : lines = before ++ after) :
    extent before ≤ extent lines := by
  rw [h]
  exact extent_mono

theorem isBound_append_singleton {lines : List Line} {l : Line} {pc : Nat}
    (h : IsBound (lines ++ [l]) pc) : IsBound lines pc ∨ pc = extent (lines ++ [l]) := by
  refine h.imp_left fun ⟨before, k, after, hlines, hpc⟩ => ?_
  rcases append_singleton_eq hlines with ⟨rfl, rfl, rfl⟩ | ⟨after', rfl, rfl⟩
  · exact .inr hpc.symm
  · exact .inl ⟨before, k, after', rfl, hpc⟩

/-- A line begins at `pc` with nothing but a failure on the stack; `depths` are those of the
    stack at the ends of lines. -/
def IsHandler (lines : List Line) (depths : Nat → Nat) (pc : Nat) : Prop :=
  IsStart lines pc ∧ depths pc = 1

/-- Depths agree on some lines. -/
def Agree (lines : List Line) (depths depths' : Nat → Nat) : Prop :=
  ∀ pc < extent lines, depths' pc = depths pc

theorem IsHandler.mono {lines more : List Line} {depths depths' : Nat → Nat} {pc : Nat}
    (h : IsHandler lines depths pc) (hagree : Agree lines depths depths') :
    IsHandler (lines ++ more) depths' pc :=
  ⟨h.1.mono, (hagree pc h.1.lt).trans h.2⟩

/-! ### Resolved lines -/

theorem resolve_append (place : Label → Nat) (pc : Nat) (lines more : List Line) :
    resolve place pc (lines ++ more) = resolve place pc lines ++
      resolve place (pc + (encodeAll pc (lines.map Line.blank)).length) more := by
  induction lines generalizing pc with
  | nil => simp [resolve, encodeAll]
  | cons l lines ih =>
    rw [List.cons_append, resolve, ih, resolve, List.cons_append, List.map_cons, encodeAll,
      List.length_append, Instruction.length_encode, Nat.add_assoc]

theorem length_encodeAll_resolve (place : Label → Nat) (pc : Nat) (lines : List Line) :
    (encodeAll pc (resolve place pc lines)).length =
      (encodeAll pc (lines.map Line.blank)).length := by
  induction lines generalizing pc with
  | nil => rfl
  | cons l lines ih =>
    rw [resolve, encodeAll, List.length_append, Instruction.length_encode, Line.size_resolve, ih,
      List.map_cons, encodeAll, List.length_append, Instruction.length_encode]

/-- The bytes of a line stand where it begins. -/
theorem encodeAll_resolve (place : Label → Nat) (before : List Line) (l : Line)
    (after : List Line) : ∃ front back, front.length = extent before ∧
      encodeAll 0 (resolve place 0 (before ++ l :: after)) =
        front ++ ((l.resolve place (extent before)).encode (extent before) ++ back) := by
  have hend : 0 + (encodeAll 0 (before.map Line.blank)).length = extent before := Nat.zero_add _
  have hlength : (encodeAll 0 (resolve place 0 before)).length = extent before :=
    length_encodeAll_resolve place 0 before
  rw [resolve_append, hend, resolve, Listing.encodeAll_append, hlength, Nat.zero_add, encodeAll]
  exact ⟨_, _, hlength, rfl⟩

end Lines

end ComponentViews
