import ComponentViews.Proofs.Code.Discipline
import ComponentViews.Proofs.Verification.Code

/-!
# Lowered code is accepted

The verifier accepts the finished code of a sketch (`Sketch.Finished.verify_eq_ok`): its listing
is that of the lines, each of which was drawn as one that the verifier accepts; jumps and
handlers lead to where lines begin, and control does not go on from the last line.
-/

namespace ComponentViews

open Lines (IsStart extent)
open Listing (encodeAll located)

namespace Instruction

/-- The verifier does not look beyond what an instruction touches. -/
theorem le_of_highestSlot? {i : Instruction} {slot : Nat} (h : i.highestSlot? = some slot) :
    ∃ last, i.lastSlot? = some last ∧ slot ≤ last := by
  cases i with
  | wide op n =>
    rw [highestSlot?, Option.some.injEq] at h
    exact ⟨_, rfl, h ▸ Nat.le_add_right _ _⟩
  | _ => exact ⟨slot, h, Nat.le_refl _⟩

end Instruction

namespace CodeAttribute

/-- What an instruction has to be like to be accepted. -/
theorem verifyInstruction_of {p : Pool} {maxLocals pc : Nat} {returnOp : UInt8} {i : Instruction}
    (hreturn : Opcode.isReturn i.opcode = true → i.opcode = returnOp)
    (hconstant : ∀ e, i.constant? = some e → (p.get? e.1).any e.2 = true)
    (hslot : ∀ slot, i.highestSlot? = some slot → slot < maxLocals) :
    verifyInstruction p maxLocals returnOp pc i = .ok () := by
  rw [verifyInstruction, if_neg fun h => h.2 (hreturn h.1)]
  cases hc : i.constant? with
  | none =>
    cases hs : i.highestSlot? with
    | none => rfl
    | some slot =>
      simp only [hslot slot hs, if_true]
      rfl
  | some e =>
    have hany := hconstant e hc
    cases hs : i.highestSlot? with
    | none =>
      simp only [hany, if_true]
      rfl
    | some slot =>
      simp only [hany, hslot slot hs, if_true]
      rfl

end CodeAttribute

/-! ### Lines in the listing -/

namespace Line

variable {place : Label → Nat} {pc : Nat} {l : Line}

/-- The verifier knows the instruction of a line that is not too large. -/
theorem isListed_resolve
    (h : l.blank.isListed = true ∨ ∃ otherwise cases, l.blank = .switch otherwise cases)
    (hsize : l.blank.size pc ≤ Assembly.maxSize) : (l.resolve place pc).isListed = true := by
  cases l with
  | instr i =>
    rcases h with h | ⟨otherwise, cases, hi⟩
    · exact h
    · rw [show i = .switch otherwise cases from hi] at hsize ⊢
      rw [Line.blank, Instruction.size, Assembly.maxSize] at hsize
      exact decide_eq_true (by omega)
  | jump op label =>
    rcases h with h | ⟨otherwise, cases, hi⟩
    · exact h
    · cases hi
  | switch otherwise cases =>
    rw [Line.blank, Instruction.size, List.length_map, Assembly.maxSize] at hsize
    exact decide_eq_true (by rw [List.length_map]; omega)

theorem constant?_resolve : (l.resolve place pc).constant? = l.blank.constant? := by
  cases l <;> rfl

end Line

namespace Lines

theorem mem_resolve {place : Label → Nat} {pc : Nat} {lines : List Line} {i : Instruction}
    (h : i ∈ resolve place pc lines) : ∃ before l after, lines = before ++ l :: after ∧
      i = l.resolve place (pc + (encodeAll pc (before.map Line.blank)).length) := by
  induction lines generalizing pc with
  | nil => exact absurd h List.not_mem_nil
  | cons l lines ih =>
    rcases List.mem_cons.1 h with rfl | h
    · exact ⟨[], l, lines, rfl, rfl⟩
    · obtain ⟨before, k, after, rfl, hi⟩ := ih h
      refine ⟨l :: before, k, after, rfl, ?_⟩
      rw [hi, List.map_cons, encodeAll, List.length_append, Instruction.length_encode,
        Nat.add_assoc]

/-- The listing holds the instruction of each line where the line begins. -/
theorem located_append (pc : Nat) (is js : List Instruction) : located pc (is ++ js) =
    located pc is ++ located (pc + (encodeAll pc is).length) js := by
  induction is generalizing pc with
  | nil => rfl
  | cons i is ih =>
    rw [List.cons_append, located, ih, located, List.cons_append, encodeAll, List.length_append,
      Instruction.length_encode, Nat.add_assoc]

theorem located_resolve (place : Label → Nat) (before : List Line) (l : Line)
    (after : List Line) : located 0 (resolve place 0 (before ++ l :: after)) =
      located 0 (resolve place 0 before) ++ (extent before, l.resolve place (extent before)) ::
        located (extent before + l.blank.size (extent before))
          (resolve place (extent before + l.blank.size (extent before)) after) := by
  have hend : 0 + (encodeAll 0 (before.map Line.blank)).length = extent before := Nat.zero_add _
  have hlength : (encodeAll 0 (resolve place 0 before)).length = extent before :=
    length_encodeAll_resolve place 0 before
  rw [resolve_append, hend, located_append, hlength, Nat.zero_add, resolve, located,
    Line.size_resolve]

theorem mem_located {place : Label → Nat} {lines : List Line} {e : Nat × Instruction}
    (h : e ∈ located 0 (resolve place 0 lines)) : ∃ before l after,
      lines = before ++ l :: after ∧ e = (extent before, l.resolve place (extent before)) := by
  induction lines using List.reverseRecOn with
  | nil => exact absurd h List.not_mem_nil
  | append_singleton lines l ih =>
    rw [located_resolve, List.mem_append, List.mem_cons] at h
    rcases h with h | rfl | h
    · obtain ⟨before, k, after, rfl, he⟩ := ih h
      exact ⟨before, k, after ++ [l], by simp, he⟩
    · exact ⟨lines, l, [], rfl, rfl⟩
    · exact absurd h List.not_mem_nil

/-- Where a line begins there is an instruction in the listing. -/
theorem IsStart.mem_located (place : Label → Nat) {lines : List Line} {pc : Nat}
    (h : IsStart lines pc) : pc ∈ (located 0 (resolve place 0 lines)).map (·.1) := by
  obtain ⟨before, l, after, rfl, rfl⟩ := h
  rw [located_resolve, List.map_append]
  exact List.mem_append_right _ List.mem_cons_self

end Lines

/-! ### Finished code -/

namespace Sketch.Finished

variable {c : CodeContext} {checked : Prop} {room : Nat} {s : Sketch c checked room} {d : Draft}
  {q : Pool}

/-- The listing of finished code is that of its lines. -/
theorem ofCode_eq (h : s.Finished d) (hchecked : checked) :
    Listing.ofCode (CodeContext.codeOf d).code =
      ⟨located 0 (Lines.resolve (Assembly.placeOf s.labels) 0 s.lines), none⟩ := by
  rw [show (CodeContext.codeOf d).code = _ from h.code]
  refine Listing.ofCode_encodeAll fun i hi => ?_
  obtain ⟨before, l, after, hlines, rfl⟩ := Lines.mem_resolve hi
  have hl : l ∈ s.lines := by
    rw [hlines]
    exact List.mem_append_right _ List.mem_cons_self
  rw [Nat.zero_add]
  refine Line.isListed_resolve ((s.drawn.drawn l hl).accepted.listed hchecked) ?_
  have hle : extent before + l.blank.size (extent before) ≤ extent s.lines := by
    rw [← Lines.extent_append_singleton]
    exact Lines.extent_le_of_eq (hlines.trans (List.append_cons before l after))
  have hsmall := h.small
  exact Nat.le_trans (Nat.le_trans (Nat.le_add_left _ _) hle) hsmall

/-- An entry of the exception table keeps to the lines. -/
theorem isFormedEntry (h : s.Finished d) (hext : d.pool.Extends q) {e : ExceptionEntry}
    (he : e ∈ (CodeContext.codeOf d).table) :
    CodeAttribute.IsFormedEntry (CodeContext.codeOf d).code.length q
      ((located 0 (Lines.resolve (Assembly.placeOf s.labels) 0 s.lines)).map (·.1)) e := by
  have he : e ∈ d.asm.table.toList := he
  rw [h.table] at he
  obtain ⟨range, hlt, ⟨hstart, hstop⟩, handler, catchType, hhandler, hclass, rfl⟩ :=
    s.drawn.table e he
  have hsmall := h.small
  rw [Assembly.maxSize] at hsmall
  have hword : ∀ n ≤ extent s.lines, (UInt16.ofNat n).toNat = n := fun n hn =>
    UInt16.toNat_ofNat_of_lt' (show n < 65536 by omega)
  have hstartLt : range.start < extent s.lines := Nat.lt_of_lt_of_le hlt hstop.le
  have hlength : (CodeContext.codeOf d).code.length = extent s.lines := by
    rw [show (CodeContext.codeOf d).code = _ from h.code, Lines.length_encodeAll_resolve]
    rfl
  -- All offsets are within the code, so they are the same as words.
  refine ⟨?_, ?_, fun hne => ?_, ?_, fun hne => ?_⟩
  · rw [hword _ (Nat.le_of_lt hstartLt)]
    exact (hstart.isStart hstartLt).mem_located _
  · rw [UInt16.lt_iff_toNat_lt, hword _ (Nat.le_of_lt hstartLt), hword _ hstop.le]
    exact hlt
  · rw [hword _ hstop.le] at hne ⊢
    rw [hlength] at hne
    exact (hstop.isStart (Nat.lt_of_le_of_ne hstop.le hne)).mem_located _
  · rw [hword _ (Nat.le_of_lt hhandler.1.lt)]
    exact hhandler.1.mem_located _
  · obtain ⟨name, hname⟩ := CodeAttribute.any_isClass_iff.1 (hclass.resolve_left hne)
    exact ⟨name, hext _ _ (h.pool ▸ hname)⟩

/-- Finished code is accepted in a method whose descriptor asks for its returns and that does not
    need too many slots. -/
theorem verify_eq_ok (h : s.Finished d) (hchecked : checked) (hfew : c.slotsNeeded ≤ 65535)
    (hext : d.pool.Extends q)
    {descriptor : String}
    (hreturn : CodeAttribute.returnFor descriptor = Draft.returnOp c.method.result) :
    (CodeContext.codeOf d).verify q descriptor = .ok () := by
  have hmem : ∀ {before after : List Line} {l : Line}, s.lines = before ++ l :: after →
      l ∈ s.lines := fun hlines => hlines ▸ List.mem_append_right _ List.mem_cons_self
  rw [CodeAttribute.verify_eq_ok_iff, h.ofCode_eq hchecked]
  refine ⟨rfl, fun e he => ?_, fun e he target htarget => ?_, ?_, fun e he =>
    h.isFormedEntry hext he⟩
  · -- Each line was drawn as one that is accepted with the pool and the frame of its time.
    obtain ⟨before, l, after, hlines, rfl⟩ := Lines.mem_located he
    have haccepted := (s.drawn.drawn l (hmem hlines)).accepted.mono
      (q := q) (h.pool ▸ hext) (Nat.le_refl _)
    refine CodeAttribute.verifyInstruction_of ?_ ?_ fun slot hslot => ?_
    · rw [Line.opcode_resolve, hreturn]
      exact haccepted.returns
    · rw [Line.constant?_resolve]
      exact haccepted.constant
    · obtain ⟨last, hlast, hle⟩ := Instruction.le_of_highestSlot? hslot
      rw [Line.lastSlot?_resolve] at hlast
      rw [h.toNat_maxLocals hfew]
      exact Nat.lt_of_le_of_lt hle (haccepted.locals last hlast)
  · obtain ⟨before, l, after, hlines, rfl⟩ := Lines.mem_located he
    have hstart : IsStart s.lines (extent before) := ⟨before, l, after, hlines, rfl⟩
    have hsmall := h.small
    have hlt := hstart.lt
    have hplace : ∀ label ∈ l.labels, Assembly.placeOf s.labels label ≤ Assembly.maxSize :=
      fun label hlabel =>
        Nat.le_trans (Nat.le_of_lt (h.isStart_place (hmem hlines) hlabel).1.lt) h.small
    obtain ⟨label, hlabel, rfl⟩ := Assembly.targets_resolve (hlines ▸ h.reaches).reaches hplace
      (by omega) (s.drawn.drawn l (hmem hlines)).leads htarget
    exact ⟨_, (h.isStart_place (hmem hlines) hlabel).1.mem_located _, rfl⟩
  · -- Control has ended, so the last line is one that it does not go on from.
    obtain ⟨l, hlast, hterminal⟩ := s.drawn.ends h.dead
    obtain ⟨before, hlines⟩ := List.getLast?_eq_some_iff.1 hlast
    rw [show s.lines = before ++ [l] from hlines, Lines.located_resolve]
    simp only [Lines.resolve, located, List.getLast?_concat, Option.any_some, Line.opcode_resolve]
    exact hterminal

end Sketch.Finished

end ComponentViews
