import ComponentViews.Code.Range

/-!
# Ranges without their gaps

What is left of a range is found by a cursor that goes from gap to gap, in the order in which
they start. The cursor has passed everything before the end of a gap that it has seen, and no
offset before the start of the next gap lies in one that is still to come. So the parts cut off
on the way are the offsets from the cursor on that lie in no gap
(`CodeRange.exists_contains_between`), and each of them ends before the next begins
(`CodeRange.pairwise_between`).
-/

namespace ComponentViews

namespace CodeRange

theorem contains_iff {r : CodeRange} {pc : Nat} :
    r.contains pc = true ↔ r.start ≤ pc ∧ pc < r.stop := by
  simp [contains]

/-- The parts of a range that lie in no gap: none is empty, each ends before the next begins,
    and together they have the offsets of the range that are in no gap. -/
structure Remain (r : CodeRange) (gaps parts : List CodeRange) : Prop where
  nonempty : ∀ part ∈ parts, part.start < part.stop
  ordered : parts.Pairwise fun part next => part.stop ≤ next.start
  contains_iff : ∀ pc, (∃ part ∈ parts, part.contains pc = true) ↔
    r.contains pc = true ∧ ∀ gap ∈ gaps, gap.contains pc = false

variable {stop cursor : Nat} {gaps : List CodeRange}

/-- The parts from the cursor to the first gap, of which there is one at most. -/
theorem mem_ahead {r : CodeRange} {next : Nat} :
    r ∈ (if cursor < next then [⟨cursor, next⟩] else []) ↔ cursor < next ∧ r = ⟨cursor, next⟩ := by
  by_cases h : cursor < next <;> simp [h]

/-- Each part begins at the cursor or behind it, and is not empty. -/
theorem start_of_mem_between {part : CodeRange} (h : part ∈ between stop cursor gaps) :
    cursor ≤ part.start ∧ part.start < part.stop := by
  induction gaps generalizing cursor with
  | nil =>
    obtain ⟨hlt, rfl⟩ := mem_ahead.1 h
    exact ⟨Nat.le_refl _, hlt⟩
  | cons gap gaps ih =>
    rw [between] at h
    rcases List.mem_append.1 h with h | h
    · obtain ⟨hlt, rfl⟩ := mem_ahead.1 h
      exact ⟨Nat.le_refl _, hlt⟩
    · have := ih h
      omega

theorem pairwise_between (hgaps : ∀ gap ∈ gaps, gap.start ≤ gap.stop) :
    (between stop cursor gaps).Pairwise fun part next => part.stop ≤ next.start := by
  induction gaps generalizing cursor with
  | nil =>
    rw [between]
    split <;> simp
  | cons gap gaps ih =>
    rw [List.forall_mem_cons] at hgaps
    rw [between, List.pairwise_append]
    refine ⟨?_, ih hgaps.2, ?_⟩
    · split <;> simp
    · -- The part before a gap ends where the gap starts, and the cursor goes on from its end.
      intro part hpart next hnext
      obtain ⟨-, rfl⟩ := mem_ahead.1 hpart
      have hstart := (start_of_mem_between hnext).1
      have hgap := hgaps.1
      show gap.start ≤ next.start
      omega

/-- Where the gaps are in order and start before the end, the parts have the offsets from the
    cursor on that lie in no gap. -/
theorem exists_contains_between (hsorted : gaps.Pairwise fun gap next => gap.start ≤ next.start)
    (hstart : ∀ gap ∈ gaps, gap.start < stop) (pc : Nat) :
    (∃ part ∈ between stop cursor gaps, part.contains pc = true) ↔
      (cursor ≤ pc ∧ pc < stop) ∧ ∀ gap ∈ gaps, gap.contains pc = false := by
  induction gaps generalizing cursor with
  | nil =>
    rw [between]
    split <;> simp [contains_iff]
    omega
  | cons gap gaps ih =>
    rw [List.pairwise_cons] at hsorted
    rw [List.forall_mem_cons] at hstart
    have hsplit : (∃ part ∈ between stop cursor (gap :: gaps), part.contains pc = true) ↔
        (cursor ≤ pc ∧ pc < gap.start) ∨
          ∃ part ∈ between stop (max cursor gap.stop) gaps, part.contains pc = true := by
      simp only [between, List.mem_append, mem_ahead, or_and_right, exists_or]
      refine or_congr_left ⟨?_, fun h => ⟨_, ⟨by omega, rfl⟩, contains_iff.2 h⟩⟩
      rintro ⟨_, ⟨-, rfl⟩, h⟩
      exact contains_iff.1 h
    rw [hsplit, ih hsorted.2 hstart.2, List.forall_mem_cons]
    have hgap : gap.contains pc = false ↔ pc < gap.start ∨ gap.stop ≤ pc := by
      rw [← Bool.not_eq_true, contains_iff]
      omega
    rw [hgap]
    constructor
    · rintro (⟨hcursor, hbefore⟩ | ⟨hbehind, hnone⟩)
      · -- An offset before this gap is before all that follow.
        refine ⟨by omega, .inl hbefore, fun next hnext => ?_⟩
        have hle := hsorted.1 next hnext
        rw [← Bool.not_eq_true, contains_iff]
        omega
      · exact ⟨by omega, .inr (by omega), hnone⟩
    · rintro ⟨hinside, hbefore | hbehind, hnone⟩
      · exact .inl ⟨hinside.1, hbefore⟩
      · exact .inr ⟨by omega, hnone⟩

/-- The order of ranges is one by their starts. -/
theorem start_le_of_precedes {a b : CodeRange} (h : a.precedes b = true) : a.start ≤ b.start := by
  simp only [precedes, Bool.or_eq_true, Bool.and_eq_true, decide_eq_true_eq, beq_iff_eq] at h
  omega

theorem pairwise_mergeSort_precedes (gaps : List CodeRange) :
    (gaps.mergeSort precedes).Pairwise fun gap next => gap.start ≤ next.start := by
  refine (List.pairwise_mergeSort ?_ ?_ gaps).imp start_le_of_precedes
  · intro a b c
    simp only [precedes, Bool.or_eq_true, Bool.and_eq_true, decide_eq_true_eq, beq_iff_eq]
    omega
  · intro a b
    simp only [precedes, Bool.or_eq_true, Bool.and_eq_true, decide_eq_true_eq, beq_iff_eq]
    omega

/-- A range is cut at its gaps, whatever their order and however they overlap. -/
theorem remain_subtract (r : CodeRange) {gaps : List CodeRange}
    (hgaps : ∀ gap ∈ gaps, gap.start ≤ gap.stop) : Remain r gaps (r.subtract gaps) := by
  have hinside : ∀ {gap}, gap ∈ (gaps.filter fun gap =>
      r.start < gap.stop && gap.start < r.stop).mergeSort precedes ↔
        gap ∈ gaps ∧ r.start < gap.stop ∧ gap.start < r.stop := by
    simp
  refine ⟨fun part hpart => (start_of_mem_between hpart).2,
    pairwise_between fun gap hgap => hgaps gap (hinside.1 hgap).1, fun pc => ?_⟩
  rw [subtract, exists_contains_between (pairwise_mergeSort_precedes _)
    fun gap hgap => (hinside.1 hgap).2.2, contains_iff]
  refine and_congr_right fun hpc => ⟨fun hnone gap hgap => ?_,
    fun hnone gap hgap => hnone gap (hinside.1 hgap).1⟩
  -- A gap that has been left out has no offset of the range.
  by_cases hmeets : r.start < gap.stop ∧ gap.start < r.stop
  · exact hnone gap (hinside.2 ⟨hgap, hmeets⟩)
  · rw [← Bool.not_eq_true, contains_iff]
    omega

/-- Gaps that overlap, lie in one another, are empty or reach beyond the range. -/
theorem remain_subtract_overlapping :
    (∀ gap ∈ ([⟨12, 30⟩, ⟨4, 6⟩, ⟨5, 8⟩, ⟨4, 8⟩, ⟨10, 10⟩, ⟨0, 2⟩, ⟨25, 26⟩] : List CodeRange),
      gap.start ≤ gap.stop) ∧
    Remain ⟨2, 20⟩ [⟨12, 30⟩, ⟨4, 6⟩, ⟨5, 8⟩, ⟨4, 8⟩, ⟨10, 10⟩, ⟨0, 2⟩, ⟨25, 26⟩]
      [⟨2, 4⟩, ⟨8, 10⟩, ⟨10, 12⟩] := by
  have hgaps : ∀ gap ∈ ([⟨12, 30⟩, ⟨4, 6⟩, ⟨5, 8⟩, ⟨4, 8⟩, ⟨10, 10⟩, ⟨0, 2⟩,
      ⟨25, 26⟩] : List CodeRange), gap.start ≤ gap.stop := by decide
  have hparts : subtract ⟨2, 20⟩ [⟨12, 30⟩, ⟨4, 6⟩, ⟨5, 8⟩, ⟨4, 8⟩, ⟨10, 10⟩, ⟨0, 2⟩, ⟨25, 26⟩] =
      [⟨2, 4⟩, ⟨8, 10⟩, ⟨10, 12⟩] := by
    simp [subtract, between, List.mergeSort, precedes]
  exact ⟨hgaps, hparts ▸ remain_subtract ⟨2, 20⟩ hgaps⟩

end CodeRange

end ComponentViews
