import ComponentViews.Hierarchy.Basic
import Mathlib

/-!
# The search for a supertype

Whether a class stands above another is found out by a search upwards (`Hierarchy.reaches`). It
keeps a worklist of names that it has come to, and notes the names that it has expanded, as
nothing keeps the declarations from running in a circle or from naming classes that are not there.
Here the search is a system of states and steps, in which any name of the worklist may be taken
next:

* `Search.wellFounded_step`: no search goes on forever, as a name is expanded once and takes its
  steps upwards out of those pending (`pending_cons`);
* `Search.Frontier`: what a search keeps up. All that stands directly above an expanded name has
  been expanded or is on the worklist, so that a search that finds nothing has been everywhere
  (`Search.Frontier.ends`);
* `Search.exists_run`: `reaches` with fuel for every step is such a search, and it comes to its end
  before the fuel is used up. From that, it finds exactly the names above those of its worklist
  (`reaches_iff`).
-/

namespace ComponentViews.Hierarchy

variable {h : Hierarchy}

/-- `b` stands directly above `a`. -/
def Above (h : Hierarchy) (a b : String) : Prop := b ∈ h.parents a

/-! ### Steps that are still to be taken -/

/-- The steps upwards from names outside `seen`, those of replaced declarations included. -/
def pending (h : Hierarchy) (seen : List String) : Nat :=
  ((h.classes.filter fun c => !seen.contains c.name).map (·.parents.length)).sum

theorem pending_nil (h : Hierarchy) : h.pending [] = h.edgeCount := by
  obtain ⟨classes⟩ := h
  induction classes with
  | nil => rfl
  | cons c rest ih =>
    simp only [pending, edgeCount] at ih
    simp [pending, edgeCount, ← ih]

/-- Expanding a name takes its steps out of those pending. -/
theorem pending_cons {seen : List String} {name : String} (hn : name ∉ seen) :
    (h.parents name).length + h.pending (name :: seen) ≤ h.pending seen := by
  obtain ⟨classes⟩ := h
  induction classes with
  | nil => simp [pending, parents, find?]
  | cons c rest ih =>
    simp only [pending, parents, find?] at ih ⊢
    by_cases hc : c.name = name
    · -- The first declaration of the name is the one that counts, and all others of
      -- the name leave the sum with it.
      subst hc
      have hle : ((rest.filter fun d => !(c.name :: seen).contains d.name).map
            (·.parents.length)).sum ≤
          ((rest.filter fun d => !seen.contains d.name).map (·.parents.length)).sum :=
        Nat.le_trans (Nat.le_add_left _ _) ih
      simpa [List.filter_cons, hn] using hle
    · by_cases hs : c.name ∈ seen
      · simpa [List.filter_cons, List.find?_cons, hc, hs] using ih
      · have hs' : (!seen.contains c.name) = true := by simp [hs]
        have hns : (!(name :: seen).contains c.name) = true := by simp [hc, hs]
        simp only [List.filter_cons, List.find?_cons, hs', hns, if_true, List.map_cons,
          List.sum_cons, beq_eq_false_iff_ne.2 hc]
        omega

/-! ### States and steps -/

/-- How far a search has come: the names that it has expanded, and those that it is still to look
    at. -/
structure Search where
  seen : List String
  work : List String

namespace Search

/-- A step of the search for `sup` takes any name of the worklist. A name that has been expanded is
    dropped; another one is expanded, if `sup` is not directly above it. -/
inductive Step (h : Hierarchy) (sup : String) : Search → Search → Prop
  | drop {seen work rest : List String} {name : String} (htaken : work.Perm (name :: rest))
    (hseen : name ∈ seen) : Step h sup ⟨seen, work⟩ ⟨seen, rest⟩
  | expand {seen work rest : List String} {name : String} (htaken : work.Perm (name :: rest))
    (hnew : name ∉ seen) (hpassed : sup ∉ h.parents name) :
    Step h sup ⟨seen, work⟩ ⟨name :: seen, h.parents name ++ rest⟩

/-- How the search for `sup` ends: it is directly above the name that is taken, or there is no name
    left. -/
inductive Ends (h : Hierarchy) (sup : String) : Search → Bool → Prop
  | found {seen work rest : List String} {name : String} (htaken : work.Perm (name :: rest))
    (hnew : name ∉ seen) (habove : sup ∈ h.parents name) : Ends h sup ⟨seen, work⟩ true
  | exhausted {seen : List String} : Ends h sup ⟨seen, []⟩ false

variable {sup : String} {start : List String} {s t : Search}

/-- The steps that a search can still take. -/
def size (h : Hierarchy) (s : Search) : Nat := s.work.length + h.pending s.seen

theorem Step.size_lt (hst : Step h sup s t) : t.size h < s.size h := by
  cases hst with
  | drop htaken hseen =>
    have hlen := htaken.length_eq
    simp only [size, List.length_cons] at hlen ⊢
    omega
  | expand htaken hnew _ =>
    have hlen := htaken.length_eq
    have hsteps := pending_cons (h := h) hnew
    simp only [size, List.length_append, List.length_cons] at hlen ⊢
    omega

/-- No search goes on forever. -/
theorem wellFounded_step (h : Hierarchy) (sup : String) :
    WellFounded fun t s => Step h sup s t :=
  Subrelation.wf (fun hst => hst.size_lt) (measure (size h)).wf

/-! ### What a search keeps up -/

/-- Where a search for `sup` stands that began with the names of `start`. -/
structure Frontier (h : Hierarchy) (sup : String) (start : List String) (s : Search) : Prop where
  /-- What is looked at is one of these names or above one. -/
  above : ∀ name ∈ s.work, ∃ a ∈ start, Relation.ReflTransGen h.Above a name
  begun : ∀ a ∈ start, a ∈ s.seen ∨ a ∈ s.work
  /-- Nothing above an expanded name has been passed over. -/
  expanded : ∀ a ∈ s.seen, sup ∉ h.parents a ∧ ∀ b ∈ h.parents a, b ∈ s.seen ∨ b ∈ s.work

theorem frontier_start (h : Hierarchy) (sup : String) (start : List String) :
    Frontier h sup start ⟨[], start⟩ where
  above name hname := ⟨name, hname, .refl⟩
  begun _ ha := .inr ha
  expanded _ ha := absurd ha List.not_mem_nil

theorem Frontier.step (hs : Frontier h sup start s) (hst : Step h sup s t) :
    Frontier h sup start t := by
  cases hst with
  | @drop seen work rest name htaken hseen =>
    -- What is dropped is among the expanded names.
    have hkept : ∀ {b}, b ∈ seen ∨ b ∈ work → b ∈ seen ∨ b ∈ rest := by
      intro b hb
      rcases hb with hb | hb
      · exact .inl hb
      · rcases List.mem_cons.1 (htaken.mem_iff.1 hb) with rfl | hb
        · exact .inl hseen
        · exact .inr hb
    exact {
      above := fun a ha => hs.above a (htaken.mem_iff.2 (List.mem_cons_of_mem name ha))
      begun := fun a ha => hkept (hs.begun a ha)
      expanded := fun a ha =>
        ⟨(hs.expanded a ha).1, fun b hb => hkept ((hs.expanded a ha).2 b hb)⟩ }
  | @expand seen work rest name htaken hnew hpassed =>
    have hkept : ∀ {b}, b ∈ seen ∨ b ∈ work →
        b ∈ name :: seen ∨ b ∈ h.parents name ++ rest := by
      intro b hb
      rcases hb with hb | hb
      · exact .inl (List.mem_cons_of_mem name hb)
      · rcases List.mem_cons.1 (htaken.mem_iff.1 hb) with rfl | hb
        · exact .inl List.mem_cons_self
        · exact .inr (List.mem_append_right _ hb)
    refine ⟨fun b hb => ?_, fun a ha => hkept (hs.begun a ha), fun a ha => ?_⟩
    · rcases List.mem_append.1 hb with hb | hb
      · obtain ⟨a, ha, hpath⟩ := hs.above name (htaken.mem_iff.2 List.mem_cons_self)
        exact ⟨a, ha, hpath.tail hb⟩
      · exact hs.above b (htaken.mem_iff.2 (List.mem_cons_of_mem name hb))
    · rcases List.mem_cons.1 ha with rfl | ha
      · exact ⟨hpassed, fun b hb => .inr (List.mem_append_left rest hb)⟩
      · exact ⟨(hs.expanded a ha).1, fun b hb => hkept ((hs.expanded a ha).2 b hb)⟩

theorem Frontier.run (hs : Frontier h sup start s)
    (hst : Relation.ReflTransGen (Step h sup) s t) : Frontier h sup start t := by
  induction hst with
  | refl => exact hs
  | tail _ hstep ih => exact ih.step hstep

/-- At its end, a search has found `sup` exactly if it stands above a name that the search began
    with. -/
theorem Frontier.ends (hs : Frontier h sup start s) {answer : Bool}
    (hend : Ends h sup s answer) :
    answer = true ↔ ∃ a ∈ start, Relation.TransGen h.Above a sup := by
  cases hend with
  | @found seen work rest name htaken hnew habove =>
    refine iff_of_true rfl ?_
    obtain ⟨a, ha, hpath⟩ := hs.above name (htaken.mem_iff.2 List.mem_cons_self)
    exact ⟨a, ha, .tail' hpath habove⟩
  | @exhausted seen =>
    refine iff_of_false Bool.false_ne_true ?_
    rintro ⟨a, ha, hpath⟩
    -- The worklist is empty, so that everything above `a` has been expanded.
    have hclosed : ∀ {b}, Relation.ReflTransGen h.Above a b → b ∈ seen := by
      intro b hb
      induction hb with
      | refl => simpa using hs.begun a ha
      | tail _ hstep ih => simpa using (hs.expanded _ ih).2 _ hstep
    obtain ⟨b, hb, hstep⟩ := Relation.TransGen.tail'_iff.1 hpath
    exact (hs.expanded b (hclosed hb)).1 hstep

/-! ### The search that is run -/

/-- With fuel for every step that can be taken, `reaches` answers as a search does in the end. -/
theorem exists_run {fuel : Nat} {seen work : List String}
    (hfuel : size h ⟨seen, work⟩ ≤ fuel) :
    ∃ t, Relation.ReflTransGen (Step h sup) ⟨seen, work⟩ t ∧
      Ends h sup t (h.reaches sup fuel seen work) := by
  induction fuel generalizing seen work with
  | zero =>
    have hwork : work = [] := by
      simp only [size] at hfuel
      exact List.length_eq_zero_iff.1 (by omega)
    subst hwork
    exact ⟨_, .refl, .exhausted⟩
  | succ fuel ih =>
    cases work with
    | nil => exact ⟨_, .refl, .exhausted⟩
    | cons name work =>
      -- One step uses up one unit of fuel.
      have hnext : ∀ {seen' work'}, Step h sup ⟨seen, name :: work⟩ ⟨seen', work'⟩ →
          ∃ t, Relation.ReflTransGen (Step h sup) ⟨seen, name :: work⟩ t ∧
            Ends h sup t (h.reaches sup fuel seen' work') := by
        intro seen' work' hstep
        obtain ⟨t, hrun, hend⟩ := ih (Nat.le_of_lt_succ (hstep.size_lt.trans_le hfuel))
        exact ⟨t, .head hstep hrun, hend⟩
      rw [reaches]
      split
      · rename_i hseen
        exact hnext (.drop (.refl _) (List.contains_iff_mem.1 hseen))
      rename_i hnew
      rw [List.contains_iff_mem] at hnew
      split
      · rename_i habove
        exact ⟨_, .refl, .found (.refl _) hnew (List.contains_iff_mem.1 habove)⟩
      · rename_i hpassed
        rw [List.contains_iff_mem] at hpassed
        exact hnext (.expand (.refl _) hnew hpassed)

/-- A search comes to an end. -/
theorem exists_ends (h : Hierarchy) (sup : String) (s : Search) :
    ∃ t answer, Relation.ReflTransGen (Step h sup) s t ∧ Ends h sup t answer := by
  obtain ⟨t, hrun, hend⟩ := exists_run (Nat.le_refl (size h s))
  exact ⟨t, _, hrun, hend⟩

end Search

/-- With fuel for the worklist and for every step, the search finds the names above. -/
theorem reaches_iff {sup : String} {fuel : Nat} {work : List String}
    (hfuel : work.length + h.edgeCount ≤ fuel) :
    h.reaches sup fuel [] work = true ↔ ∃ name ∈ work, Relation.TransGen h.Above name sup := by
  have hsize : Search.size h ⟨[], work⟩ ≤ fuel := by
    rw [Search.size, pending_nil]
    exact hfuel
  obtain ⟨t, hrun, hend⟩ := Search.exists_run hsize
  exact ((Search.frontier_start h sup work).run hrun).ends hend

end ComponentViews.Hierarchy
