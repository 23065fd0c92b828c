/-!
# Tables keyed by text

A table assigns values to texts. Its entries stand in ascending order of their
keys, by code points, and no key stands twice; so two tables with the same
assignments are equal, and going through a table never depends on the order in
which it was filled.
-/

namespace ComponentViews

/-- A finite assignment of values to texts. -/
structure Table (α : Type) where
  /-- The entries, in ascending order of the keys. -/
  entries : List (String × α)
  ascending : (entries.map (·.1)).Pairwise (· < ·) := by decide

namespace Table

variable {α : Type}

instance : EmptyCollection (Table α) := ⟨⟨[], List.Pairwise.nil⟩⟩

instance : Inhabited (Table α) := ⟨∅⟩

instance [DecidableEq α] : DecidableEq (Table α) := fun a b =>
  if h : a.entries = b.entries then
    isTrue (by cases a; cases b; cases h; rfl)
  else isFalse fun e => h (e ▸ rfl)

/-- The value of a key. -/
def get? (t : Table α) (key : String) : Option α :=
  (t.entries.find? (·.1 == key)).map (·.2)

/-- The keys, in the order of the entries. -/
def keys (t : Table α) : List String := t.entries.map (·.1)

/-- The values, in the order of their keys. -/
def values (t : Table α) : List α := t.entries.map (·.2)

/-- Entries with the one of `key` set to what `f` makes of the value it had. -/
def alterEntries (key : String) (f : Option α → α) : List (String × α) → List (String × α)
  | [] => [(key, f none)]
  | (k, a) :: rest =>
    if key < k then (key, f none) :: (k, a) :: rest
    else if key = k then (k, f (some a)) :: rest
    else (k, a) :: alterEntries key f rest

theorem mem_keys_alterEntries {key x : String} {f : Option α → α} {l : List (String × α)}
    (h : x ∈ (alterEntries key f l).map (·.1)) : x = key ∨ x ∈ l.map (·.1) := by
  induction l with
  | nil => simpa [alterEntries] using h
  | cons e rest ih =>
    obtain ⟨k, a⟩ := e
    simp only [alterEntries] at h
    split at h
    · simpa using h
    · split at h
      · right; simpa using h
      · simp only [List.map_cons, List.mem_cons] at h ⊢
        rcases h with h | h
        · exact .inr (.inl h)
        · rcases ih h with h | h
          · exact .inl h
          · exact .inr (.inr h)

theorem pairwise_alterEntries {key : String} {f : Option α → α} {l : List (String × α)}
    (h : (l.map (·.1)).Pairwise (· < ·)) :
    ((alterEntries key f l).map (·.1)).Pairwise (· < ·) := by
  induction l with
  | nil => simp [alterEntries]
  | cons e rest ih =>
    obtain ⟨k, a⟩ := e
    simp only [List.map_cons, List.pairwise_cons] at h
    simp only [alterEntries]
    split
    · rename_i hlt
      simp only [List.map_cons, List.pairwise_cons, List.mem_cons]
      refine ⟨fun x hx => ?_, h⟩
      rcases hx with rfl | hx
      · exact hlt
      · exact String.lt_trans hlt (h.1 x hx)
    · rename_i hnlt
      split
      · simpa using h
      · rename_i hne
        simp only [List.map_cons, List.pairwise_cons]
        refine ⟨fun x hx => ?_, ih h.2⟩
        rcases mem_keys_alterEntries hx with rfl | hx
        · exact Std.lt_of_le_of_ne (String.not_lt.1 hnlt) (Ne.symm hne)
        · exact h.1 x hx

/-- The table with the value of `key` set to what `f` makes of the value it had. -/
def alter (t : Table α) (key : String) (f : Option α → α) : Table α :=
  ⟨alterEntries key f t.entries, pairwise_alterEntries t.ascending⟩

/-- The table with `key` assigned `a`. -/
def insert (t : Table α) (key : String) (a : α) : Table α := t.alter key fun _ => a

/-- The table with `key` assigned `a`, unless it has a value. -/
def insertIfNew (t : Table α) (key : String) (a : α) : Table α := t.alter key (·.getD a)

/-- The table of the pairs, in which the last pair of a key counts. -/
def ofList (pairs : List (String × α)) : Table α :=
  pairs.foldl (fun t p => t.insert p.1 p.2) ∅

/-- The table with every value passed through `f`. -/
def map {β : Type} (f : α → β) (t : Table α) : Table β :=
  ⟨t.entries.map fun p => (p.1, f p.2), by simpa [Function.comp_def] using t.ascending⟩

end Table

end ComponentViews
