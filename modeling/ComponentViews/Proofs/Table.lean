import ComponentViews.Table
import Mathlib

/-!
# Looking up in tables

What is found under a key after the value of a key has been set: the keys are in order, so
that the place where `alterEntries` stops is the only one that the key can have. For the same
reason a table is told by what is found in it (`ext_get?`).
-/

namespace ComponentViews.Table

variable {α : Type} {key : String} {f : Option α → α}

theorem find?_alterEntries {entries : List (String × α)}
    (hentries : (entries.map (·.1)).Pairwise (· < ·)) (x : String) :
    (alterEntries key f entries).find? (·.1 == x) =
      if x = key then some (key, f ((entries.find? (·.1 == key)).map (·.2)))
      else entries.find? (·.1 == x) := by
  induction entries with
  | nil =>
    by_cases hx : x = key
    · simp [alterEntries, hx]
    · simp [alterEntries, hx, Ne.symm hx]
  | cons e rest ih =>
    obtain ⟨k, a⟩ := e
    simp only [List.map_cons, List.pairwise_cons] at hentries
    rw [alterEntries]
    split
    · -- No key of the list is the new one: all of them are above it.
      rename_i hlt
      have hnone : ((k, a) :: rest).find? (·.1 == key) = none := by
        rw [List.find?_eq_none]
        intro p hp
        rw [beq_iff_eq]
        rintro rfl
        rcases List.mem_cons.1 hp with rfl | hp
        · exact String.lt_irrefl _ hlt
        · exact String.lt_irrefl _
            (String.lt_trans hlt (hentries.1 _ (List.mem_map_of_mem hp)))
      rw [hnone, List.find?_cons]
      by_cases hx : x = key
      · simp [hx]
      · rw [if_neg hx, beq_false_of_ne (Ne.symm hx)]
    split
    · rename_i hkey
      subst hkey
      by_cases hx : x = key
      · simp [hx]
      · simp [hx, Ne.symm hx]
    · rename_i hkey
      rw [List.find?_cons, ih hentries.2, List.find?_cons, List.find?_cons]
      have hne : (k == key) = false := beq_false_of_ne (Ne.symm hkey)
      by_cases hx : x = key
      · subst hx
        simp [hne]
      · rw [if_neg hx, if_neg hx]

theorem get?_alter (t : Table α) (x : String) :
    (t.alter key f).get? x = if x = key then some (f (t.get? key)) else t.get? x := by
  rw [get?, alter, find?_alterEntries t.ascending]
  split <;> rfl

theorem get?_insertIfNew (t : Table α) (a : α) (x : String) :
    (t.insertIfNew key a).get? x = if x = key then some ((t.get? key).getD a) else t.get? x :=
  t.get?_alter x

/-- What is found after values have been entered under the keys of a list that have one: what was
    there before, or else the first of these. -/
theorem get?_foldl_insertIfNew {β : Type} (keyOf? : β → Option String) (valueOf : β → α)
    (l : List β) (t : Table α) (x : String) :
    (l.foldl (fun t b =>
      match keyOf? b with
      | some k => t.insertIfNew k (valueOf b)
      | none => t) t).get? x =
      (t.get? x).or ((l.find? (keyOf? · == some x)).map valueOf) := by
  induction l generalizing t with
  | nil => rw [List.foldl_nil, List.find?_nil, Option.map_none, Option.or_none]
  | cons b rest ih =>
    rw [List.foldl_cons, ih, List.find?_cons]
    cases hkey : keyOf? b with
    | none => rfl
    | some k =>
      rw [get?_insertIfNew]
      by_cases hx : x = k
      · rw [if_pos hx, hx, beq_self_eq_true]
        cases t.get? k <;> rfl
      · rw [if_neg hx, beq_false_of_ne (by simpa using Ne.symm hx)]

/-- The entry of a key that has a value. -/
theorem find?_entries {t : Table α} {a : α} (ht : t.get? key = some a) :
    t.entries.find? (·.1 == key) = some (key, a) := by
  rw [get?, Option.map_eq_some_iff] at ht
  obtain ⟨⟨k, b⟩, hfind, rfl⟩ := ht
  have hk := List.find?_some hfind
  rw [beq_iff_eq] at hk
  rw [hfind]
  exact congrArg some (Prod.ext hk rfl)

theorem nodup_keys (t : Table α) : (t.entries.map (·.1)).Nodup := t.ascending.imp String.ne_of_lt

theorem mem_entries_iff {t : Table α} {e : String × α} :
    e ∈ t.entries ↔ t.get? e.1 = some e.2 := by
  refine ⟨fun he => ?_, fun ht => List.mem_of_find?_eq_some (find?_entries ht)⟩
  have hsome : (t.entries.find? (·.1 == e.1)).isSome = true :=
    List.find?_isSome.2 ⟨e, he, beq_self_eq_true e.1⟩
  obtain ⟨d, hd⟩ := Option.isSome_iff_exists.1 hsome
  have hkey := List.find?_some hd
  rw [beq_iff_eq] at hkey
  have hde : d = e := List.inj_on_of_nodup_map t.nodup_keys (List.mem_of_find?_eq_some hd) he hkey
  rw [get?, hd, hde]
  rfl

/-- Tables in which the same is found are equal. -/
theorem ext_get? {t u : Table α} (h : ∀ k, t.get? k = u.get? k) : t = u := by
  have hascending : ∀ v : Table α, v.entries.Pairwise fun a b => a.1 < b.1 :=
    fun v => List.pairwise_map.1 v.ascending
  have hnodup : ∀ v : Table α, v.entries.Nodup :=
    fun v => List.Nodup.of_map _ v.nodup_keys
  have hperm : t.entries.Perm u.entries :=
    (List.perm_ext_iff_of_nodup (hnodup t) (hnodup u)).2 fun e => by
      rw [mem_entries_iff, mem_entries_iff, h]
  have heq := hperm.eq_of_pairwise
    (fun a b _ _ hab hba => absurd (String.lt_trans hab hba) (String.lt_irrefl _))
    (hascending t) (hascending u)
  cases t
  cases u
  cases heq
  rfl

theorem get?_map {β : Type} (g : α → β) (t : Table α) (k : String) :
    (t.map g).get? k = (t.get? k).map g := by
  rw [get?, get?, map, List.find?_map, Option.map_map, Option.map_map]
  rfl

theorem get?_insert (t : Table α) (a : α) (x : String) :
    (t.insert key a).get? x = if x = key then some a else t.get? x :=
  t.get?_alter x

/-- What is found of pairs whose keys differ. -/
theorem get?_ofList {pairs : List (String × α)} (hpairs : (pairs.map (·.1)).Nodup)
    (k : String) : (ofList pairs).get? k = (pairs.find? (·.1 == k)).map (·.2) := by
  have hfold : ∀ (l : List (String × α)) (t : Table α), (l.map (·.1)).Nodup →
      (l.foldl (fun t p => t.insert p.1 p.2) t).get? k =
        ((l.find? (·.1 == k)).map (·.2)).or (t.get? k) := by
    intro l t hl
    induction l generalizing t with
    | nil => rfl
    | cons p rest ih =>
      rw [List.map_cons, List.nodup_cons] at hl
      rw [List.foldl_cons, ih _ hl.2, get?_insert, List.find?_cons]
      by_cases hk : k = p.1
      · -- No later pair has the key.
        have hnone : rest.find? (·.1 == k) = none :=
          List.find?_eq_none.2 fun q hq he =>
            hl.1 (hk ▸ beq_iff_eq.1 he ▸ List.mem_map_of_mem hq)
        rw [hnone, if_pos hk, hk, beq_self_eq_true]
        rfl
      · rw [if_neg hk, beq_false_of_ne (Ne.symm hk)]
  exact (hfold pairs ∅ hpairs).trans (Option.or_none ..)

/-- A table is that of its own entries. -/
theorem ofList_entries (t : Table α) : ofList t.entries = t :=
  ext_get? fun k => get?_ofList t.nodup_keys k

theorem mem_keys_iff {t : Table α} {k : String} : k ∈ t.keys ↔ (t.get? k).isSome = true := by
  rw [keys, get?, Option.isSome_map, List.find?_isSome, List.mem_map]
  exact exists_congr fun e => and_congr_right fun _ => beq_iff_eq.symm

theorem mem_keys_insert {t : Table α} {a : α} {k : String} :
    k ∈ (t.insert key a).keys ↔ k = key ∨ k ∈ t.keys := by
  rw [mem_keys_iff, mem_keys_iff, get?_insert]
  by_cases hk : k = key
  · simp [hk]
  · simp [hk]

/-- Every key of the pairs is one of their table, and there is no other. -/
theorem mem_keys_ofList {pairs : List (String × α)} {k : String} :
    k ∈ (ofList pairs).keys ↔ ∃ p ∈ pairs, p.1 = k := by
  have hfold : ∀ (l : List (String × α)) (t : Table α),
      k ∈ (l.foldl (fun t p => t.insert p.1 p.2) t).keys ↔ k ∈ t.keys ∨ ∃ p ∈ l, p.1 = k := by
    intro l t
    induction l generalizing t with
    | nil => simp
    | cons p rest ih =>
      rw [List.foldl_cons, ih, mem_keys_insert, eq_comm]
      simp only [List.mem_cons, exists_eq_or_imp, or_assoc, or_left_comm]
  rw [ofList, hfold]
  exact or_iff_right List.not_mem_nil

/-! ### Entering one thing after another -/

variable {β : Type} {keyOf : β → String} {enter : β → Option α → α}

/-- What holds of the values of a table, and of what is made of such values, holds in the end. -/
theorem forall_get?_foldl_alter {P : String → α → Prop} {l : List β} {t : Table α}
    (ht : ∀ k a, t.get? k = some a → P k a)
    (henter : ∀ b ∈ l, ∀ found : Option α, (∀ a ∈ found, P (keyOf b) a) →
      P (keyOf b) (enter b found)) :
    ∀ k a, (l.foldl (fun t b => t.alter (keyOf b) (enter b)) t).get? k = some a → P k a := by
  induction l generalizing t with
  | nil => exact ht
  | cons b rest ih =>
    rw [List.forall_mem_cons] at henter
    refine ih (fun k a hk => ?_) henter.2
    rw [get?_alter] at hk
    split at hk
    · rename_i hkey
      rw [hkey, ← Option.some.inj hk]
      exact henter.1 _ fun a ha => ht _ _ ha
    · exact ht k a hk

/-- Forgetting something of the values is forgetting it of what is entered. -/
theorem foldl_alter_map {g : α → α} {e : β → β} (hkeyOf : ∀ b, keyOf (e b) = keyOf b)
    (henter : ∀ b a, enter (e b) (a.map g) = g (enter b a)) (l : List β) (t : Table α) :
    (l.map e).foldl (fun t b => t.alter (keyOf b) (enter b)) (t.map g) =
      (l.foldl (fun t b => t.alter (keyOf b) (enter b)) t).map g := by
  induction l generalizing t with
  | nil => rfl
  | cons b rest ih =>
    rw [List.map_cons, List.foldl_cons, List.foldl_cons, ← ih]
    congr 1
    refine ext_get? fun k => ?_
    rw [get?_alter, get?_map, get?_map, get?_map, get?_alter, hkeyOf]
    split
    · rw [henter, Option.map_some]
    · rfl

end ComponentViews.Table
