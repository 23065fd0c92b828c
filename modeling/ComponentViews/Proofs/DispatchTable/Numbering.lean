import ComponentViews.Proofs.DispatchTable

/-!
# What the dispatch ids are

The ids are places in a list of signatures (`places`): that of the container, or else the
signatures of the bean class in ascending order and behind them, again in ascending order, the
exposed ones that it lacks. A place in an ascending list is the number of signatures that come
before (`idxOf_eq_rank`), so that the ids can be told from the sets of signatures alone:

* `exists_error_iff`: when there are no ids;
* `get?_build`: the ids as places, from which they differ where the signatures do;
* `build_congr`: the order of the exposed operations and of the methods of the bean class does not
  matter, nor how often they are listed.

`build_numbering` puts these together.
-/

namespace ComponentViews.DispatchTable

variable {exposed bean all : List Operation} {key : String} {t : DispatchTable}

/-! ### Sets of signatures -/

/-- The signatures of operations. -/
def keySet (ops : List Operation) : Finset String := (ops.map (·.signatureKey)).toFinset

/-- How many of the signatures come before one. -/
def rank (keys : Finset String) (key : String) : Nat := (keys.filter (· < key)).card

theorem mem_keySet {ops : List Operation} :
    key ∈ keySet ops ↔ ∃ op ∈ ops, op.signatureKey = key := by
  simp [keySet]

theorem toFinset_signatures (ops : List Operation) : (signatures ops).toFinset = keySet ops := by
  ext key
  rw [List.mem_toFinset, mem_signatures, mem_keySet]

theorem toFinset_lacking (exposed bean : List Operation) :
    (lacking exposed bean).toFinset = keySet exposed \ keySet bean := by
  ext key
  rw [List.mem_toFinset, mem_lacking, ← toFinset_signatures, ← toFinset_signatures,
    Finset.mem_sdiff, List.mem_toFinset, List.mem_toFinset]

theorem ascending_lacking (exposed bean : List Operation) :
    (lacking exposed bean).Pairwise (· < ·) :=
  (ascending_signatures exposed).filter _

theorem length_signatures (ops : List Operation) :
    (signatures ops).length = (keySet ops).card := by
  rw [← toFinset_signatures, List.toFinset_card_of_nodup (nodup_signatures ops)]

/-- The same signatures make the same list. -/
theorem signatures_congr {ops others : List Operation} (hkeys : keySet ops = keySet others) :
    signatures ops = signatures others := by
  have hperm : (signatures ops).Perm (signatures others) :=
    (List.perm_ext_iff_of_nodup (nodup_signatures ops) (nodup_signatures others)).2 fun key => by
      rw [mem_signatures, mem_signatures, ← mem_keySet, ← mem_keySet, hkeys]
  exact hperm.eq_of_pairwise
    (fun a b _ _ hab hba => absurd (String.lt_trans hab hba) (String.lt_irrefl a))
    (ascending_signatures ops) (ascending_signatures others)

/-- In an ascending list, a place is the number of items that are less. -/
theorem idxOf_eq_rank {keys : List String} (hkeys : keys.Pairwise (· < ·)) (hkey : key ∈ keys) :
    keys.idxOf key = rank keys.toFinset key := by
  have hcount : keys.idxOf key = keys.countP (· < key) := by
    induction keys with
    | nil => exact absurd hkey List.not_mem_nil
    | cons k rest ih =>
      obtain ⟨hfirst, hrest⟩ := List.pairwise_cons.1 hkeys
      by_cases hk : k = key
      · -- Nothing is less than the first item.
        subst hk
        have hnone : rest.countP (· < k) = 0 := by
          refine List.countP_eq_zero.2 fun x hx hlt => ?_
          exact String.lt_irrefl k (String.lt_trans (hfirst x hx) (of_decide_eq_true hlt))
        rw [List.idxOf_cons_self, List.countP_cons_of_neg (by simp), hnone]
      · have hmem : key ∈ rest := (List.mem_cons.1 hkey).resolve_left (Ne.symm hk)
        have hless : decide (k < key) = true := decide_eq_true (hfirst key hmem)
        rw [List.idxOf_cons_ne rest hk, ih hrest hmem, List.countP_cons, if_pos hless]
  have hnodup : keys.Nodup := hkeys.imp String.ne_of_lt
  rw [hcount, List.countP_eq_length_filter, rank,
    ← List.toFinset_card_of_nodup (hnodup.filter _), List.toFinset_filter]
  simp

/-! ### Places -/

/-- The signatures in the order in which they are numbered. -/
def places (exposed bean all : List Operation) : List String :=
  if all = [] then signatures bean ++ lacking exposed bean else all.map (·.signatureKey)

/-- The id of an exposed signature is its first place, and no other signature has one. -/
theorem get?_build (ht : build exposed bean all = .ok t) (key : String) :
    t.get? key =
      if key ∈ keySet exposed then (places exposed bean all).idxOf? key else none := by
  have hexposed : key ∈ keySet exposed ↔ key ∈ signatures exposed := by
    rw [mem_signatures, mem_keySet]
  cases all with
  | nil =>
    obtain rfl : ofBean exposed bean = t := Except.ok.inj ht
    rw [get?_ofBean_eq_idxOf?, places, if_pos rfl]
    simp only [hexposed]
  | cons op rest =>
    rw [get?_of_ofContainer ht]
    simp [hexposed, places]

/-- The exposed signatures have places, whenever there are ids. -/
theorem mem_places (ht : build exposed bean all = .ok t) (hkey : key ∈ keySet exposed) :
    key ∈ places exposed bean all := by
  rw [← toFinset_signatures, List.mem_toFinset] at hkey
  cases all with
  | nil =>
    rw [places, if_pos rfl, List.mem_append]
    by_cases hbean : key ∈ signatures bean
    · exact .inl hbean
    · exact .inr (mem_lacking.2 ⟨hkey, hbean⟩)
  | cons op rest =>
    change ofContainer exposed (op :: rest) = .ok t at ht
    rw [ofContainer_eq, Except.bind_eq_ok] at ht
    obtain ⟨ids, hids, -⟩ := ht
    rw [← map_fst_placed (Except.forall₂_of_mapM_eq_ok hids), List.mem_map] at hkey
    obtain ⟨p, hp, rfl⟩ := hkey
    obtain ⟨k, -, hplaced⟩ := Except.mem_of_mapM_eq_ok hids p hp
    obtain ⟨rfl, hplace⟩ := placed_eq_ok.1 hplaced
    rw [places, if_neg (List.cons_ne_nil op rest)]
    exact List.isSome_idxOf?.1 (Option.isSome_of_eq_some hplace)

/-- There are no ids only where the list of the container lacks an exposed signature. -/
theorem exists_error_iff : (∃ key, build exposed bean all = .error key) ↔
    all ≠ [] ∧ ∃ op ∈ exposed, op.signatureKey ∉ all.map (·.signatureKey) := by
  constructor
  · rintro ⟨e, he⟩
    cases all with
    | nil => cases he
    | cons op rest =>
      refine ⟨List.cons_ne_nil op rest, ?_⟩
      -- If the list had all exposed signatures, each would have its place in it.
      by_contra hnone
      have hplaced : ∀ key ∈ signatures exposed, ∃ p, placed (op :: rest) key = .ok p := by
        intro key hkey
        obtain ⟨m, hm, rfl⟩ := mem_signatures.1 hkey
        have hmem : m.signatureKey ∈ (op :: rest).map (·.signatureKey) := by
          by_contra hmem
          exact hnone ⟨m, hm, hmem⟩
        obtain ⟨id, hid⟩ := Option.isSome_iff_exists.1 (List.isSome_idxOf?.2 hmem)
        exact ⟨(m.signatureKey, id), placed_eq_ok.2 ⟨rfl, hid⟩⟩
      obtain ⟨ids, hids⟩ := Except.exists_mapM_eq_ok hplaced
      change ofContainer exposed (op :: rest) = .error e at he
      rw [ofContainer_eq, hids] at he
      cases he
  · rintro ⟨hall, op, hop, hmissing⟩
    cases hbuild : build exposed bean all with
    | error key => exact ⟨key, rfl⟩
    | ok t =>
      have hplace := mem_places hbuild (mem_keySet.2 ⟨op, hop, rfl⟩)
      rw [places, if_neg hall] at hplace
      exact absurd hplace hmissing

/-- Only the sets of the exposed signatures and of those of the bean class matter. -/
theorem build_congr {exposed' bean' : List Operation} (hexposed : keySet exposed' = keySet exposed)
    (hbean : keySet bean' = keySet bean) :
    build exposed' bean' all = build exposed bean all := by
  rw [build, build, ofBean, ofBean, ofContainer, ofContainer, signatures_congr hexposed,
    signatures_congr hbean]

/-! ### The ids of exposed operations -/

theorem idOf?_eq (ht : build exposed bean all = .ok t) {op : Operation} (hop : op ∈ exposed) :
    t.idOf? op = some ((places exposed bean all).idxOf op.signatureKey) := by
  have hkey : op.signatureKey ∈ keySet exposed := mem_keySet.2 ⟨op, hop, rfl⟩
  obtain ⟨id, hid⟩ := Option.isSome_iff_exists.1 (List.isSome_idxOf?.2 (mem_places ht hkey))
  rw [idOf?, get?_build ht, if_pos hkey, List.idxOf_eq_getD_idxOf?, hid, Option.getD_some]

/-- Two exposed operations have one id exactly if they have one signature. -/
theorem idOf?_eq_iff (ht : build exposed bean all = .ok t) {op other : Operation}
    (hop : op ∈ exposed) (hother : other ∈ exposed) :
    t.idOf? op = t.idOf? other ↔ op.signatureKey = other.signatureKey := by
  rw [idOf?_eq ht hop, idOf?_eq ht hother, Option.some.injEq]
  exact List.idxOf_inj (mem_places ht (mem_keySet.2 ⟨op, hop, rfl⟩))

/-- The places where the container has not numbered the methods. -/
theorem idxOf_places (hkey : key ∈ keySet exposed) :
    (places exposed bean []).idxOf key =
      if key ∈ keySet bean then rank (keySet bean) key
      else (keySet bean).card + rank (keySet exposed \ keySet bean) key := by
  have hbean : key ∈ signatures bean ↔ key ∈ keySet bean := by rw [mem_signatures, mem_keySet]
  rw [places, if_pos rfl, List.idxOf_append]
  by_cases hmem : key ∈ keySet bean
  · rw [if_pos (hbean.2 hmem), if_pos hmem,
      idxOf_eq_rank (ascending_signatures bean) (hbean.2 hmem), toFinset_signatures]
  · have hlacking : key ∈ lacking exposed bean := by
      rw [← List.mem_toFinset, toFinset_lacking, Finset.mem_sdiff]
      exact ⟨hkey, hmem⟩
    rw [if_neg (fun h => hmem (hbean.1 h)), if_neg hmem,
      idxOf_eq_rank (ascending_lacking exposed bean) hlacking, toFinset_lacking, length_signatures,
      Nat.add_comm]

/-- There are ids unless the list of the container lacks an exposed signature, and they depend only
    on the sets of exposed signatures and of those of the bean class. Each exposed operation has
    one, another one for each signature: its first place in the list of the container or, where
    there is none, the number of signatures of the bean class that come before it; and those that
    the bean class lacks follow all of these, one by one in ascending order. -/
theorem build_numbering (exposed bean all : List Operation) :
    ((∃ key, build exposed bean all = .error key) ↔
      all ≠ [] ∧ ∃ op ∈ exposed, op.signatureKey ∉ all.map (·.signatureKey)) ∧
    (∀ exposed' bean', keySet exposed' = keySet exposed → keySet bean' = keySet bean →
      build exposed' bean' all = build exposed bean all) ∧
    ∀ t, build exposed bean all = .ok t →
      (∀ op ∈ exposed, ∃ id, t.idOf? op = some id) ∧
      (∀ op ∈ exposed, ∀ other ∈ exposed,
        t.idOf? op = t.idOf? other ↔ op.signatureKey = other.signatureKey) ∧
      (all ≠ [] → ∀ op ∈ exposed,
        t.idOf? op = all.findIdx? (·.signatureKey == op.signatureKey)) ∧
      (all = [] → ∀ op ∈ exposed, t.idOf? op =
        some (if op.signatureKey ∈ keySet bean then rank (keySet bean) op.signatureKey
          else (keySet bean).card + rank (keySet exposed \ keySet bean) op.signatureKey)) := by
  refine ⟨exists_error_iff, fun exposed' bean' => build_congr, fun t ht =>
    ⟨fun op hop => ⟨_, idOf?_eq ht hop⟩, fun op hop other hother => idOf?_eq_iff ht hop hother,
      fun hall op hop => ?_, fun hall op hop => ?_⟩⟩
  · rw [idOf?, get?_build ht, if_pos (mem_keySet.2 ⟨op, hop, rfl⟩), places, if_neg hall]
    simp [List.idxOf?, List.findIdx?_map, Function.comp_def]
  · subst hall
    rw [idOf?_eq ht hop, idxOf_places (mem_keySet.2 ⟨op, hop, rfl⟩)]

/-- The operations of a home, with one that the bean class has too. -/
def homeOperations : List Operation :=
  [{ name := "findByOwner", params := [.string] }, { name := "create" }, { name := "balance" },
    { name := "create" }]

/-- The methods of its bean class. -/
def beanOperations : List Operation :=
  [{ name := "close" }, { name := "balance" }, { name := "audit" }, { name := "close" }]

theorem build_numbering_home :
    (∃ t, build homeOperations beanOperations [] = .ok t ∧
      t.idOf? { name := "balance" } = some 1 ∧ t.idOf? { name := "create" } = some 3 ∧
      t.idOf? { name := "findByOwner", params := [.string] } = some 4) ∧
    (∃ t, build homeOperations beanOperations (beanOperations ++ homeOperations) = .ok t ∧
      t.idOf? { name := "balance" } = some 1 ∧ t.idOf? { name := "create" } = some 5) ∧
    ∃ key, build homeOperations beanOperations beanOperations = .error key := by
  refine ⟨⟨ofBean homeOperations beanOperations, rfl, ?_⟩, ?_,
    (build_numbering homeOperations beanOperations beanOperations).1.2 ?_⟩
  · have hids := ((build_numbering homeOperations beanOperations []).2.2 _ rfl).2.2.2 rfl
    exact ⟨(hids _ (by decide)).trans (by decide),
      (hids _ (by decide)).trans (by decide),
      (hids _ (by decide)).trans (by decide)⟩
  · have hnumbered :=
      build_numbering homeOperations beanOperations (beanOperations ++ homeOperations)
    cases hbuild : build homeOperations beanOperations (beanOperations ++ homeOperations) with
    | error key =>
      obtain ⟨-, op, hop, hmissing⟩ := hnumbered.1.1 ⟨key, hbuild⟩
      exact absurd (List.mem_map_of_mem (List.mem_append_right _ hop)) hmissing
    | ok t =>
      have hids := (hnumbered.2.2 t hbuild).2.2.1 (by decide)
      exact ⟨t, rfl, (hids _ (by decide)).trans (by decide),
        (hids _ (by decide)).trans (by decide)⟩
  · decide

end ComponentViews.DispatchTable
