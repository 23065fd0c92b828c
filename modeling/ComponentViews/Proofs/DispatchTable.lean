import ComponentViews.DispatchTable
import ComponentViews.Proofs.Checks
import ComponentViews.Proofs.Table

/-!
# Where the dispatch ids agree

The id of an operation is a place: in the list of the container, or else among the
signatures of the bean class followed by those that the view exposes beyond them. The
container finds its policies by the id, so that it matters what two views of one component
make of the same operation.

* `get?_ofBean`, `get?_of_ofContainer`: what the id of a signature is, in either case;
* `get?_eq_iff`: two views agree on every signature that both expose, apart from those that
  neither the container nor the bean class has. These are numbered by what each view exposes
  beyond the bean class, and the views agree on such a signature only where as many of the
  others come before it in both of them.
-/

namespace ComponentViews.DispatchTable

variable {exposed bean all : List Operation} {key : String}

theorem mem_signatures {ops : List Operation} :
    key ∈ signatures ops ↔ ∃ op ∈ ops, op.signatureKey = key := by
  rw [signatures, Table.mem_keys_ofList]
  simp only [List.mem_map, exists_exists_and_eq_and]

theorem ascending_signatures (ops : List Operation) : (signatures ops).Pairwise (· < ·) := by
  rw [signatures]
  exact Table.ascending _

theorem nodup_signatures (ops : List Operation) : (signatures ops).Nodup :=
  (ascending_signatures ops).imp String.ne_of_lt

/-! ### Ids in the order of the bean class -/

/-- The exposed signatures that the bean class lacks, in ascending order. -/
def lacking (exposed bean : List Operation) : List String :=
  (signatures exposed).filter (!(signatures bean).contains ·)

theorem mem_lacking :
    key ∈ lacking exposed bean ↔ key ∈ signatures exposed ∧ key ∉ signatures bean := by
  simp [lacking]

theorem nodup_numbered (exposed bean : List Operation) :
    (signatures bean ++ lacking exposed bean).Nodup :=
  (nodup_signatures bean).append ((nodup_signatures exposed).filter _) fun _ hbean hlacking =>
    (mem_lacking.1 hlacking).2 hbean

/-- What is found in a numbered list is the first place. -/
theorem find?_zipIdx (l : List String) (n : Nat) :
    (l.zipIdx n).find? (·.1 == key) = (l.idxOf? key).map fun i => (key, n + i) := by
  induction l generalizing n with
  | nil => rfl
  | cons k rest ih =>
    rw [List.zipIdx_cons, List.find?_cons, List.idxOf?_cons, ih]
    cases hk : k == key with
    | true => simp [beq_iff_eq.1 hk]
    | false =>
      rw [if_neg Bool.false_ne_true, Option.map_map]
      exact congrArg (Option.map · _) (funext fun i => by simp; omega)

/-- What is found under a key when only some keys are kept. -/
theorem find?_filter_keys {α : Type} (keys : List String) (l : List (String × α)) :
    (l.filter fun p => keys.contains p.1).find? (·.1 == key) =
      if key ∈ keys then l.find? (·.1 == key) else none := by
  rw [List.find?_filter]
  split
  · rename_i hkey
    refine congrArg (l.find? ·) (funext fun p => ?_)
    by_cases hp : p.1 = key
    · simp [hp, hkey]
    · simp [hp]
  · rename_i hkey
    refine List.find?_eq_none.2 fun p _ hp => ?_
    simp only [decide_eq_true_eq, beq_iff_eq] at hp
    exact hkey (hp.2 ▸ List.contains_iff_mem.1 hp.1)

/-- A signature that the view does not expose has no id. The id of one that it exposes is its place
    among the signatures of the bean class and, behind them, those that this lacks. -/
theorem get?_ofBean_eq_idxOf? (exposed bean : List Operation) (key : String) :
    (ofBean exposed bean).get? key =
      if key ∈ signatures exposed then
        (signatures bean ++ lacking exposed bean).idxOf? key
      else none := by
  have hofBean : ofBean exposed bean =
      .ofList ((signatures bean ++ lacking exposed bean).zipIdx.filter
        fun p => (signatures exposed).contains p.1) := rfl
  have hkeys : ((signatures bean ++ lacking exposed bean).zipIdx.map (·.1)).Nodup := by
    rw [List.zipIdx_map_fst]
    exact nodup_numbered exposed bean
  rw [hofBean, Table.get?_ofList (hkeys.sublist (List.filter_sublist.map _)), find?_filter_keys]
  split
  · rw [find?_zipIdx, Option.map_map]
    simp [Function.comp_def]
  · rfl

/-- The place of a signature that the bean class lacks is behind all of the bean class. -/
theorem get?_ofBean (exposed bean : List Operation) (key : String) :
    (ofBean exposed bean).get? key =
      if key ∈ signatures exposed then
        some (if key ∈ signatures bean then (signatures bean).idxOf key
          else (lacking exposed bean).idxOf key + (signatures bean).length)
      else none := by
  rw [get?_ofBean_eq_idxOf?]
  split
  · rename_i hexposed
    have hmem : key ∈ signatures bean ++ lacking exposed bean := by
      by_cases hbean : key ∈ signatures bean
      · exact List.mem_append_left _ hbean
      · exact List.mem_append_right _ (mem_lacking.2 ⟨hexposed, hbean⟩)
    obtain ⟨id, hid⟩ := Option.isSome_iff_exists.1 (List.isSome_idxOf?.2 hmem)
    rw [hid, ← List.idxOf_append, List.idxOf_eq_getD_idxOf?, hid, Option.getD_some]
  · rfl

/-! ### Ids in the order of the container -/

/-- The place of a signature in the list of the container, next to the signature. -/
def placed (all : List Operation) (key : String) : Except String (String × Nat) :=
  match (all.map (·.signatureKey)).idxOf? key with
  | some id => .ok (key, id)
  | none => .error key

theorem placed_eq_ok {p : String × Nat} :
    placed all key = .ok p ↔ p.1 = key ∧ (all.map (·.signatureKey)).idxOf? key = some p.2 := by
  rw [placed]
  cases hid : (all.map (·.signatureKey)).idxOf? key with
  | none => simp
  | some id => simp [Prod.ext_iff, eq_comm]

theorem map_fst_placed {keys : List String} {ids : List (String × Nat)}
    (hids : List.Forall₂ (fun key p => placed all key = .ok p) keys ids) :
    ids.map (·.1) = keys := by
  induction hids with
  | nil => rfl
  | cons hp _ ih => rw [List.map_cons, ih, (placed_eq_ok.1 hp).1]

theorem find?_placed {keys : List String} {ids : List (String × Nat)}
    (hids : List.Forall₂ (fun key p => placed all key = .ok p) keys ids) :
    (ids.find? (·.1 == key)).map (·.2) =
      if key ∈ keys then (all.map (·.signatureKey)).idxOf? key else none := by
  induction hids with
  | nil => rfl
  | @cons k p _ _ hp _ ih =>
    obtain ⟨rfl, hid⟩ := placed_eq_ok.1 hp
    rw [List.find?_cons]
    by_cases hkey : p.1 = key
    · simp [← hkey, hid]
    · simp only [beq_false_of_ne hkey, ih, List.mem_cons, Ne.symm hkey, false_or]

theorem ofContainer_eq (exposed all : List Operation) : ofContainer exposed all =
    (signatures exposed).mapM (placed all) >>= fun ids => .ok (.ofList ids) := rfl

/-- The id of an exposed signature is its first place in the list of the container. -/
theorem get?_of_ofContainer {t : DispatchTable} (ht : ofContainer exposed all = .ok t)
    (key : String) :
    t.get? key =
      if key ∈ signatures exposed then (all.map (·.signatureKey)).idxOf? key else none := by
  rw [ofContainer_eq, Except.bind_eq_ok] at ht
  obtain ⟨ids, hids, ht⟩ := ht
  have hplaced := Except.forall₂_of_mapM_eq_ok hids
  have hkeys : (ids.map (·.1)).Nodup := map_fst_placed hplaced ▸ nodup_signatures exposed
  rw [← Except.ok.inj ht, Table.get?_ofList hkeys, find?_placed hplaced]

/-! ### The ids of two views -/

/-- What views make of a signature that both expose. They agree on it unless the container
    has not numbered its methods and the bean class lacks the signature: then the id is given
    by how many of the signatures that the view exposes beyond the bean class come before. -/
theorem get?_eq_iff {left right : List Operation} {t u : DispatchTable}
    (ht : build left bean all = .ok t) (hu : build right bean all = .ok u)
    (hleft : key ∈ signatures left) (hright : key ∈ signatures right) :
    t.get? key = u.get? key ↔ (all = [] → key ∉ signatures bean →
      (lacking left bean).idxOf key = (lacking right bean).idxOf key) := by
  cases all with
  | nil =>
    have hofBean : ∀ exposed v, build exposed bean [] = .ok v → v = ofBean exposed bean :=
      fun exposed v hv => (Except.ok.inj hv).symm
    rw [hofBean left t ht, hofBean right u hu, get?_ofBean, get?_ofBean, if_pos hleft,
      if_pos hright]
    split
    · simp [*]
    · simp [*]
  | cons op rest =>
    rw [get?_of_ofContainer ht, get?_of_ofContainer hu, if_pos hleft, if_pos hright]
    simp

/-- A local home that has finders next to `create` numbers it otherwise than a remote home
    that has not, as the bean class has neither. -/
example :
    ((build [{ name := "create" }, { name := "activeAccounts" }] [{ name := "balance" }] []).map
      (·.get? "create()"), (build [{ name := "create" }] [{ name := "balance" }] []).map
      (·.get? "create()")) = (.ok (some 2), .ok (some 1)) := by decide

end ComponentViews.DispatchTable
