import ComponentViews.Hierarchy.Standard
import ComponentViews.Proofs.WireName

/-!
# Wire names do not depend on the order of the operations

What names are assigned does not depend on who declares an operation, or with which modifiers
(`NameCandidate.toOption_settle`): each pass commutes with forgetting them (`unplaced`). What
is left of the candidates depends only on the set of operations (`map_unplaced_ofOperations`),
and so do the names (`WireName.assign_order`).

Conflicts do tell who declares the operations, so that they are compared only where each
signature stands once (`ofOperations_perm`).
-/

namespace ComponentViews

/-! ### Forgetting the place of an operation -/

/-- The operation without the place where it is declared. -/
def Operation.unplaced (op : Operation) : Operation :=
  { op with owner := "", modifiers := .interfaceMethod }

/-- The reader without the place of its operation. -/
def PropertyReader.unplaced (r : PropertyReader) : PropertyReader := { r with op := r.op.unplaced }

/-- The candidate without the place of its operation. -/
def NameCandidate.unplaced (c : NameCandidate) : NameCandidate := { c with op := c.op.unplaced }

/-! ### Results of computations that may fail -/

section

variable {ε ε' α α' β β' : Type}

/-- What follows a step commutes if the step does. -/
theorem Except.toOption_bind {x : Except ε α} {x' : Except ε α'} {f : α → Except ε β}
    {f' : α' → Except ε β'} {g : α → α'} {k : β → β'} (hx : x'.toOption = x.toOption.map g)
    (hf : ∀ a, (f' (g a)).toOption = (f a).toOption.map k) :
    (x' >>= f').toOption = (x >>= f).toOption.map k := by
  cases x with
  | error e =>
    cases x' with
    | error e' => rfl
    | ok a' => cases hx
  | ok a =>
    cases x' with
    | error e' => cases hx
    | ok a' =>
      obtain rfl : a' = g a := Option.some.inj hx
      exact hf a

theorem Except.toOption_mapM {f : α → Except ε β} {f' : α' → Except ε β'} {g : α → α'} {k : β → β'}
    (hf : ∀ a, (f' (g a)).toOption = (f a).toOption.map k) (xs : List α) :
    ((xs.map g).mapM f').toOption = (xs.mapM f).toOption.map (List.map k) := by
  induction xs with
  | nil => rfl
  | cons x xs ih =>
    rw [List.map_cons, List.mapM_cons, List.mapM_cons]
    exact toOption_bind (hf x) fun y => toOption_bind ih fun ys => rfl

end

theorem List.lookup_map_snd {κ α β : Type} [BEq κ] (f : α → β) (k : κ) (l : List (κ × α)) :
    (l.map (Prod.map id f)).lookup k = (l.lookup k).map f := by
  induction l with
  | nil => rfl
  | cons e l ih =>
    obtain ⟨k', a⟩ := e
    rw [List.map_cons, Prod.map_apply, id_eq, List.lookup_cons, List.lookup_cons, ih]
    cases k == k' <;> rfl

namespace PropertyReader

theorem ofOperation?_unplaced (h : Hierarchy) (op : Operation) :
    ofOperation? h op.unplaced = (ofOperation? h op).map unplaced := by
  have hword : ∀ lead, wordAfter? lead op.unplaced = wordAfter? lead op := fun _ => rfl
  rw [ofOperation?, ofOperation?, hword, hword]
  dsimp only [Operation.unplaced]
  split
  · rename_i hother
    exact if_pos hother
  rename_i hmay
  refine (if_neg hmay).trans ?_
  cases wordAfter? "get" op with
  | some word => rfl
  | none =>
    dsimp only
    rw [apply_ite (Option.map unplaced), Option.map_map]
    rfl

theorem choose_unplaced (property : String) (r : PropertyReader) (others : List PropertyReader) :
    (choose property r.unplaced (others.map unplaced)).toOption =
      (choose property r others).toOption.map unplaced := by
  have hodd : (others.map unplaced).find? (·.word != r.unplaced.word) =
      (others.find? (·.word != r.word)).map unplaced := List.find?_map ..
  have hasks : (r.unplaced :: others.map unplaced).find? (·.asks) =
      ((r :: others).find? (·.asks)).map unplaced := List.find?_map (l := r :: others) ..
  rw [choose, choose, hodd, hasks]
  cases others.find? (·.word != r.word) with
  | some odd => rfl
  | none => cases (r :: others).find? (·.asks) <;> rfl

end PropertyReader

namespace NameCandidate

variable {h : Hierarchy}

/-! ### Properties -/

theorem readersByProperty_unplaced (cands : List NameCandidate) :
    readersByProperty h (cands.map unplaced) =
      (readersByProperty h cands).map (Prod.map PropertyReader.unplaced
        (List.map PropertyReader.unplaced)) := by
  have hreaders : (cands.map unplaced).filterMap (fun c => PropertyReader.ofOperation? h c.op) =
      (cands.filterMap fun c => PropertyReader.ofOperation? h c.op).map
        PropertyReader.unplaced := by
    rw [List.filterMap_map, List.map_filterMap]
    exact List.filterMap_congr fun c _ => PropertyReader.ofOperation?_unplaced h c.op
  rw [readersByProperty, readersByProperty, hreaders]
  -- The reader that is entered next does not change what the table forgets.
  refine Table.foldl_alter_map (e := PropertyReader.unplaced) (fun _ => rfl)
    (fun r readers => ?_) _ ∅
  cases readers with
  | none => rfl
  | some readers => simp [Prod.map]

theorem toOption_propertyReaders (cands : List NameCandidate) :
    (propertyReaders h (cands.map unplaced)).toOption =
      (propertyReaders h cands).toOption.map
        (List.map (Prod.map id PropertyReader.unplaced)) := by
  rw [propertyReaders, readersByProperty_unplaced]
  refine Except.toOption_mapM (fun e => ?_) _
  exact Except.toOption_bind (PropertyReader.choose_unplaced _ _ _) fun r => rfl

theorem foldProperty_unplaced (readers : List (String × PropertyReader)) (c : NameCandidate) :
    foldProperty (readers.map (Prod.map id PropertyReader.unplaced)) c.unplaced =
      (foldProperty readers c).unplaced := by
  have hread : (readers.map (Prod.map id PropertyReader.unplaced)).find?
        (·.2.op.signatureKey == c.unplaced.key) =
      (readers.find? (·.2.op.signatureKey == c.key)).map
        (Prod.map id PropertyReader.unplaced) := List.find?_map ..
  have hwritten : writtenProperty? (readers.map (Prod.map id PropertyReader.unplaced))
      c.unplaced.op = writtenProperty? readers c.op := by
    have hword : writerWord? c.unplaced.op = writerWord? c.op := rfl
    rw [writtenProperty?, writtenProperty?, hword]
    cases writerWord? c.op with
    | none => rfl
    | some word =>
      dsimp only
      rw [List.lookup_map_snd]
      cases readers.lookup (propertyName word) <;> rfl
  rw [foldProperty, foldProperty, hread, hwritten]
  cases readers.find? (·.2.op.signatureKey == c.key) with
  | some e => rfl
  | none => cases writtenProperty? readers c.op <;> rfl

/-- A renaming that leaves the operations alone commutes with forgetting their places. -/
theorem map_unplaced_comm {f f' : NameCandidate → NameCandidate}
    (hf : ∀ c, f' c.unplaced = (f c).unplaced) (cands : List NameCandidate) :
    (cands.map unplaced).map f' = (cands.map f).map unplaced := by
  rw [List.map_map, List.map_map]
  exact List.map_congr_left fun c _ => hf c

theorem toOption_foldProperties (cands : List NameCandidate) :
    (foldProperties h (cands.map unplaced)).toOption =
      (foldProperties h cands).toOption.map (List.map unplaced) := by
  refine Except.toOption_bind (toOption_propertyReaders cands) fun readers => ?_
  rw [map_unplaced_comm (foldProperty_unplaced readers)]
  rfl

/-! ### Passes over all names -/

theorem foldCase_unplaced (cands : List NameCandidate) :
    foldCase (cands.map unplaced) = (foldCase cands).map unplaced := by
  rw [foldCase, foldCase, List.map_map, List.map_map, List.map_map]
  refine List.map_congr_left fun c _ => ?_
  simp only [Function.comp_apply]
  rw [apply_ite unplaced]
  rfl

theorem disambiguateOverloads_unplaced (cands : List NameCandidate) :
    disambiguateOverloads (cands.map unplaced) = (disambiguateOverloads cands).map unplaced := by
  rw [disambiguateOverloads, disambiguateOverloads, List.map_map, List.map_map]
  refine List.map_congr_left fun c _ => ?_
  simp only [Function.comp_apply, List.countP_map]
  rw [apply_ite unplaced]
  rfl

theorem toOption_avoidOwnerName (owner : String) (compat : Bool)
    (done cands : List NameCandidate) :
    (avoidOwnerName owner compat (done.map unplaced) (cands.map unplaced)).toOption =
      (avoidOwnerName owner compat done cands).toOption.map (List.map unplaced) := by
  induction cands generalizing done with
  | nil => rfl
  | cons c rest ih =>
    have hnext : ∀ d : NameCandidate,
        (avoidOwnerName owner compat (done.map unplaced ++ [d.unplaced])
          (rest.map unplaced)).toOption =
        (avoidOwnerName owner compat (done ++ [d]) rest).toOption.map (List.map unplaced) := by
      intro d
      rw [← ih, List.map_append, List.map_singleton]
    -- Whether a correction is taken depends on names and roles, which are kept.
    have htaken : (done.map unplaced ++ rest.map unplaced).find?
          (fun o => o.foldedWith o.name == c.unplaced.foldedWith (c.unplaced.name ++ "_")) =
        ((done ++ rest).find? fun o =>
          o.foldedWith o.name == c.foldedWith (c.name ++ "_")).map unplaced := by
      rw [← List.map_append]
      exact List.find?_map ..
    have hown : (c.unplaced.foldedWith c.unplaced.name != owner) =
        (c.foldedWith c.name != owner) := rfl
    rw [List.map_cons, avoidOwnerName, avoidOwnerName, hown]
    split
    · exact hnext c
    simp only [htaken]
    cases (done ++ rest).find? fun o => o.foldedWith o.name == c.foldedWith (c.name ++ "_") with
    | none => exact hnext { c with name := c.name ++ "_" }
    | some o =>
      rw [Option.map_some]
      dsimp only
      split
      · exact hnext { c with altName := some (c.name ++ "_") }
      · rfl

theorem toOption_avoidOwner (owner : Option String) (compat : Bool) (cands : List NameCandidate) :
    (avoidOwner owner compat (cands.map unplaced)).toOption =
      (avoidOwner owner compat cands).toOption.map (List.map unplaced) := by
  cases owner with
  | none => rfl
  | some owner => exact toOption_avoidOwnerName _ compat [] cands

theorem toOption_checkDistinct (seen : List (String × Operation)) (cands : List NameCandidate) :
    (checkDistinct (seen.map (Prod.map id Operation.unplaced)) (cands.map unplaced)).toOption =
      (checkDistinct seen cands).toOption := by
  induction cands generalizing seen with
  | nil => rfl
  | cons c rest ih =>
    have hname : c.unplaced.name = c.name := rfl
    rw [List.map_cons, checkDistinct, checkDistinct, hname, List.lookup_map_snd]
    cases seen.lookup (Text.lowercase c.name) with
    | some first => rfl
    | none => exact ih ((Text.lowercase c.name, c.op) :: seen)

/-- Which names are settled on does not depend on the places of the operations. -/
theorem toOption_settle (owner : Option String) (compat : Bool) (cands : List NameCandidate) :
    (settle h owner compat (cands.map unplaced)).toOption =
      (settle h owner compat cands).toOption.map (List.map unplaced) := by
  rw [settle, settle]
  refine Except.toOption_bind (toOption_foldProperties cands) fun folded => ?_
  rw [foldCase_unplaced, map_unplaced_comm (f := escapeName) fun _ => rfl,
    disambiguateOverloads_unplaced]
  refine Except.toOption_bind (toOption_avoidOwner owner compat _) fun avoided => ?_
  rw [map_unplaced_comm (f := leadName) fun _ => rfl]
  refine Except.toOption_bind (g := id) ?_ fun _ => rfl
  rw [Option.map_id]
  exact toOption_checkDistinct [] _

/-! ### Which candidates there are -/

/-- One after the other, the operations of a set in which each signature has one operation, up to
    its place, are the same candidates. -/
theorem map_unplaced_ofOperations {ops others : List Operation}
    (hkeys : ∀ k, k ∈ ops.map (·.signatureKey) ↔ k ∈ others.map (·.signatureKey))
    (hsame : ∀ op ∈ ops, ∀ other ∈ others, op.signatureKey = other.signatureKey →
      op.unplaced = other.unplaced) :
    (ofOperations ops).map unplaced = (ofOperations others).map unplaced := by
  have hvalues : ∀ t : Table NameCandidate, t.values.map unplaced = (t.map unplaced).values := by
    intro t
    rw [Table.values, Table.values, Table.map, List.map_map, List.map_map]
    rfl
  rw [ofOperations, ofOperations, hvalues, hvalues]
  -- Both tables are in the order of their keys, so it is enough to compare what is found.
  refine congrArg Table.values (Table.ext_get? fun k => ?_)
  rw [Table.get?_map, Table.get?_map, get?_insertAll, get?_insertAll]
  have hnone : ∀ {l : List Operation}, l.find? (·.signatureKey == k) = none →
      k ∉ l.map (·.signatureKey) := by
    intro l hl hk
    obtain ⟨op, hop, rfl⟩ := List.mem_map.1 hk
    exact List.find?_eq_none.1 hl op hop (beq_self_eq_true _)
  have hsome : ∀ {l : List Operation} {op : Operation}, l.find? (·.signatureKey == k) = some op →
      op ∈ l ∧ op.signatureKey = k := by
    intro l op hl
    have hk := List.find?_some hl
    rw [beq_iff_eq] at hk
    exact ⟨List.mem_of_find?_eq_some hl, hk⟩
  cases hop : ops.find? (·.signatureKey == k) with
  | none =>
    cases hother : others.find? (·.signatureKey == k) with
    | none => rfl
    | some other =>
      obtain ⟨hmem, hk⟩ := hsome hother
      exact absurd ((hkeys k).2 (hk ▸ List.mem_map_of_mem hmem)) (hnone hop)
  | some op =>
    obtain ⟨hmem, hk⟩ := hsome hop
    cases hother : others.find? (·.signatureKey == k) with
    | none => exact absurd ((hkeys k).1 (hk ▸ List.mem_map_of_mem hmem)) (hnone hother)
    | some other =>
      obtain ⟨hmem', hk'⟩ := hsome hother
      have hunplaced := hsame op hmem other hmem' (hk.trans hk'.symm)
      have hname : op.name = other.name := congrArg (·.name) hunplaced
      change some (unplaced (ofOperation op)) = some (unplaced (ofOperation other))
      simp only [unplaced, ofOperation, hunplaced, hname]

/-- Operations of different signatures are the same candidates in any order. -/
theorem ofOperations_perm {ops others : List Operation}
    (hops : (ops.map (·.signatureKey)).Nodup) (hperm : ops.Perm others) :
    ofOperations ops = ofOperations others := by
  rw [ofOperations, ofOperations]
  refine congrArg Table.values (Table.ext_get? fun k => ?_)
  rw [get?_insertAll, get?_insertAll]
  congr 2
  -- Only one operation can be found.
  have hfound : ∀ {l l' : List Operation} {op : Operation}, l.Perm l' →
      (l'.map (·.signatureKey)).Nodup → l.find? (·.signatureKey == k) = some op →
      l'.find? (·.signatureKey == k) = some op := by
    intro l l' op hl hl' hop
    have hk := List.find?_some hop
    rw [beq_iff_eq] at hk
    have hmem : op ∈ l' := hl.mem_iff.1 (List.mem_of_find?_eq_some hop)
    have hsome : (l'.find? (·.signatureKey == k)).isSome = true :=
      List.find?_isSome.2 ⟨op, hmem, beq_iff_eq.2 hk⟩
    obtain ⟨op', hop'⟩ := Option.isSome_iff_exists.1 hsome
    have hk' := List.find?_some hop'
    rw [beq_iff_eq] at hk'
    rw [hop', List.inj_on_of_nodup_map hl' (List.mem_of_find?_eq_some hop') hmem
      (hk'.trans hk.symm)]
  have hothers : (others.map (·.signatureKey)).Nodup := (hperm.map _).nodup_iff.1 hops
  cases hother : others.find? (·.signatureKey == k) with
  | some other => exact hfound hperm.symm hops hother
  | none =>
    cases hop : ops.find? (·.signatureKey == k) with
    | none => rfl
    | some op => rw [hfound hperm hothers hop] at hother; cases hother

end NameCandidate

namespace WireName

open NameCandidate

theorem nameOf_unplaced (settled : List NameCandidate) (k : String) :
    nameOf (settled.map unplaced) k = nameOf settled k := by
  rw [nameOf, nameOf, List.map_map]
  rfl

/-- Two lists with the same operations, up to where these are declared and how often they are
    listed, fail both or give each signature the same name; and where no signature is listed
    twice, a list fails as it does in any order. -/
theorem assign_order {h : Hierarchy} {owner : Option String} {compat : Bool}
    {ops others : List Operation}
    (hkeys : ∀ k, k ∈ ops.map (·.signatureKey) ↔ k ∈ others.map (·.signatureKey))
    (hsame : ∀ op ∈ ops ++ others, ∀ other ∈ ops ++ others,
      op.signatureKey = other.signatureKey → op.unplaced = other.unplaced) :
    ((∃ e e', assign h owner compat ops = .error e ∧ assign h owner compat others = .error e') ∨
      ∃ nameOf : String → WireName,
        assign h owner compat ops = .ok (ops.map fun op => nameOf op.signatureKey) ∧
        assign h owner compat others = .ok (others.map fun op => nameOf op.signatureKey)) ∧
    ((ops.map (·.signatureKey)).Nodup → (others.map (·.signatureKey)).Nodup → ops.Perm others →
      ∀ e, assign h owner compat ops = .error e ↔ assign h owner compat others = .error e) := by
  constructor
  · have hcands : (ofOperations ops).map unplaced = (ofOperations others).map unplaced :=
      map_unplaced_ofOperations hkeys fun op hop other hother =>
        hsame op (List.mem_append_left _ hop) other (List.mem_append_right _ hother)
    have hsettle : (settle h owner compat (ofOperations ops)).toOption.map (List.map unplaced) =
        (settle h owner compat (ofOperations others)).toOption.map (List.map unplaced) := by
      rw [← toOption_settle, ← toOption_settle, hcands]
    -- Settling sees of an operation only what both lists have in common.
    cases hs : settle h owner compat (ofOperations ops) with
    | error e =>
      cases hs' : settle h owner compat (ofOperations others) with
      | error e' =>
        exact .inl ⟨e, e', by rw [assign, hs]; rfl, by rw [assign, hs']; rfl⟩
      | ok settled' =>
        rw [hs, hs'] at hsettle
        cases hsettle
    | ok settled =>
      cases hs' : settle h owner compat (ofOperations others) with
      | error e' =>
        rw [hs, hs'] at hsettle
        cases hsettle
      | ok settled' =>
        rw [hs, hs'] at hsettle
        have hunplaced : settled.map unplaced = settled'.map unplaced := Option.some.inj hsettle
        have hname : ∀ k, nameOf settled' k = nameOf settled k := by
          intro k
          rw [← nameOf_unplaced, ← hunplaced, nameOf_unplaced]
        refine .inr ⟨nameOf settled, ?_, ?_⟩
        · rw [assign_of_settle hs]
        · rw [assign_of_settle hs']
          simp only [hname]
  · intro hops _ hperm e
    rw [assign, assign, ofOperations_perm hops hperm]
    cases settle h owner compat (ofOperations others) <;>
      simp [bind, Except.bind, pure, Except.pure]

/-- A property and two overloads. -/
def listedOperations : List Operation :=
  [{ name := "getCount", result := .int },
    { name := "find", params := [.string] },
    { name := "find", params := [.int] }]

/-- The same in another order, with an overload once more as a class has it. -/
def relistedOperations : List Operation :=
  [{ name := "find", params := [.int], owner := "acme.Base", modifiers := ⟨Modifiers.publicBit⟩ },
    { name := "find", params := [.string] },
    { name := "getCount", result := .int, owner := "acme.Account" },
    { name := "find", params := [.int] }]

theorem assign_order_relisted :
    (∀ k, k ∈ listedOperations.map (·.signatureKey) ↔
      k ∈ relistedOperations.map (·.signatureKey)) ∧
    (∀ op ∈ listedOperations ++ relistedOperations,
      ∀ other ∈ listedOperations ++ relistedOperations,
      op.signatureKey = other.signatureKey → op.unplaced = other.unplaced) ∧
    ((∃ e e', assign .standard none false listedOperations = .error e ∧
        assign .standard none false relistedOperations = .error e') ∨
      ∃ nameOf : String → WireName,
        assign .standard none false listedOperations =
          .ok (listedOperations.map fun op => nameOf op.signatureKey) ∧
        assign .standard none false relistedOperations =
          .ok (relistedOperations.map fun op => nameOf op.signatureKey)) ∧
    ((listedOperations.map (·.signatureKey)).Nodup →
      (relistedOperations.map (·.signatureKey)).Nodup →
      listedOperations.Perm relistedOperations →
      ∀ e, assign .standard none false listedOperations = .error e ↔
        assign .standard none false relistedOperations = .error e) := by
  have hkeys : ∀ k, k ∈ listedOperations.map (·.signatureKey) ↔
      k ∈ relistedOperations.map (·.signatureKey) := by
    have hmem : ∀ k ∈ listedOperations.map (·.signatureKey),
        k ∈ relistedOperations.map (·.signatureKey) := by decide
    have hmem' : ∀ k ∈ relistedOperations.map (·.signatureKey),
        k ∈ listedOperations.map (·.signatureKey) := by decide
    exact fun k => ⟨hmem k, hmem' k⟩
  have hsame : ∀ op ∈ listedOperations ++ relistedOperations,
      ∀ other ∈ listedOperations ++ relistedOperations,
      op.signatureKey = other.signatureKey → op.unplaced = other.unplaced := by decide
  exact ⟨hkeys, hsame, assign_order hkeys hsame⟩

end WireName

end ComponentViews
