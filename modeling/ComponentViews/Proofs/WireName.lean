import ComponentViews.Proofs.Table
import ComponentViews.WireName.Assign

/-!
# Wire names tell operations apart

However the candidates are renamed on the way, each stays with its operation
(`ops_settle`), and the names that are settled on in the end are checked to differ otherwise
than by letter case (`nodup_settle`). There is a candidate for each signature, so that each
operation is given the name of one (`settled_of_assign`) and the names of operations of different
signatures differ otherwise than by letter case (`nodup_lowercase_assign`).
-/

namespace ComponentViews

namespace NameCandidate

variable {cands settled : List NameCandidate}

/-- The operations that the candidates stand for. -/
def ops (cands : List NameCandidate) : List Operation := cands.map (·.op)

/-! ### Renaming keeps the operations -/

theorem ops_map {f : NameCandidate → NameCandidate} (hf : ∀ c, (f c).op = c.op) :
    ops (cands.map f) = ops cands := by
  rw [ops, ops, List.map_map]
  exact List.map_congr_left fun c _ => hf c

theorem op_foldProperty (readers : List (String × PropertyReader)) (c : NameCandidate) :
    (foldProperty readers c).op = c.op := by
  rw [foldProperty]
  split
  · rfl
  · split <;> rfl

theorem ops_foldCase : ops (foldCase cands) = ops cands :=
  ops_map fun c => by
    dsimp only
    split <;> rfl

theorem ops_disambiguateOverloads : ops (disambiguateOverloads cands) = ops cands :=
  ops_map fun c => by
    split <;> rfl

/-- What becomes of a candidate that is kept away from `owner`, a name in lower case: it
    stays, gets an underscore, or gets the name with the underscore as an alias. -/
inductive AvoidedName (owner : String) (compat : Bool) (c : NameCandidate) : NameCandidate → Prop
  | keep (hne : c.foldedWith c.name ≠ owner) : AvoidedName owner compat c c
  | correct (heq : c.foldedWith c.name = owner) :
    AvoidedName owner compat c { c with name := c.name ++ "_" }
  | addAlias (heq : c.foldedWith c.name = owner) (hcompat : compat = true) :
    AvoidedName owner compat c { c with altName := some (c.name ++ "_") }

theorem AvoidedName.op_eq {owner : String} {compat : Bool} {c d : NameCandidate}
    (h : AvoidedName owner compat c d) : d.op = c.op := by
  cases h <;> rfl

theorem avoided_of_avoidOwnerName {owner : String} {compat : Bool} {done : List NameCandidate}
    (hs : avoidOwnerName owner compat done cands = .ok settled) :
    ∃ avoided, settled = done ++ avoided ∧
      List.Forall₂ (AvoidedName owner compat) cands avoided := by
  induction cands generalizing done with
  | nil =>
    rw [avoidOwnerName] at hs
    exact ⟨[], by rw [← Except.ok.inj hs, List.append_nil], .nil⟩
  | cons c rest ih =>
    -- One more candidate is done, in the place of `c`.
    have hnext : ∀ {d : NameCandidate}, AvoidedName owner compat c d →
        avoidOwnerName owner compat (done ++ [d]) rest = .ok settled → ∃ avoided,
          settled = done ++ avoided ∧
            List.Forall₂ (AvoidedName owner compat) (c :: rest) avoided := by
      intro d hd hrest
      obtain ⟨avoided, rfl, havoided⟩ := ih hrest
      exact ⟨d :: avoided, List.append_assoc done [d] avoided, .cons hd havoided⟩
    rw [avoidOwnerName] at hs
    split at hs
    · rename_i hne
      exact hnext (.keep (bne_iff_ne.1 hne)) hs
    rename_i heq
    have hname : c.foldedWith c.name = owner := by simpa using heq
    simp only at hs
    split at hs
    · exact hnext (.correct hname) hs
    split at hs
    · rename_i hcompat
      exact hnext (.addAlias hname hcompat) hs
    · cases hs

theorem ops_avoidOwner {owner : Option String} {compat : Bool}
    (hs : avoidOwner owner compat cands = .ok settled) : ops settled = ops cands := by
  cases owner with
  | none => rw [← Except.ok.inj hs]
  | some owner =>
    obtain ⟨avoided, rfl, havoided⟩ := avoided_of_avoidOwnerName hs
    rw [ops, ops]
    clear hs
    induction havoided with
    | nil => rfl
    | cons h _ ih => rw [List.map_cons, List.map_cons, ih, h.op_eq]

/-! ### Names that are settled on -/

/-- Names that pass the check differ otherwise than by letter case, also from those before. -/
theorem nodup_of_checkDistinct {seen : List (String × Operation)}
    (hs : checkDistinct seen cands = .ok ()) :
    (cands.map fun c => Text.lowercase c.name).Nodup ∧
      ∀ c ∈ cands, seen.lookup (Text.lowercase c.name) = none := by
  induction cands generalizing seen with
  | nil => exact ⟨List.nodup_nil, fun c hc => absurd hc List.not_mem_nil⟩
  | cons c rest ih =>
    rw [checkDistinct] at hs
    split at hs
    · cases hs
    rename_i hnew
    obtain ⟨hnodup, hrest⟩ := ih hs
    refine ⟨List.nodup_cons.2 ⟨fun hmem => ?_, hnodup⟩, fun d hd => ?_⟩
    · obtain ⟨d, hd, hname⟩ := List.mem_map.1 hmem
      have hlookup := hrest d hd
      rw [hname, List.lookup_cons_self] at hlookup
      cases hlookup
    · rcases List.mem_cons.1 hd with rfl | hd
      · exact hnew
      · have hlookup := hrest d hd
        rw [List.lookup_cons] at hlookup
        split at hlookup
        · cases hlookup
        · exact hlookup

/-- Names that differ otherwise than by letter case, also from those before, pass the check. -/
theorem checkDistinct_of_nodup {seen : List (String × Operation)}
    (hnodup : (cands.map fun c => Text.lowercase c.name).Nodup)
    (hnew : ∀ c ∈ cands, seen.lookup (Text.lowercase c.name) = none) :
    checkDistinct seen cands = .ok () := by
  induction cands generalizing seen with
  | nil => rfl
  | cons c rest ih =>
    rw [List.map_cons, List.nodup_cons] at hnodup
    rw [checkDistinct, hnew c List.mem_cons_self]
    refine ih hnodup.2 fun d hd => ?_
    have hne : Text.lowercase d.name ≠ Text.lowercase c.name :=
      fun heq => hnodup.1 (heq ▸ List.mem_map_of_mem hd)
    rw [List.lookup_cons, beq_eq_false_iff_ne.2 hne]
    exact hnew d (List.mem_cons_of_mem c hd)

/-- The passes that settle names, one by one. -/
theorem passes_of_settle {h : Hierarchy} {owner : Option String} {compat : Bool}
    (hs : settle h owner compat cands = .ok settled) :
    ∃ readers avoided, propertyReaders h cands = .ok readers ∧
      avoidOwner owner compat (disambiguateOverloads
        ((foldCase (cands.map (foldProperty readers))).map escapeName)) = .ok avoided ∧
      settled = avoided.map leadName ∧ checkDistinct [] settled = .ok () := by
  rw [settle, foldProperties] at hs
  cases hreaders : propertyReaders h cands with
  | error conflict => simp [hreaders, bind, Except.bind] at hs
  | ok readers =>
    simp only [hreaders, bind, Except.bind, pure, Except.pure] at hs
    cases havoid : avoidOwner owner compat (disambiguateOverloads
        ((foldCase (cands.map (foldProperty readers))).map escapeName)) with
    | error conflict => simp [havoid] at hs
    | ok avoided =>
      simp only [havoid] at hs
      cases hcheck : checkDistinct [] (avoided.map leadName) with
      | error conflict => simp [hcheck] at hs
      | ok u =>
        simp only [hcheck, Except.ok.injEq] at hs
        exact ⟨readers, avoided, rfl, havoid, hs.symm, hs ▸ hcheck⟩

/-- What is settled on stands for the same operations. -/
theorem ops_settle {h : Hierarchy} {owner : Option String} {compat : Bool}
    (hs : settle h owner compat cands = .ok settled) : ops settled = ops cands := by
  obtain ⟨readers, avoided, -, havoid, rfl, -⟩ := passes_of_settle hs
  rw [ops_map (f := leadName) fun _ => rfl, ops_avoidOwner havoid, ops_disambiguateOverloads,
    ops_map (f := escapeName) fun _ => rfl, ops_foldCase, ops_map (op_foldProperty readers)]

/-- Names settled on differ otherwise than by letter case. -/
theorem nodup_settle {h : Hierarchy} {owner : Option String} {compat : Bool}
    (hs : settle h owner compat cands = .ok settled) :
    (settled.map fun c => Text.lowercase c.name).Nodup := by
  obtain ⟨-, -, -, -, -, hcheck⟩ := passes_of_settle hs
  exact (nodup_of_checkDistinct hcheck).1

/-! ### Candidates for operations -/

theorem get?_insertAll (operations : List Operation) (t : Table NameCandidate) (k : String) :
    (operations.foldl (fun t op => t.insertIfNew op.signatureKey (ofOperation op)) t).get? k =
      (t.get? k).or ((operations.find? (·.signatureKey == k)).map ofOperation) :=
  Table.get?_foldl_insertIfNew (fun op => some op.signatureKey) ofOperation operations t k

/-- The candidates are the first operations of their signatures. -/
theorem mem_ofOperations {operations : List Operation} {c : NameCandidate} :
    c ∈ ofOperations operations ↔
      ∃ k, (operations.find? (·.signatureKey == k)).map ofOperation = some c := by
  have hget : ∀ k, (operations.foldl (fun t op => t.insertIfNew op.signatureKey (ofOperation op))
      (∅ : Table NameCandidate)).get? k =
        (operations.find? (·.signatureKey == k)).map ofOperation :=
    fun k => get?_insertAll operations ∅ k
  rw [ofOperations, Table.values, List.mem_map]
  constructor
  · rintro ⟨e, he, rfl⟩
    exact ⟨e.1, by rw [← hget, Table.mem_entries_iff.1 he]⟩
  · rintro ⟨k, hk⟩
    exact ⟨(k, c), Table.mem_entries_iff.2 (by rw [hget, hk]), rfl⟩

/-- There is a candidate for each signature. -/
theorem exists_ofOperations {operations : List Operation} {op : Operation}
    (hop : op ∈ operations) : ∃ c ∈ ofOperations operations, c.key = op.signatureKey := by
  have hsome : (operations.find? (·.signatureKey == op.signatureKey)).isSome = true :=
    List.find?_isSome.2 ⟨op, hop, beq_self_eq_true _⟩
  obtain ⟨first, hfirst⟩ := Option.isSome_iff_exists.1 hsome
  refine ⟨ofOperation first, mem_ofOperations.2 ⟨op.signatureKey, by rw [hfirst]; rfl⟩, ?_⟩
  have hkey := List.find?_some hfirst
  rwa [beq_iff_eq] at hkey

/-- Each candidate is an operation under its own name. -/
theorem exists_of_mem_ofOperations {operations : List Operation} {c : NameCandidate}
    (hc : c ∈ ofOperations operations) : ∃ op ∈ operations, c = ofOperation op := by
  obtain ⟨k, hk⟩ := mem_ofOperations.1 hc
  obtain ⟨op, hfind, rfl⟩ := Option.map_eq_some_iff.1 hk
  exact ⟨op, List.mem_of_find?_eq_some hfind, rfl⟩

/-- No two candidates have one signature. -/
theorem nodup_keys_ofOperations (operations : List Operation) :
    ((ofOperations operations).map (·.key)).Nodup := by
  let t := operations.foldl (fun t op => t.insertIfNew op.signatureKey (ofOperation op))
    (∅ : Table NameCandidate)
  have hkeys : t.values.map (·.key) = t.entries.map (·.1) := by
    rw [Table.values, List.map_map]
    refine List.map_congr_left fun e he => ?_
    have hget := Table.mem_entries_iff.1 he
    rw [get?_insertAll] at hget
    obtain ⟨op, hfind, hop⟩ := Option.map_eq_some_iff.1 hget
    have hkey : op.signatureKey = e.1 := by simpa using List.find?_some hfind
    rw [Function.comp_apply, ← hop, ← hkey]
    rfl
  rw [ofOperations, hkeys]
  exact t.nodup_keys

theorem nodup_keys_settle {h : Hierarchy} {owner : Option String} {compat : Bool}
    {operations : List Operation}
    (hs : settle h owner compat (ofOperations operations) = .ok settled) :
    (settled.map (·.key)).Nodup := by
  have hkeys : ∀ cands : List NameCandidate, cands.map (·.key) = (ops cands).map (·.signatureKey) :=
    fun cands => by rw [ops, List.map_map]; rfl
  rw [hkeys, ops_settle hs, ← hkeys]
  exact nodup_keys_ofOperations operations

end NameCandidate

namespace WireName

open NameCandidate

variable {h : Hierarchy} {owner : Option String} {compat : Bool} {ops : List Operation}
  {names : List WireName}

/-- The name that was settled on for a signature. -/
def nameOf (settled : List NameCandidate) (k : String) : WireName :=
  ((settled.map fun c => (c.key, c.wireName)).lookup k).getD { name := k }

/-- What is found under the signature of a candidate is the name of such a candidate. -/
theorem exists_lookup {settled : List NameCandidate} {c : NameCandidate} (hc : c ∈ settled) :
    ∃ d ∈ settled, d.key = c.key ∧
      (settled.map fun c => (c.key, c.wireName)).lookup c.key = some d.wireName := by
  have hsome : ((settled.map fun c => (c.key, c.wireName)).lookup c.key).isSome := by
    rw [List.lookup_isSome_iff]
    exact ⟨_, List.mem_map_of_mem hc, beq_self_eq_true _⟩
  obtain ⟨wire, hwire⟩ := Option.isSome_iff_exists.1 hsome
  obtain ⟨before, after, hsplit, -⟩ := List.lookup_eq_some_iff.1 hwire
  have hpair : (c.key, wire) ∈ settled.map fun c => (c.key, c.wireName) := by
    rw [hsplit]
    exact List.mem_append_right _ List.mem_cons_self
  obtain ⟨d, hd, hpair⟩ := List.mem_map.1 hpair
  obtain ⟨hkey, hname⟩ := Prod.mk.inj hpair
  exact ⟨d, hd, hkey, by rw [hwire, hname]⟩

/-- There is a name for each operation among those settled on. -/
theorem lookup_of_settle {settled : List NameCandidate}
    (hsettle : settle h owner compat (ofOperations ops) = .ok settled) :
    ∀ op ∈ ops, ∃ c ∈ settled, c.key = op.signatureKey ∧
      (settled.map fun c => (c.key, c.wireName)).lookup op.signatureKey = some c.wireName := by
  intro op hop
  -- There is a candidate with the signature, and it is still there in the end.
  obtain ⟨c, hc, hkey⟩ := exists_ofOperations hop
  have hmem : c.op ∈ NameCandidate.ops settled := ops_settle hsettle ▸ List.mem_map_of_mem hc
  obtain ⟨d, hd, hdop⟩ := List.mem_map.1 hmem
  have hdkey : d.key = op.signatureKey := by
    rw [← hkey, key, key, hdop]
  rw [← hdkey]
  exact exists_lookup hd

theorem assign_of_settle {settled : List NameCandidate}
    (hsettle : settle h owner compat (ofOperations ops) = .ok settled) :
    assign h owner compat ops = .ok (ops.map fun op => nameOf settled op.signatureKey) := by
  rw [assign, hsettle]
  refine congrArg Except.ok (List.map_congr_left fun op hop => ?_)
  obtain ⟨c, -, -, hlookup⟩ := lookup_of_settle hsettle op hop
  rw [nameOf, hlookup, Option.getD_some, Option.getD_some]

/-- What is assigned is settled on for the candidates, of which there is one for each
    signature. -/
theorem settled_of_assign (hs : assign h owner compat ops = .ok names) :
    ∃ settled, settle h owner compat (ofOperations ops) = .ok settled ∧
      names = ops.map (fun op => nameOf settled op.signatureKey) ∧
      ∀ op ∈ ops, ∃ c ∈ settled, c.key = op.signatureKey ∧
        nameOf settled op.signatureKey = c.wireName := by
  cases hsettle : settle h owner compat (ofOperations ops) with
  | error conflict => simp [assign, hsettle, bind, Except.bind] at hs
  | ok settled =>
    rw [assign_of_settle hsettle] at hs
    refine ⟨settled, rfl, (Except.ok.inj hs).symm, fun op hop => ?_⟩
    obtain ⟨c, hc, hkey, hlookup⟩ := lookup_of_settle hsettle op hop
    exact ⟨c, hc, hkey, by rw [nameOf, hlookup, Option.getD_some]⟩

/-- The names of operations of different signatures differ otherwise than by letter case. -/
theorem nodup_lowercase_assign (hs : assign h owner compat ops = .ok names)
    (hops : (ops.map (·.signatureKey)).Nodup) :
    (names.map fun wire => Text.lowercase wire.name).Nodup := by
  obtain ⟨settled, hsettle, rfl, hfound⟩ := settled_of_assign hs
  rw [List.map_map, List.nodup_map_iff_inj_on (List.Nodup.of_map _ hops)]
  intro a ha b hb hab
  obtain ⟨c, hc, hckey, hcname⟩ := hfound a ha
  obtain ⟨d, hd, hdkey, hdname⟩ := hfound b hb
  simp only [Function.comp_apply, hcname, hdname] at hab
  have hcd : c = d := List.inj_on_of_nodup_map (nodup_settle hsettle) hc hd hab
  rw [hcd, hdkey] at hckey
  exact List.inj_on_of_nodup_map hops ha hb hckey.symm

/-- Operations of different signatures get different names. -/
theorem nodup_assign (hs : assign h owner compat ops = .ok names)
    (hops : (ops.map (·.signatureKey)).Nodup) :
    names.length = ops.length ∧ (names.map (·.name)).Nodup := by
  have hnodup := nodup_lowercase_assign hs hops
  have hmap : (names.map fun wire => Text.lowercase wire.name) =
      (names.map (·.name)).map Text.lowercase := by
    rw [List.map_map]
    rfl
  obtain ⟨settled, -, rfl, -⟩ := settled_of_assign hs
  exact ⟨List.length_map _, List.Nodup.of_map _ (hmap ▸ hnodup)⟩

end WireName

end ComponentViews
