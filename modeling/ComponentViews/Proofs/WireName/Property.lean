import ComponentViews.Proofs.Checks
import ComponentViews.Proofs.Table
import ComponentViews.WireName.Property

/-!
# Which operations read and write properties

For each property one reader is chosen among the operations that could read it
(`NameCandidate.propertyReaders_spec`). With that, it is settled what becomes of an operation: it
reads a property, it writes one, in agreement with the reader, or it has nothing to do with any
(`NameCandidate.foldedAs_foldProperty`).
-/

namespace ComponentViews

theorem Text.lowerChar_ne_nil (c : Char) : lowerChar c ≠ [] := by
  rw [lowerChar]
  split
  · exact List.cons_ne_nil _ _
  split
  · exact List.cons_ne_nil _ _
  split <;> exact List.cons_ne_nil _ _

theorem propertyName_ne_empty {word : String} (hword : word ≠ "") : propertyName word ≠ "" := by
  rw [propertyName]
  split
  · rename_i hnil
    exact absurd (String.toList_eq_nil_iff.1 hnil) hword
  · simpa using Text.lowerChar_ne_nil _
  · split
    · exact hword
    · simp

/-! ### Operations that read and write -/

/-- An operation that could read the property of a word: it is called `get` or `is` and the word,
    has a result and no parameters, and declares no failures but the protocol's. -/
structure Operation.ReadsAs (h : Hierarchy) (op : Operation) (word : String) : Prop where
  name : op.name = "get" ++ word ∨ op.name = "is" ++ word
  nonempty : word ≠ ""
  params : op.params = []
  result : op.result.isVoid = false
  throws : ∀ failure ∈ op.throws,
    failure.isArray = false ∧ h.isProtocolFailure failure.name = true

/-- An operation that could write the property of a word: it is called `set` and the word, has one
    parameter, of the type `ty`, and no result. -/
structure Operation.WritesAs (op : Operation) (word : String) (ty : Ty) : Prop where
  name : op.name = "set" ++ word
  params : op.params = [ty]
  result : op.result.isVoid = true

/-- A word and a type have one writer. -/
theorem Operation.WritesAs.signatureKey_eq {op other : Operation} {word : String} {ty : Ty}
    (hop : op.WritesAs word ty) (hother : other.WritesAs word ty) :
    op.signatureKey = other.signatureKey := by
  rw [signatureKey, signatureKey, hop.name, hop.params, hother.name, hother.params]

namespace PropertyReader

variable {h : Hierarchy} {op : Operation} {r : PropertyReader}

theorem eq_of_wordAfter? {lead word : String} (hword : wordAfter? lead op = some word) :
    op.name = lead ++ word ∧ word ≠ "" := by
  rw [wordAfter?, Option.filter_eq_some_iff, Text.dropStart?, Option.map_eq_some_iff] at hword
  obtain ⟨⟨rest, hrest, rfl⟩, hnonempty⟩ := hword
  rw [Text.afterStart?_eq_some_iff] at hrest
  refine ⟨?_, fun hnil => by simp [hnil] at hnonempty⟩
  rw [← String.toList_inj, hrest, String.toList_append, String.toList_ofList]

theorem reads_of_ofOperation? (hr : ofOperation? h op = some r) :
    r.op = op ∧ op.ReadsAs h r.word := by
  rw [ofOperation?] at hr
  split at hr
  · cases hr
  rename_i hmay
  simp only [Bool.or_eq_true, Bool.not_eq_true', not_or, Bool.not_eq_false,
    List.isEmpty_iff, List.all_eq_true, Bool.and_eq_true, Bool.not_eq_true] at hmay
  obtain ⟨⟨hparams, hresult⟩, hthrows⟩ := hmay
  split at hr
  · rename_i word hword
    rw [← Option.some.inj hr]
    obtain ⟨hname, hnonempty⟩ := eq_of_wordAfter? hword
    exact ⟨rfl, .inl hname, hnonempty, hparams, hresult, hthrows⟩
  split at hr
  · obtain ⟨word, hword, rfl⟩ := Option.map_eq_some_iff.1 hr
    obtain ⟨hname, hnonempty⟩ := eq_of_wordAfter? hword
    exact ⟨rfl, .inr hname, hnonempty, hparams, hresult, hthrows⟩
  · cases hr

theorem mem_of_choose {property : String} {first : PropertyReader} {others : List PropertyReader}
    (hr : choose property first others = .ok r) : r ∈ first :: others := by
  rw [choose] at hr
  split at hr
  · cases hr
  rw [← Except.ok.inj hr]
  cases hasks : (first :: others).find? (·.asks) with
  | none => exact List.mem_cons_self
  | some reader => exact List.mem_of_find?_eq_some hasks

end PropertyReader

theorem writes_of_writerWord? {op : Operation} {word : String}
    (hword : writerWord? op = some word) : ∃ ty, op.WritesAs word ty := by
  rw [writerWord?] at hword
  split at hword
  · rename_i ty hparams
    split at hword
    · rename_i hresult
      exact ⟨ty, (PropertyReader.eq_of_wordAfter? hword).1, hparams, hresult⟩
    · cases hword
  · cases hword

namespace NameCandidate

variable {h : Hierarchy} {cands : List NameCandidate} {readers : List (String × PropertyReader)}
  {c : NameCandidate}

/-! ### Which readers are chosen -/

/-- Each reader that is entered for a property is that of a candidate. -/
theorem readersByProperty_spec (h : Hierarchy) (cands : List NameCandidate) :
    ∀ property group, (readersByProperty h cands).get? property = some group →
      ∀ r ∈ group.1 :: group.2, r.property = property ∧
        ∃ c ∈ cands, PropertyReader.ofOperation? h c.op = some r := by
  rw [readersByProperty]
  refine Table.forall_get?_foldl_alter (fun k group hk => ?_) fun r hr found hfound => ?_
  · cases hk
  · have hown : r.property = r.property ∧
        ∃ c ∈ cands, PropertyReader.ofOperation? h c.op = some r :=
      ⟨rfl, List.mem_filterMap.1 hr⟩
    cases found with
    | none => exact List.forall_mem_singleton.2 hown
    | some group =>
      obtain ⟨hfirst, hothers⟩ := List.forall_mem_cons.1 (hfound group rfl)
      exact List.forall_mem_cons.2
        ⟨hfirst, List.forall_mem_append.2 ⟨hothers, List.forall_mem_singleton.2 hown⟩⟩

/-- A property has one reader, which is that of a candidate. -/
theorem propertyReaders_spec (hreaders : propertyReaders h cands = .ok readers) :
    (readers.map (·.1)).Nodup ∧ ∀ e ∈ readers, e.2.property = e.1 ∧
      ∃ c ∈ cands, PropertyReader.ofOperation? h c.op = some e.2 := by
  have hchosen : List.Forall₂ (fun (group : String × PropertyReader × List PropertyReader) e =>
      group.1 = e.1 ∧ group.2.1.choose group.1 group.2.2 = .ok e.2)
      (readersByProperty h cands).entries readers := by
    refine (Except.forall₂_of_mapM_eq_ok hreaders).imp fun group e he => ?_
    obtain ⟨r, hr, he⟩ := Except.bind_eq_ok.1 he
    rw [← Except.ok.inj he]
    exact ⟨rfl, hr⟩
  constructor
  · have hproperties : (readersByProperty h cands).entries.map (·.1) = readers.map (·.1) := by
      rw [← List.forall₂_eq_eq_eq, List.forall₂_map_left_iff, List.forall₂_map_right_iff]
      exact hchosen.imp fun group e he => he.1
    rw [← hproperties]
    exact Table.nodup_keys _
  · intro e he
    obtain ⟨i, hi, rfl⟩ := List.mem_iff_getElem.1 he
    have hgroup : i < (readersByProperty h cands).entries.length := hchosen.length_eq ▸ hi
    obtain ⟨hproperty, hr⟩ := hchosen.get hgroup hi
    have hget := Table.mem_entries_iff.1 (List.getElem_mem hgroup)
    have hspec := readersByProperty_spec h cands _ _ hget _ (PropertyReader.mem_of_choose hr)
    exact ⟨hspec.1.trans hproperty, hspec.2⟩

/-! ### What becomes of a candidate -/

/-- What becomes of a candidate where each property has the reader that is given. -/
inductive FoldedAs (readers : List (String × PropertyReader)) (c : NameCandidate) :
    NameCandidate → Prop
  | reader {property : String} {r : PropertyReader} (hr : (property, r) ∈ readers)
    (hkey : r.op.signatureKey = c.key) : FoldedAs readers c
      { c with name := property, role := .getter, property := some property }
  | writer {property : String} {r : PropertyReader} (hr : (property, r) ∈ readers)
    (hwrites : c.op.WritesAs r.word r.op.result) :
    FoldedAs readers c { c with name := property, role := .setter, property := some property }
  | plain : FoldedAs readers c c

/-- Only readers of properties become getters. -/
theorem FoldedAs.reads {d : NameCandidate} (hd : FoldedAs readers c d) (hplain : c.role = .plain)
    (hrole : d.role = .getter) : ∃ r, (d.name, r) ∈ readers ∧ r.op.signatureKey = c.key := by
  cases hd with
  | reader hr hkey => exact ⟨_, hr, hkey⟩
  | writer => cases hrole
  | plain => cases hplain.symm.trans hrole

/-- Only what agrees with the reader of a property becomes a setter. -/
theorem FoldedAs.writes {d : NameCandidate} (hd : FoldedAs readers c d) (hplain : c.role = .plain)
    (hrole : d.role = .setter) :
    ∃ r, (d.name, r) ∈ readers ∧ c.op.WritesAs r.word r.op.result := by
  cases hd with
  | reader => cases hrole
  | writer hr hwrites => exact ⟨_, hr, hwrites⟩
  | plain => cases hplain.symm.trans hrole

theorem foldedAs_foldProperty (readers : List (String × PropertyReader)) (c : NameCandidate) :
    FoldedAs readers c (foldProperty readers c) := by
  rw [foldProperty]
  -- A reader is found by its signature, and a writer by the property that its word names.
  split
  · rename_i property r hfind
    exact .reader (List.mem_of_find?_eq_some hfind) (by simpa using List.find?_some hfind)
  split
  · rename_i property hwritten
    rw [writtenProperty?] at hwritten
    split at hwritten
    · cases hwritten
    rename_i word hword
    split at hwritten
    · cases hwritten
    rename_i r hlookup
    split at hwritten
    · rename_i hmatches
      simp only [Bool.and_eq_true, beq_iff_eq] at hmatches
      obtain ⟨ty, hwrites⟩ := writes_of_writerWord? hword
      obtain ⟨before, after, hsplit, -⟩ := List.lookup_eq_some_iff.1 hlookup
      have hr : (propertyName word, r) ∈ readers :=
        hsplit ▸ List.mem_append_right _ List.mem_cons_self
      rw [← Option.some.inj hwritten]
      refine .writer hr ?_
      rw [hmatches.1]
      exact ⟨hwrites.name, hmatches.2, hwrites.result⟩
    · cases hwritten
  · exact .plain

end NameCandidate

end ComponentViews
