import ComponentViews.Proofs.WireName.Words

/-!
# Plain operations do not conflict

An operation is *plain* if its name consists of letters, without the beginning of a reader or a
writer of a property, and its parameters have basic types (`Operation.IsPlain`). However many names
of plain operations differ by letter case only, however many operations share a name, and whatever
the owner is called, they are always given names (`WireName.assign_plain`):

* each gets what it needs to be told from the others (`apart_eq`), so that its name differs from
  theirs otherwise than by letter case (`not_sameLetters_apart`);
* no name is another one with an underscore (`not_sameLetters_underscore`), so that the correction
  of a name that is the owner's is free (`avoidOwnerName_eq`), and no alias is needed.
-/

namespace ComponentViews

/-- An operation with a plain name and basic parameters. -/
structure Operation.IsPlain (op : Operation) : Prop where
  nonempty : op.name ≠ ""
  /-- The letters are those from A to Z, in either case. -/
  letters : ∀ c ∈ op.name.toList, c.isAlpha = true
  /-- The name is not that of a method that could read or write a property. -/
  noAccessor : ∀ lead ∈ ["get", "is", "set"], Text.startsWith lead op.name = false
  params : ∀ ty ∈ op.params, ty.IsBasic

instance (op : Operation) : Decidable op.IsPlain :=
  decidable_of_iff (op.name ≠ "" ∧ op.name.toList.all (·.isAlpha) = true ∧
      (∀ lead ∈ ["get", "is", "set"], Text.startsWith lead op.name = false) ∧
      ∀ ty ∈ op.params, ty.IsBasic)
    ⟨fun ⟨nonempty, letters, noAccessor, params⟩ =>
      ⟨nonempty, List.all_eq_true.1 letters, noAccessor, params⟩,
    fun ⟨nonempty, letters, noAccessor, params⟩ =>
      ⟨nonempty, List.all_eq_true.2 letters, noAccessor, params⟩⟩

theorem Operation.IsPlain.isWord {op : Operation} (h : op.IsPlain) : Idl.IsWord op.name :=
  fun c hc => by simp [Idl.isIdentifierChar, Char.isAlphanum, h.letters c hc]

theorem Operation.IsPlain.isIdentifier {op : Operation} (h : op.IsPlain) :
    Idl.IsIdentifier op.name where
  nonempty := h.nonempty
  word := h.isWord
  start := fun hstart => absurd (h.letters _ (List.mem_of_mem_head? hstart)) (by decide)

theorem Operation.IsPlain.wordAfter?_eq_none {op : Operation} (h : op.IsPlain) {lead : String}
    (hlead : lead ∈ ["get", "is", "set"]) : PropertyReader.wordAfter? lead op = none := by
  have hstart := h.noAccessor lead hlead
  rw [Text.startsWith, Option.isSome_eq_false_iff, Option.isNone_iff_eq_none] at hstart
  rw [PropertyReader.wordAfter?, hstart]
  rfl

namespace NameCandidate

variable {h : Hierarchy} {cands : List NameCandidate} {c d : NameCandidate}

/-! ### Properties -/

/-- Plain operations read no properties, and write none. -/
theorem foldProperties_eq (hcands : ∀ c ∈ cands, c.op.IsPlain) :
    foldProperties h cands = .ok cands := by
  have hreaders : propertyReaders h cands = .ok [] := by
    have hnone : cands.filterMap (fun c => PropertyReader.ofOperation? h c.op) = [] := by
      refine List.filterMap_eq_nil_iff.2 fun c hc => ?_
      rw [PropertyReader.ofOperation?, (hcands c hc).wordAfter?_eq_none (by simp),
        (hcands c hc).wordAfter?_eq_none (by simp)]
      simp
    rw [propertyReaders, readersByProperty, hnone]
    rfl
  have hsame : ∀ c : NameCandidate, foldProperty [] c = c := by
    intro c
    have hwritten : writtenProperty? [] c.op = none := by
      rw [writtenProperty?]
      split <;> rfl
    rw [foldProperty, hwritten]
    rfl
  rw [foldProperties, hreaders]
  exact congrArg Except.ok (List.map_congr_left (fun c _ => hsame c) |>.trans (List.map_id' _))

/-! ### Letter case and overloads -/

/-- There is a name that differs by letter case only. -/
def isMangled (cands : List NameCandidate) (c : NameCandidate) : Bool :=
  (cands.map fun d => (Text.lowercase d.name, d.name)).any fun (l, name) =>
    l == Text.lowercase c.name && name != c.name

/-- The candidate as it is when overloads are looked for. -/
def spelled (cands : List NameCandidate) (c : NameCandidate) : NameCandidate :=
  escapeName (if isMangled cands c then { c with name := caseMangle c.name } else c)

/-- There is another candidate of the same spelling. -/
def isOverloaded (cands : List NameCandidate) (c : NameCandidate) : Bool :=
  1 < (cands.map (spelled cands)).countP (sameSpelling (spelled cands c))

/-- The candidate as it is when the owner is looked at. -/
def apart (cands : List NameCandidate) (c : NameCandidate) : NameCandidate :=
  { c with name := distinguished c.op (isMangled cands c) (isOverloaded cands c) }

theorem isMangled_iff : isMangled cands c = true ↔
    ∃ d ∈ cands, Text.lowercase d.name = Text.lowercase c.name ∧ d.name ≠ c.name := by
  simp [isMangled]

/-- A candidate of a plain operation, before it is told from others. -/
structure IsPlain (c : NameCandidate) : Prop where
  op : c.op.IsPlain
  name : c.name = c.op.name
  role : c.role = .plain
  noAlias : c.altName = none

theorem spelled_eq (hc : c.IsPlain) : spelled cands c =
    { c with name := if isMangled cands c then caseMangle c.op.name else c.op.name } := by
  rw [spelled, escapeName]
  split
  · rw [hc.name, (isIdentifier_caseMangle hc.op.isIdentifier).escapeIdentifier_eq]
  · rw [hc.name, hc.op.isIdentifier.escapeIdentifier_eq]

theorem map_escapeName_foldCase (cands : List NameCandidate) :
    (foldCase cands).map escapeName = cands.map (spelled cands) := by
  rw [foldCase, List.map_map]
  rfl

/-- Each candidate gets what it needs to be told from the others. -/
theorem apart_eq (hcands : ∀ c ∈ cands, c.IsPlain) :
    disambiguateOverloads ((foldCase cands).map escapeName) = cands.map (apart cands) := by
  rw [map_escapeName_foldCase, disambiguateOverloads, List.map_map]
  refine List.map_congr_left fun c hc => ?_
  show (if 1 < (cands.map (spelled cands)).countP (sameSpelling (spelled cands c)) then
    { spelled cands c with name := overloadName (spelled cands c).name (spelled cands c).op.params }
    else spelled cands c) = apart cands c
  by_cases hcount : 1 < (cands.map (spelled cands)).countP (sameSpelling (spelled cands c))
  · rw [if_pos hcount, apart, isOverloaded, decide_eq_true hcount, spelled_eq (hcands c hc)]
    rfl
  · rw [if_neg hcount, apart, isOverloaded, decide_eq_false hcount, spelled_eq (hcands c hc)]
    rfl

/-- Names of the same letters are both mangled, unless they are equal. -/
theorem isMangled_of_sameLetters (hc : c ∈ cands) (hd : d ∈ cands)
    (h : Text.SameLetters c.name d.name) :
    (c.name = d.name ∧ isMangled cands c = isMangled cands d) ∨
      isMangled cands c = true ∧ isMangled cands d = true := by
  by_cases hname : c.name = d.name
  · exact .inl ⟨hname, by rw [isMangled, isMangled, hname]⟩
  · exact .inr ⟨isMangled_iff.2 ⟨d, hd, h.symm, Ne.symm hname⟩, isMangled_iff.2 ⟨c, hc, h, hname⟩⟩

/-- Two candidates of one name both get the types of their parameters. -/
theorem isOverloaded_of_ne (hcands : ∀ c ∈ cands, c.IsPlain) (hc : c ∈ cands) (hd : d ∈ cands)
    (hne : c ≠ d) (hname : c.name = d.name) : isOverloaded cands c = true := by
  have hsame : sameSpelling (spelled cands c) (spelled cands d) = true := by
    rw [sameSpelling, spelled_eq (hcands c hc), spelled_eq (hcands d hd), isMangled, isMangled,
      ← (hcands c hc).name, ← (hcands d hd).name, hname, (hcands c hc).role, (hcands d hd).role]
    simp
  have hself : sameSpelling (spelled cands c) (spelled cands c) = true := by
    simp [sameSpelling]
  have htwo : [c, d].countP (sameSpelling (spelled cands c) ∘ spelled cands) = 2 := by
    simp [hself, hsame]
  have hsub : [c, d].Subperm cands := by
    refine List.subperm_of_subset (by simpa using hne) ?_
    simp [hc, hd]
  have hle := hsub.countP_le (sameSpelling (spelled cands c) ∘ spelled cands)
  rw [isOverloaded, List.countP_map, decide_eq_true_eq]
  omega

theorem isWord_apart (hc : c.IsPlain) : Idl.IsWord (apart cands c).name :=
  (isIdentifier_distinguished hc.op.isIdentifier _ _).word

/-- The words tell candidates of different signatures apart. -/
theorem words_apart_ne (hcands : ∀ c ∈ cands, c.IsPlain) (hkeys : (cands.map (·.key)).Nodup)
    (hc : c ∈ cands) (hd : d ∈ cands) (hne : c ≠ d) {tail : List (List Char)}
    (htail : tail = [] ∨ tail = [[]]) :
    Idl.words (apart cands c).name ≠ Idl.words (apart cands d).name ++ tail := by
  intro hwords
  have hpc := hcands c hc
  have hpd := hcands d hd
  have hmangled : c.op.name.toList.map Char.toLower = d.op.name.toList.map Char.toLower →
      (c.op.name = d.op.name ∧ isMangled cands c = isMangled cands d) ∨
        isMangled cands c = true ∧ isMangled cands d = true := by
    intro hletters
    rw [← hpc.name, ← hpd.name]
    refine isMangled_of_sameLetters hc hd ?_
    rw [hpc.name, hpd.name, Text.SameLetters, Text.lowercase, Text.lowercase,
      Text.lowercaseChars_of_ascii hpc.op.isWord.ascii,
      Text.lowercaseChars_of_ascii hpd.op.isWord.ascii, hletters]
  have hoverloaded : c.op.name = d.op.name →
      isOverloaded cands c = true ∧ isOverloaded cands d = true := by
    rw [← hpc.name, ← hpd.name]
    exact fun hname => ⟨isOverloaded_of_ne hcands hc hd hne hname,
      isOverloaded_of_ne hcands hd hc (Ne.symm hne) hname.symm⟩
  obtain ⟨hname, hparams, -⟩ := eq_of_words_distinguished hpc.op.letters hpd.op.letters
    hpc.op.params hpd.op.params hmangled hoverloaded htail hwords
  have hkey : c.key = d.key := by
    rw [key, key, Operation.signatureKey, Operation.signatureKey, hname, hparams]
  exact hne (List.inj_on_of_nodup_map hkeys hc hd hkey)

/-- Candidates of different signatures get names that differ otherwise than by letter case. -/
theorem not_sameLetters_apart (hcands : ∀ c ∈ cands, c.IsPlain)
    (hkeys : (cands.map (·.key)).Nodup) (hc : c ∈ cands) (hd : d ∈ cands) (hne : c ≠ d) :
    ¬ Text.SameLetters (apart cands c).name (apart cands d).name := by
  intro hsame
  refine words_apart_ne hcands hkeys hc hd hne (.inl rfl) ?_
  rw [List.append_nil]
  exact Idl.words_congr (isWord_apart (hcands c hc)) (isWord_apart (hcands d hd)) hsame

/-- No candidate has the name that one would get in place of the owner's. -/
theorem not_sameLetters_underscore (hcands : ∀ c ∈ cands, c.IsPlain)
    (hkeys : (cands.map (·.key)).Nodup) (hc : c ∈ cands) (hd : d ∈ cands) :
    ¬ Text.SameLetters (apart cands c).name ((apart cands d).name ++ "_") := by
  intro hsame
  have hwc : Idl.IsWord (apart cands c).name := isWord_apart (hcands c hc)
  have hwd : Idl.IsWord (apart cands d).name := isWord_apart (hcands d hd)
  by_cases hcd : c = d
  · subst hcd
    exact hwc.lowercase_append_ne (by decide) (by decide) hsame.symm
  · refine words_apart_ne hcands hkeys hc hd hcd (.inr rfl) ?_
    rw [← Idl.words_underscore]
    exact Idl.words_congr hwc (hwd.append (by decide)) hsame

/-! ### The owner's name -/

/-- The candidate with the correction of its name, if it is called like the owner. -/
def correct (owner : String) (c : NameCandidate) : NameCandidate :=
  if Text.lowercase c.name = owner then { c with name := c.name ++ "_" } else c

theorem foldedWith_of_plain (hc : c.role = .plain) (name : String) :
    c.foldedWith name = Text.lowercase name := by
  rw [foldedWith, withLead, hc]
  exact congrArg _ String.empty_append

/-- If no candidate has the correction of the name of another, the corrections are taken. -/
theorem avoidOwnerName_eq {owner : String} {compat : Bool} (before rest : List NameCandidate)
    (hrole : ∀ c ∈ before ++ rest, c.role = .plain)
    (hdistinct : (before ++ rest).Pairwise fun c d => ¬ Text.SameLetters c.name d.name)
    (hfree : ∀ c ∈ before ++ rest, ∀ d ∈ before ++ rest,
      ¬ Text.SameLetters c.name (d.name ++ "_")) :
    avoidOwnerName owner compat (before.map (correct owner)) rest =
      .ok ((before ++ rest).map (correct owner)) := by
  induction rest generalizing before with
  | nil => rw [avoidOwnerName, List.append_nil]
  | cons c rest ih =>
    have hnext := ih (before ++ [c])
    rw [← List.append_cons] at hnext
    replace hnext := hnext hrole hdistinct hfree
    rw [List.map_append, List.map_singleton] at hnext
    have hc : c ∈ before ++ c :: rest := List.mem_append_right _ List.mem_cons_self
    rw [avoidOwnerName, foldedWith_of_plain (hrole c hc)]
    by_cases howner : Text.lowercase c.name = owner
    · -- Those before it are not called like the owner, since `c` is, so they are as they were.
      have hothers : ∀ o ∈ before.map (correct owner) ++ rest, o ∈ before ++ c :: rest := by
        intro o ho
        rcases List.mem_append.1 ho with ho | ho
        · obtain ⟨b, hb, rfl⟩ := List.mem_map.1 ho
          have hne : Text.lowercase b.name ≠ owner := fun hb' =>
            (List.pairwise_append.1 hdistinct).2.2 b hb c List.mem_cons_self (hb'.trans howner.symm)
          rw [correct, if_neg hne]
          exact List.mem_append_left _ hb
        · exact List.mem_append_right _ (List.mem_cons_of_mem c ho)
      have hfind : (before.map (correct owner) ++ rest).find? (fun o =>
          o.foldedWith o.name == c.foldedWith (c.name ++ "_")) = none := by
        refine List.find?_eq_none.2 fun o ho => ?_
        rw [foldedWith_of_plain (hrole o (hothers o ho)), foldedWith_of_plain (hrole c hc),
          beq_iff_eq]
        exact hfree o (hothers o ho) c hc
      rw [correct, if_pos howner] at hnext
      rw [if_neg (by simp [howner])]
      simp only [hfind]
      exact hnext
    · rw [correct, if_neg howner] at hnext
      rwa [if_pos (bne_iff_ne.2 howner)]

theorem pairwise_correct {owner : String}
    (hdistinct : cands.Pairwise fun c d => ¬ Text.SameLetters c.name d.name)
    (hfree : ∀ c ∈ cands, ∀ d ∈ cands, ¬ Text.SameLetters c.name (d.name ++ "_")) :
    (cands.map (correct owner)).Pairwise fun c d => ¬ Text.SameLetters c.name d.name := by
  refine List.pairwise_map.2 (hdistinct.imp_of_mem fun {c d} hc hd hne => ?_)
  rw [correct, correct]
  split <;> split
  · rename_i hcowner hdowner
    exact absurd (hcowner.trans hdowner.symm) hne
  · exact fun hsame => hfree d hd c hc hsame.symm
  · exact hfree c hc d hd
  · exact hne

/-! ### Names that are settled on -/

/-- The owner's name is out of the way, whatever it is. -/
theorem avoidOwner_apart (owner : Option String) (compat : Bool)
    (hcands : ∀ c ∈ cands, c.IsPlain) (hkeys : (cands.map (·.key)).Nodup) :
    ∃ named, avoidOwner owner compat (cands.map (apart cands)) = .ok named ∧
      (named.Pairwise fun c d => ¬ Text.SameLetters c.name d.name) ∧
      ∀ c ∈ named, c.role = .plain ∧ c.altName = none := by
  have hdistinct : (cands.map (apart cands)).Pairwise fun c d =>
      ¬ Text.SameLetters c.name d.name :=
    List.pairwise_map.2 ((List.Nodup.of_map _ hkeys).imp_of_mem
      fun hc hd hne => not_sameLetters_apart hcands hkeys hc hd hne)
  have hbare : ∀ c ∈ cands.map (apart cands), c.role = .plain ∧ c.altName = none := by
    rw [List.forall_mem_map]
    exact fun c hc => ⟨(hcands c hc).role, (hcands c hc).noAlias⟩
  cases owner with
  | none => exact ⟨_, rfl, hdistinct, hbare⟩
  | some owner =>
    have hfree : ∀ c ∈ cands.map (apart cands), ∀ d ∈ cands.map (apart cands),
        ¬ Text.SameLetters c.name (d.name ++ "_") := by
      simp only [List.forall_mem_map]
      exact fun c hc d hd => not_sameLetters_underscore hcands hkeys hc hd
    have havoid : avoidOwner (some owner) compat (cands.map (apart cands)) =
        .ok ((cands.map (apart cands)).map (correct (Text.lowercase (Dotted.simpleName owner)))) :=
      avoidOwnerName_eq [] _ (fun c hc => (hbare c hc).1) hdistinct hfree
    refine ⟨_, havoid, pairwise_correct hdistinct hfree, ?_⟩
    rw [List.forall_mem_map]
    intro c hc
    rw [correct]
    split <;> exact hbare c hc

/-- Candidates of plain operations are settled on, without aliases. -/
theorem settle_plain (h : Hierarchy) (owner : Option String) (compat : Bool)
    (hcands : ∀ c ∈ cands, c.IsPlain) (hkeys : (cands.map (·.key)).Nodup) :
    ∃ settled, settle h owner compat cands = .ok settled ∧ ∀ c ∈ settled, c.altName = none := by
  obtain ⟨named, hnamed, hdistinct, hbare⟩ := avoidOwner_apart owner compat hcands hkeys
  have hlead : named.map leadName = named := by
    refine (List.map_congr_left fun c hc => ?_).trans (List.map_id _)
    obtain ⟨hrole, halias⟩ := hbare c hc
    cases c
    cases hrole
    cases halias
    exact congrArg (fun name => NameCandidate.mk _ name .plain _ none) String.empty_append
  have hcheck : checkDistinct [] named = .ok () :=
    checkDistinct_of_nodup (List.pairwise_map.2 hdistinct) fun c _ => rfl
  refine ⟨named, ?_, fun c hc => (hbare c hc).2⟩
  rw [settle, foldProperties_eq fun c hc => (hcands c hc).op]
  simp only [bind, Except.bind, pure, Except.pure, apart_eq hcands, hnamed, hlead, hcheck]

end NameCandidate

namespace WireName

open NameCandidate

/-- Plain operations of different signatures are always given names. There are no aliases, and no
    two names are equal but for letter case. -/
theorem assign_plain {h : Hierarchy} {owner : Option String} {compat : Bool} {ops : List Operation}
    (hops : ∀ op ∈ ops, op.IsPlain) (hkeys : (ops.map (·.signatureKey)).Nodup) :
    ∃ names, assign h owner compat ops = .ok names ∧ names.length = ops.length ∧
      (∀ wire ∈ names, wire.altName = none) ∧
      names.Pairwise fun a b => ¬ Text.SameLetters a.name b.name := by
  have hcands : ∀ c ∈ ofOperations ops, c.IsPlain := by
    intro c hc
    obtain ⟨op, hop, rfl⟩ := exists_of_mem_ofOperations hc
    exact ⟨hops op hop, rfl, rfl, rfl⟩
  obtain ⟨settled, hsettle, hbare⟩ :=
    settle_plain h owner compat hcands (nodup_keys_ofOperations ops)
  have hassign := assign_of_settle hsettle
  have hdistinct := nodup_lowercase_assign hassign hkeys
  refine ⟨_, hassign, List.length_map _, ?_, List.pairwise_map.1 hdistinct⟩
  rw [List.forall_mem_map]
  intro op hop
  obtain ⟨c, hc, -, hlookup⟩ := lookup_of_settle hsettle op hop
  rw [nameOf, hlookup, Option.getD_some]
  exact hbare c hc

/-- Plain operations that differ by letter case, by their parameters, or not from the owner. -/
def ledgerOperations : List Operation :=
  [{ name := "close" }, { name := "Close" }, { name := "CLOSE" },
    { name := "post" }, { name := "post", params := [.int] },
    { name := "post", params := [.int, .int] },
    { name := "post", params := [{ Ty.string with dims := 2 }] },
    { name := "ledger" }]

/-- Their names. -/
def ledgerNames : List WireName :=
  [{ name := "close_" }, { name := "Close_0" }, { name := "CLOSE_0_1_2_3_4" },
    { name := "post__" }, { name := "post__long" }, { name := "post__long__long" },
    { name := "post__org_omg_boxedRMI_CORBA_seq2_WStringValue" },
    { name := "ledger_" }]

theorem assign_plain_ledgerOperations :
    (∀ op ∈ ledgerOperations, op.IsPlain) ∧ (ledgerOperations.map (·.signatureKey)).Nodup ∧
      assign .standard (some "acme.Ledger") false ledgerOperations = .ok ledgerNames ∧
      ledgerNames.length = ledgerOperations.length ∧ (∀ wire ∈ ledgerNames, wire.altName = none) ∧
      ledgerNames.Pairwise fun a b => ¬ Text.SameLetters a.name b.name := by
  have hops : ∀ op ∈ ledgerOperations, op.IsPlain := by decide +kernel
  have hkeys : (ledgerOperations.map (·.signatureKey)).Nodup := by decide +kernel
  have hnames : assign .standard (some "acme.Ledger") false ledgerOperations = .ok ledgerNames := by
    decide +kernel
  obtain ⟨names, hassign, hdistinct⟩ := assign_plain hops hkeys
  obtain rfl : ledgerNames = names := Except.ok.inj (hnames.symm.trans hassign)
  exact ⟨hops, hkeys, hnames, hdistinct⟩

end WireName

end ComponentViews
