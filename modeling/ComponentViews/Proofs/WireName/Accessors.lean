import ComponentViews.Proofs.WireName.Conflicts
import ComponentViews.Proofs.WireName.Order

/-!
# Readers and writers of a property go together

A property has one reader, and at most one writer, which takes what the reader gives. They are
found again on the wire, since they have the same name there but for its lead
(`WireName.accessors_assign`). This is not checked anywhere, as each pass renames the candidates
one by one:

* what becomes of a name until it is escaped depends on the name alone (`spelled_congr`);
* readers are not overloaded (`IsFolded.not_isOverloaded_getter`), as they have no parameters to be
  told apart by, so that two of one spelling end in a conflict;
* nor are writers (`IsFolded.not_isOverloaded_setter`), as two of one spelling have readers of one
  spelling.
-/

namespace ComponentViews

/-- Where more than one item of a list counts, there is one besides any that is given. -/
theorem List.exists_ne_of_one_lt_countP {α : Type} [DecidableEq α] {l : List α} {p : α → Bool}
    (hl : l.Nodup) (hcount : 1 < l.countP p) (a : α) : ∃ b ∈ l, b ≠ a ∧ p b = true := by
  have hcard : 1 < (l.filter p).toFinset.card := by
    rwa [List.toFinset_card_of_nodup (hl.filter p), ← List.countP_eq_length_filter]
  obtain ⟨b, hb, hne⟩ := Finset.exists_mem_ne hcard a
  rw [List.mem_toFinset, List.mem_filter] at hb
  exact ⟨b, hb.1, hne, hb.2⟩

/-- Reading is the same wherever an operation is declared. -/
theorem Operation.ReadsAs.congr {h : Hierarchy} {op other : Operation} {word : String}
    (hop : op.ReadsAs h word) (hsame : op.unplaced = other.unplaced) : other.ReadsAs h word := by
  simp only [unplaced, mk.injEq, and_true] at hsame
  obtain ⟨hname, hparams, hresult, hthrows⟩ := hsame
  exact ⟨hname ▸ hop.name, hop.nonempty, hparams ▸ hop.params, hresult ▸ hop.result,
    hthrows ▸ hop.throws⟩

theorem Operation.WritesAs.congr {op other : Operation} {word : String} {ty : Ty}
    (hop : op.WritesAs word ty) (hsame : op.unplaced = other.unplaced) :
    other.WritesAs word ty := by
  simp only [unplaced, mk.injEq, and_true] at hsame
  obtain ⟨hname, hparams, hresult, -⟩ := hsame
  exact ⟨hname ▸ hop.name, hparams ▸ hop.params, hresult ▸ hop.result⟩

namespace NameCandidate

variable {h : Hierarchy} {compat : Bool} {cands folded settled : List NameCandidate}
  {readers : List (String × PropertyReader)} {c d : NameCandidate}

/-! ### Names in the end -/

/-- Only the name is spelled otherwise. -/
theorem spelled_eq_withName (cands : List NameCandidate) (c : NameCandidate) :
    spelled cands c = { c with name := (spelled cands c).name } := by
  rw [spelled]
  split <;> rfl

theorem spelled_congr (hname : c.name = d.name) :
    (spelled cands c).name = (spelled cands d).name := by
  rw [spelled, spelled, isMangled, isMangled, hname]
  split <;> simp only [escapeName, hname]

/-- The candidate with the name that it has in the end, where no owner is looked at. -/
def finished (folded : List NameCandidate) (c : NameCandidate) : NameCandidate :=
  let s := spelled folded c
  leadName (if isOverloaded folded c then { s with name := overloadName s.name s.op.params } else s)

theorem settled_eq_finished (hs : settle h none compat cands = .ok settled) :
    ∃ readers, propertyReaders h cands = .ok readers ∧
      settled = (cands.map (foldProperty readers)).map
        (finished (cands.map (foldProperty readers))) := by
  obtain ⟨readers, avoided, hreaders, havoid, rfl, -⟩ := passes_of_settle hs
  refine ⟨readers, hreaders, ?_⟩
  generalize cands.map (foldProperty readers) = folded at havoid
  rw [← Except.ok.inj havoid, map_escapeName_foldCase, disambiguateOverloads, List.map_map,
    List.map_map]
  refine List.map_congr_left fun c _ => ?_
  simp only [Function.comp_apply, finished, isOverloaded, decide_eq_true_eq]

theorem key_finished (folded : List NameCandidate) (c : NameCandidate) :
    (finished folded c).key = c.key := by
  rw [finished, spelled_eq_withName]
  split <;> rfl

theorem property_finished (folded : List NameCandidate) (c : NameCandidate) :
    (finished folded c).property = c.property := by
  rw [finished, spelled_eq_withName]
  split <;> rfl

theorem name_finished (folded : List NameCandidate) (c : NameCandidate) :
    (finished folded c).name = c.role.lead ++
      if isOverloaded folded c then overloadName (spelled folded c).name c.op.params
      else (spelled folded c).name := by
  rw [finished, leadName, spelled_eq_withName]
  split <;> rfl

/-! ### Overloads -/

theorem isOverloaded_congr (hrole : c.role = d.role)
    (hname : (spelled folded c).name = (spelled folded d).name) :
    isOverloaded folded c = isOverloaded folded d := by
  have hsame : sameSpelling (spelled folded c) = sameSpelling (spelled folded d) := by
    funext e
    rw [sameSpelling, sameSpelling, hname, spelled_eq_withName folded c,
      spelled_eq_withName folded d, hrole]
  rw [isOverloaded, isOverloaded, hsame]

theorem exists_of_isOverloaded (hnodup : folded.Nodup) (hc : isOverloaded folded c = true) :
    ∃ d ∈ folded, d ≠ c ∧ d.role = c.role ∧
      (spelled folded d).name = (spelled folded c).name := by
  rw [isOverloaded, decide_eq_true_eq, List.countP_map] at hc
  obtain ⟨d, hd, hne, hsame⟩ := List.exists_ne_of_one_lt_countP hnodup hc c
  rw [Function.comp_apply, sameSpelling, Bool.and_eq_true, beq_iff_eq, beq_iff_eq,
    spelled_eq_withName folded c, spelled_eq_withName folded d] at hsame
  exact ⟨d, hd, hne, hsame.1.symm, hsame.2.symm⟩

/-- What there is among candidates once properties have their readers and writers. -/
structure IsFolded (folded : List NameCandidate) : Prop where
  nodup : folded.Nodup
  noParams : ∀ c ∈ folded, c.role = .getter → c.op.params = []
  exists_getter : ∀ c ∈ folded, c.role = .setter → ∃ r ∈ folded, r.role = .getter ∧ r.name = c.name
  setter_unique : ∀ c ∈ folded, ∀ d ∈ folded, c.role = .setter → d.role = .setter →
    c.name = d.name → c = d
  /-- The names in the end differ, also without regard to letter case. -/
  distinct : ((folded.map (finished folded)).map fun c => Text.lowercase c.name).Nodup

namespace IsFolded

/-- Readers differ in spelling, as nothing else tells them apart. -/
theorem getter_unique (hf : IsFolded folded) (hc : c ∈ folded) (hd : d ∈ folded)
    (hcrole : c.role = .getter) (hdrole : d.role = .getter)
    (hname : (spelled folded c).name = (spelled folded d).name) : c = d := by
  have hnames : (finished folded c).name = (finished folded d).name := by
    rw [name_finished, name_finished, hcrole, hdrole, hname, hf.noParams c hc hcrole,
      hf.noParams d hd hdrole, isOverloaded_congr (hcrole.trans hdrole.symm) hname]
  have hdistinct := hf.distinct
  rw [List.map_map] at hdistinct
  exact List.inj_on_of_nodup_map hdistinct hc hd (congrArg Text.lowercase hnames)

theorem not_isOverloaded_getter (hf : IsFolded folded) (hc : c ∈ folded)
    (hrole : c.role = .getter) : isOverloaded folded c = false := by
  by_contra hover
  obtain ⟨d, hd, hne, hdrole, hname⟩ := exists_of_isOverloaded hf.nodup (by simpa using hover)
  exact hne (hf.getter_unique hd hc (hdrole.trans hrole) hrole hname)

theorem not_isOverloaded_setter (hf : IsFolded folded) (hc : c ∈ folded)
    (hrole : c.role = .setter) : isOverloaded folded c = false := by
  by_contra hover
  obtain ⟨d, hd, hne, hdrole, hname⟩ := exists_of_isOverloaded hf.nodup (by simpa using hover)
  have hdrole := hdrole.trans hrole
  obtain ⟨r, hr, hrrole, hrname⟩ := hf.exists_getter c hc hrole
  obtain ⟨s, hs, hsrole, hsname⟩ := hf.exists_getter d hd hdrole
  -- The readers of both properties are spelled like the writers, so they are one.
  have hsame : (spelled folded r).name = (spelled folded s).name := by
    rw [spelled_congr hrname, spelled_congr hsname, hname]
  obtain rfl := hf.getter_unique hr hs hrrole hsrole hsame
  exact hne (hf.setter_unique d hd c hc hdrole hrole (hsname.symm.trans hrname))

/-- Readers and writers have their spelling in the end, behind their lead. -/
theorem name_finished (hf : IsFolded folded) (hc : c ∈ folded) (hrole : c.role ≠ .plain) :
    (finished folded c).name = c.role.lead ++ (spelled folded c).name := by
  have hover : isOverloaded folded c = false := by
    cases hkind : c.role with
    | plain => exact absurd hkind hrole
    | getter => exact hf.not_isOverloaded_getter hc hkind
    | setter => exact hf.not_isOverloaded_setter hc hkind
  rw [NameCandidate.name_finished, hover, if_neg Bool.false_ne_true]

end IsFolded

/-! ### Candidates and the readers of properties -/

/-- A candidate before properties are looked at; the candidates have different signatures. -/
structure AreFresh (cands : List NameCandidate) : Prop where
  nodup : (cands.map (·.key)).Nodup
  plain : ∀ c ∈ cands, c.role = .plain ∧ c.property = none

theorem areFresh_ofOperations (ops : List Operation) : AreFresh (ofOperations ops) where
  nodup := nodup_keys_ofOperations ops
  plain c hc := by
    obtain ⟨op, -, rfl⟩ := exists_of_mem_ofOperations hc
    exact ⟨rfl, rfl⟩

theorem AreFresh.eq_of_key (hf : AreFresh cands) (hc : c ∈ cands) (hd : d ∈ cands)
    (hkey : c.key = d.key) : c = d :=
  List.inj_on_of_nodup_map hf.nodup hc hd hkey

/-- A candidate of the signature of a reader is the one that reads. -/
theorem AreFresh.reads (hf : AreFresh cands) (hreaders : propertyReaders h cands = .ok readers)
    {property : String} {r : PropertyReader} (hr : (property, r) ∈ readers) (hc : c ∈ cands)
    (hkey : r.op.signatureKey = c.key) : PropertyReader.ofOperation? h c.op = some r := by
  obtain ⟨-, d, hd, hdr⟩ := (propertyReaders_spec hreaders).2 _ hr
  have hop : r.op = d.op := (PropertyReader.reads_of_ofOperation? hdr).1
  have hdc : d = c := hf.eq_of_key hd hc (by rw [← hkey, hop]; rfl)
  exact hdc ▸ hdr

/-- The reader of a property is the candidate that gets it. -/
theorem AreFresh.exists_getter (hf : AreFresh cands)
    (hreaders : propertyReaders h cands = .ok readers) {property : String} {r : PropertyReader}
    (hr : (property, r) ∈ readers) : ∃ c ∈ cands, c.op = r.op ∧ foldProperty readers c =
      { c with name := property, role := .getter, property := some property } := by
  obtain ⟨hproperty, c, hc, hcr⟩ := (propertyReaders_spec hreaders).2 _ hr
  have hop : r.op = c.op := (PropertyReader.reads_of_ofOperation? hcr).1
  refine ⟨c, hc, hop.symm, ?_⟩
  -- Whatever is found under the signature of `c` is what `c` reads, so that it is `r`, and it is
  -- found for the property of `r`.
  have hsome : (readers.find? (·.2.op.signatureKey == c.key)).isSome = true :=
    List.find?_isSome.2 ⟨_, hr, by rw [hop]; exact beq_self_eq_true c.key⟩
  obtain ⟨⟨property', r'⟩, hfind⟩ := Option.isSome_iff_exists.1 hsome
  have hr' := List.mem_of_find?_eq_some hfind
  have hcr' := hf.reads hreaders hr' hc (by simpa using List.find?_some hfind)
  obtain rfl : r = r' := Option.some.inj (hcr.symm.trans hcr')
  obtain rfl : property = property' :=
    hproperty.symm.trans ((propertyReaders_spec hreaders).2 _ hr').1
  rw [foldProperty, hfind]

/-- A property has one reader. -/
theorem reader_unique (hreaders : propertyReaders h cands = .ok readers) {property : String}
    {r s : PropertyReader} (hr : (property, r) ∈ readers) (hs : (property, s) ∈ readers) : r = s :=
  congrArg Prod.snd (List.inj_on_of_nodup_map (propertyReaders_spec hreaders).1 hr hs rfl)

theorem isFolded (hf : AreFresh cands) (hreaders : propertyReaders h cands = .ok readers)
    (hdistinct : (((cands.map (foldProperty readers)).map
      (finished (cands.map (foldProperty readers)))).map fun c => Text.lowercase c.name).Nodup) :
    IsFolded (cands.map (foldProperty readers)) where
  distinct := hdistinct
  nodup := by
    refine List.Nodup.of_map (·.key) ?_
    rw [List.map_map]
    have hkeys : (fun c => c.key) ∘ foldProperty readers = fun c => c.key :=
      funext fun c => congrArg Operation.signatureKey (op_foldProperty readers c)
    rw [hkeys]
    exact hf.nodup
  noParams := by
    rw [List.forall_mem_map]
    intro c hc hrole
    obtain ⟨r, hr, hkey⟩ := (foldedAs_foldProperty readers c).reads (hf.plain c hc).1 hrole
    rw [op_foldProperty]
    exact (PropertyReader.reads_of_ofOperation? (hf.reads hreaders hr hc hkey)).2.params
  exists_getter := by
    rw [List.forall_mem_map]
    intro c hc hrole
    obtain ⟨r, hr, -⟩ := (foldedAs_foldProperty readers c).writes (hf.plain c hc).1 hrole
    obtain ⟨d, hd, -, hfold⟩ := hf.exists_getter hreaders hr
    refine ⟨foldProperty readers d, List.mem_map_of_mem hd, ?_⟩
    rw [hfold]
    exact ⟨rfl, rfl⟩
  setter_unique := by
    simp only [List.forall_mem_map]
    intro c hc d hd hcrole hdrole hname
    obtain ⟨r, hr, hcwrites⟩ :=
      (foldedAs_foldProperty readers c).writes (hf.plain c hc).1 hcrole
    obtain ⟨r', hr', hdwrites⟩ :=
      (foldedAs_foldProperty readers d).writes (hf.plain d hd).1 hdrole
    -- Setters of one property have the type of its reader, so their signatures are the same.
    obtain rfl := reader_unique hreaders (hname ▸ hr) hr'
    rw [hf.eq_of_key hc hd (hcwrites.signatureKey_eq hdwrites)]

/-- What a candidate of a property does for it, given the reader of each property. -/
theorem AreFresh.reads_or_writes (hf : AreFresh cands)
    (hreaders : propertyReaders h cands = .ok readers) (hc : c ∈ cands) {property : String}
    (hproperty : (foldProperty readers c).property = some property) :
    (foldProperty readers c).name = property ∧ ∃ r, (property, r) ∈ readers ∧
      ((foldProperty readers c).role = .getter ∧ c.key = r.op.signatureKey ∧
          c.op.ReadsAs h r.word ∨
        (foldProperty readers c).role = .setter ∧ c.op.WritesAs r.word r.op.result) := by
  have hfolded := foldedAs_foldProperty readers c
  generalize foldProperty readers c = d at hfolded hproperty
  cases hfolded with
  | reader hr hkey =>
    obtain rfl := Option.some.inj hproperty
    have hreads := (PropertyReader.reads_of_ofOperation? (hf.reads hreaders hr hc hkey)).2
    exact ⟨rfl, _, hr, .inl ⟨rfl, hkey.symm, hreads⟩⟩
  | writer hr hwrites =>
    obtain rfl := Option.some.inj hproperty
    exact ⟨rfl, _, hr, .inr ⟨rfl, hwrites⟩⟩
  | plain => cases (hf.plain c hc).2.symm.trans hproperty

/-- What a property is given in the end: its reader and its writers have names that differ by their
    lead. -/
theorem AreFresh.accessors (hf : AreFresh cands) (hreaders : propertyReaders h cands = .ok readers)
    (hmap : folded = cands.map (foldProperty readers)) (hfolded : IsFolded folded)
    {property : String} {r : PropertyReader} (hr : (property, r) ∈ readers) :
    (∃ c ∈ cands, c.op = r.op ∧
      (finished folded (foldProperty readers c)).property = some property) ∧
    ∃ base, ∀ c ∈ cands, (finished folded (foldProperty readers c)).property = some property →
      c.key = r.op.signatureKey ∧ c.op.ReadsAs h r.word ∧
          (finished folded (foldProperty readers c)).name = "get_" ++ base ∨
        c.op.WritesAs r.word r.op.result ∧
          (finished folded (foldProperty readers c)).name = "set_" ++ base := by
  obtain ⟨g, hg, hop, hfold⟩ := hf.exists_getter hreaders hr
  refine ⟨⟨g, hg, hop, by rw [property_finished, hfold]⟩,
    (spelled folded (foldProperty readers g)).name, fun c hc hproperty => ?_⟩
  rw [property_finished] at hproperty
  obtain ⟨hname, s, hs, hrole⟩ := hf.reads_or_writes hreaders hc hproperty
  obtain rfl := reader_unique hreaders hr hs
  have hmem : foldProperty readers c ∈ folded := hmap ▸ List.mem_map_of_mem hc
  have hspelled : (spelled folded (foldProperty readers c)).name =
      (spelled folded (foldProperty readers g)).name := spelled_congr (by rw [hname, hfold])
  rcases hrole with ⟨hrole, hkey, hreads⟩ | ⟨hrole, hwrites⟩
  · refine .inl ⟨hkey, hreads, ?_⟩
    rw [hfolded.name_finished hmem (by rw [hrole]; decide), hspelled, hrole, AccessRole.lead]
  · refine .inr ⟨hwrites, ?_⟩
    rw [hfolded.name_finished hmem (by rw [hrole]; decide), hspelled, hrole, AccessRole.lead]

end NameCandidate

namespace WireName

open NameCandidate

/-- The operations of a property read it and write it, under names that differ by their lead. -/
structure IsPaired (h : Hierarchy) (named : List (Operation × WireName)) (property : String)
    (reader : Operation) (word base : String) : Prop where
  property_eq : property = propertyName word
  reads : reader.ReadsAs h word
  exists_reader : ∃ wire, (reader, wire) ∈ named ∧ wire.property = some property
  reader_or_writer : ∀ op wire, (op, wire) ∈ named → wire.property = some property →
    op.signatureKey = reader.signatureKey ∧ op.ReadsAs h word ∧ wire.name = "get_" ++ base ∨
      op.WritesAs word reader.result ∧ wire.name = "set_" ++ base
  writer_unique : ∀ op wire, (op, wire) ∈ named → wire.property = some property →
    ∀ other wire', (other, wire') ∈ named → wire'.property = some property →
      op.signatureKey ≠ reader.signatureKey → other.signatureKey ≠ reader.signatureKey →
        op.signatureKey = other.signatureKey

variable {h : Hierarchy} {compat : Bool} {ops : List Operation} {names : List WireName}

/-- Where there is no owner, an operation has its name from a candidate that may only differ from it
    in its place, as the candidate is read, written and spelled. -/
theorem exists_finished
    (hsame : ∀ op ∈ ops, ∀ other ∈ ops, op.signatureKey = other.signatureKey →
      op.unplaced = other.unplaced)
    (hs : assign h none compat ops = .ok names) :
    ∃ readers folded nameOf, propertyReaders h (ofOperations ops) = .ok readers ∧
      folded = (ofOperations ops).map (foldProperty readers) ∧ IsFolded folded ∧
      names = ops.map nameOf ∧ ∀ op ∈ ops, ∃ c ∈ ofOperations ops, c.key = op.signatureKey ∧
        c.op.unplaced = op.unplaced ∧
        nameOf op = (finished folded (foldProperty readers c)).wireName := by
  obtain ⟨settled, hsettle, rfl, hfound⟩ := settled_of_assign hs
  obtain ⟨readers, hreaders, rfl⟩ := settled_eq_finished hsettle
  have hfolded := isFolded (areFresh_ofOperations ops) hreaders (nodup_settle hsettle)
  refine ⟨readers, _, _, hreaders, rfl, hfolded, rfl, fun op hop => ?_⟩
  obtain ⟨d, hd, hkey, hname⟩ := hfound op hop
  rw [List.map_map, List.mem_map] at hd
  obtain ⟨c, hc, rfl⟩ := hd
  rw [Function.comp_apply, key_finished, key, op_foldProperty] at hkey
  obtain ⟨other, hother, rfl⟩ := exists_of_mem_ofOperations hc
  exact ⟨_, hc, hkey, hsame other hother op hop hkey, hname⟩

/-- Each property that is given a name has one reader, and at most one writer. The writer takes what
    the reader gives, both are called alike behind their leads, and so are they on the wire.
    Operations of one signature differ at most in their place. -/
theorem accessors_assign
    (hsame : ∀ op ∈ ops, ∀ other ∈ ops, op.signatureKey = other.signatureKey →
      op.unplaced = other.unplaced)
    (hs : assign h none compat ops = .ok names) :
    names.length = ops.length ∧
      ∀ property, (∃ wire ∈ names, wire.property = some property) →
        ∃ reader word base, IsPaired h (ops.zip names) property reader word base := by
  have hfresh := areFresh_ofOperations ops
  obtain ⟨readers, folded, nameOf, hreaders, hmap, hfolded, rfl, hfound⟩ :=
    exists_finished hsame hs
  refine ⟨List.length_map _, ?_⟩
  rintro property ⟨wire, hwire, hproperty⟩
  -- The property is that of some candidate, so that it has a reader.
  obtain ⟨op, hop, rfl⟩ := List.mem_map.1 hwire
  obtain ⟨c, hc, -, -, hname⟩ := hfound op hop
  rw [hname, wireName, property_finished] at hproperty
  obtain ⟨-, r, hr, -⟩ := hfresh.reads_or_writes hreaders hc hproperty
  obtain ⟨hword, d, -, hd⟩ := (propertyReaders_spec hreaders).2 _ hr
  obtain ⟨hdop, hreads⟩ := PropertyReader.reads_of_ofOperation? hd
  obtain ⟨⟨g, hg, hgop, hgproperty⟩, base, haccessors⟩ :=
    hfresh.accessors hreaders hmap hfolded hr
  have hnamed : ops.zip (ops.map nameOf) = ops.map fun op => (op, nameOf op) := by
    rw [← List.zip_map', List.map_id']
  -- What is known of candidates is handed on to operations, which may be declared elsewhere.
  have hpairs : ∀ op wire, (op, wire) ∈ ops.zip (ops.map nameOf) →
      wire.property = some property →
        op.signatureKey = r.op.signatureKey ∧ op.ReadsAs h r.word ∧ wire.name = "get_" ++ base ∨
          op.WritesAs r.word r.op.result ∧ wire.name = "set_" ++ base := by
    intro op wire hmem hproperty
    rw [hnamed, List.mem_map] at hmem
    obtain ⟨op, hop, ⟨⟩⟩ := hmem
    obtain ⟨c, hc, hkey, hunplaced, hname⟩ := hfound op hop
    rw [hname] at hproperty ⊢
    rcases haccessors c hc hproperty with ⟨hreader, hreads, hget⟩ | ⟨hwrites, hset⟩
    · exact .inl ⟨hkey ▸ hreader, hreads.congr hunplaced, hget⟩
    · exact .inr ⟨hwrites.congr hunplaced, hset⟩
  refine ⟨r.op, r.word, base, hword.symm, hdop ▸ hreads, ?_, hpairs, ?_⟩
  · obtain ⟨reader, hreader, rfl⟩ := exists_of_mem_ofOperations hg
    obtain ⟨c, hc, hkey, -, hname⟩ := hfound reader hreader
    obtain rfl := hfresh.eq_of_key hc hg hkey
    refine ⟨nameOf reader, ?_, by rw [hname]; exact hgproperty⟩
    rw [hnamed, ← hgop]
    exact List.mem_map_of_mem hreader
  · intro op wire hmem hproperty other wire' hmem' hproperty' hop hother
    obtain ⟨hreader, -⟩ | ⟨hwrites, -⟩ := hpairs op wire hmem hproperty
    · exact absurd hreader hop
    obtain ⟨hreader, -⟩ | ⟨hwrites', -⟩ := hpairs other wire' hmem' hproperty'
    · exact absurd hreader hother
    · exact hwrites.signatureKey_eq hwrites'

/-- Operations of two properties. One name differs by letter case from another operation's, and one
    reader stands there twice. -/
def accountOperations : List Operation :=
  [{ name := "getBalance", result := .int }, { name := "setBalance", params := [.int] },
    { name := "setBalance", params := [.string] }, { name := "Balance" },
    { name := "getFrozen", result := .boolean }, { name := "isFrozen", result := .boolean },
    { name := "setFrozen", params := [.boolean] },
    { name := "getBalance", result := .int, owner := "acme.Account" }]

/-- Their names. -/
def accountNames : List WireName :=
  [{ name := "get_balance_", property := some "balance" },
    { name := "set_balance_", property := some "balance" }, { name := "setBalance" },
    { name := "Balance_0" }, { name := "getFrozen" },
    { name := "get_frozen", property := some "frozen" },
    { name := "set_frozen", property := some "frozen" },
    { name := "get_balance_", property := some "balance" }]

theorem accessors_assign_account :
    (∀ op ∈ accountOperations, ∀ other ∈ accountOperations,
        op.signatureKey = other.signatureKey → op.unplaced = other.unplaced) ∧
      assign .standard none false accountOperations = .ok accountNames ∧
      accountNames.length = accountOperations.length ∧
      ∀ property, (∃ wire ∈ accountNames, wire.property = some property) →
        ∃ reader word base,
          IsPaired .standard (accountOperations.zip accountNames) property reader word base := by
  have hsame : ∀ op ∈ accountOperations, ∀ other ∈ accountOperations,
      op.signatureKey = other.signatureKey → op.unplaced = other.unplaced := by decide +kernel
  have hassign : assign .standard none false accountOperations = .ok accountNames := by
    decide +kernel
  exact ⟨hsame, hassign, accessors_assign hsame hassign⟩

end WireName

end ComponentViews
