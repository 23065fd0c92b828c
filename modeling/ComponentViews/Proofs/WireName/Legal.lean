import ComponentViews.Hierarchy.Standard
import ComponentViews.Proofs.WireName
import ComponentViews.Proofs.WireName.Identifier
import ComponentViews.Proofs.WireName.Property

/-!
# Wire names are legal

Where names are assigned at all, they are legal, and they tell the operations apart
(`WireName.isLegal_assign`). Names are arbitrary texts until they are escaped, of which only
that they are not empty has to be kept (`Bare`). From there on they are identifiers
(`Escaped`), and what the later passes append leaves them so.
-/

namespace ComponentViews

/-- Whether two texts are equal but for letter case. -/
def Text.SameLetters (s t : String) : Prop := lowercase s = lowercase t

instance (s t : String) : Decidable (Text.SameLetters s t) := inferInstanceAs (Decidable (_ = _))

/-- A wire name as the interface of `owner` can have it. -/
structure WireName.IsLegal (owner : Option String) (compat : Bool) (wire : WireName) : Prop where
  name : Idl.IsIdentifier wire.name
  altName : ∀ alt ∈ wire.altName, Idl.IsIdentifier alt
  /-- Without compatibility there are no aliases, and nothing is named like the owner. -/
  strict : compat = false → wire.altName = none ∧
    ∀ o ∈ owner, ¬ Text.SameLetters wire.name (Dotted.simpleName o)
  /-- An alias stands for a correction of the owner's name. -/
  aliased : wire.altName.isSome → ∃ o ∈ owner, Text.SameLetters wire.name (Dotted.simpleName o)

namespace NameCandidate

variable {h : Hierarchy} {c d : NameCandidate} {cands settled : List NameCandidate}
  {readers : List (String × PropertyReader)}

/-- No property without a name has a reader. -/
theorem reader_ne_empty (hreaders : propertyReaders h cands = .ok readers) :
    ∀ p ∈ readers, p.1 ≠ "" := by
  intro p hp
  obtain ⟨hproperty, c, -, hc⟩ := (propertyReaders_spec hreaders).2 p hp
  rw [← hproperty]
  exact propertyName_ne_empty (PropertyReader.reads_of_ofOperation? hc).2.nonempty

/-! ### Before names are escaped -/

/-- A candidate whose name is not escaped yet: it has a name, and no alias. -/
structure Bare (c : NameCandidate) : Prop where
  nonempty : c.name ≠ ""
  noAlias : c.altName = none

theorem Bare.foldProperty (hreaders : ∀ p ∈ readers, p.1 ≠ "") (hc : Bare c) :
    Bare (foldProperty readers c) := by
  have hfolded := foldedAs_foldProperty readers c
  generalize NameCandidate.foldProperty readers c = d at hfolded ⊢
  cases hfolded with
  | reader hr => exact ⟨hreaders _ hr, hc.noAlias⟩
  | writer hr => exact ⟨hreaders _ hr, hc.noAlias⟩
  | plain => exact hc

theorem caseMangle_ne_empty (name : String) : caseMangle name ≠ "" := by
  simp [caseMangle, ← String.toList_eq_nil_iff]

theorem bare_foldCase (hcands : ∀ c ∈ cands, Bare c) : ∀ c ∈ foldCase cands, Bare c := by
  intro c hc
  obtain ⟨d, hd, rfl⟩ := List.mem_map.1 hc
  have hbare := hcands d hd
  dsimp only
  split
  · exact ⟨caseMangle_ne_empty _, hbare.noAlias⟩
  · exact hbare

/-! ### Once names are escaped -/

/-- A candidate whose name is an identifier; it has no alias yet. -/
structure Escaped (c : NameCandidate) : Prop where
  name : Idl.IsIdentifier c.name
  noAlias : c.altName = none

theorem Bare.escapeName (hc : Bare c) : Escaped (escapeName c) :=
  ⟨Idl.isIdentifier_escapeIdentifier hc.nonempty, hc.noAlias⟩

theorem isIdentifier_caseMangle {name : String} (hname : Idl.IsIdentifier name) :
    Idl.IsIdentifier (caseMangle name) := by
  refine (hname.append (by decide)).append (Idl.IsWord.intercalate (by decide) fun p hp => ?_)
  obtain ⟨place, -, rfl⟩ := List.mem_map.1 hp
  exact Idl.isWord_repr place

theorem isIdentifier_overloadName {name : String} (hname : Idl.IsIdentifier name)
    (params : List Ty) : Idl.IsIdentifier (overloadName name params) := by
  refine (hname.append (by decide)).append (Idl.IsWord.intercalate (by decide) fun p hp => ?_)
  obtain ⟨ty, -, rfl⟩ := List.mem_map.1 hp
  exact Idl.isWord_typeName ty

theorem escaped_disambiguateOverloads (hcands : ∀ c ∈ cands, Escaped c) :
    ∀ c ∈ disambiguateOverloads cands, Escaped c := by
  intro c hc
  obtain ⟨d, hd, rfl⟩ := List.mem_map.1 hc
  have hescaped := hcands d hd
  split
  · exact ⟨isIdentifier_overloadName hescaped.name _, hescaped.noAlias⟩
  · exact hescaped

theorem isIdentifier_withLead (c : NameCandidate) {name : String} (hname : Idl.IsIdentifier name) :
    Idl.IsIdentifier (c.withLead name) := by
  rw [withLead]
  cases c.role with
  | plain => simpa [AccessRole.lead] using hname
  | getter => exact Idl.IsIdentifier.append ⟨by decide, by decide, by decide⟩ hname.word
  | setter => exact Idl.IsIdentifier.append ⟨by decide, by decide, by decide⟩ hname.word

/-- A name with the underscore is another name, also without regard to letter case. -/
theorem foldedWith_underscore_ne (c : NameCandidate) {name : String}
    (hname : Idl.IsIdentifier name) : c.foldedWith (name ++ "_") ≠ c.foldedWith name := by
  rw [foldedWith, foldedWith, withLead, withLead, ← String.append_assoc]
  exact (isIdentifier_withLead c hname).word.lowercase_append_ne (by decide) (by decide)

/-- What becomes of a candidate that is kept away from the owner's name is legal, once it has
    its lead. -/
theorem AvoidedName.isLegal {owner : String} {compat : Bool} (hc : Escaped c)
    (h : AvoidedName (Text.lowercase (Dotted.simpleName owner)) compat c d) :
    (leadName d).wireName.IsLegal (some owner) compat := by
  have hunderscore : Idl.IsIdentifier (c.name ++ "_") := hc.name.append (by decide)
  have hnoAlias : ∀ {alt : String}, alt ∈ c.altName → False := by simp [hc.noAlias]
  -- The name is kept, corrected, or kept with the corrected one as its alias.
  cases h with
  | keep hne =>
    exact {
      name := isIdentifier_withLead c hc.name
      altName := by simp [wireName, leadName, hc.noAlias]
      strict := fun _ => ⟨by simp [wireName, leadName, hc.noAlias], fun o ho heq =>
        hne (Option.some.inj ho ▸ heq)⟩
      aliased := by simp [wireName, leadName, hc.noAlias] }
  | correct heq =>
    exact {
      name := isIdentifier_withLead c hunderscore
      altName := by simp [wireName, leadName, hc.noAlias]
      strict := fun _ => ⟨by simp [wireName, leadName, hc.noAlias], fun o ho hsame =>
        foldedWith_underscore_ne c hc.name
          ((Option.some.inj ho ▸ hsame : c.foldedWith (c.name ++ "_") = _).trans heq.symm)⟩
      aliased := by simp [wireName, leadName, hc.noAlias] }
  | addAlias heq hcompat =>
    exact {
      name := isIdentifier_withLead c hc.name
      altName := by
        rintro alt ⟨⟩
        exact isIdentifier_withLead c hunderscore
      strict := fun hstrict => absurd (hcompat.symm.trans hstrict) (by decide)
      aliased := fun _ => ⟨owner, rfl, heq⟩ }

/-- When the owner's name is looked at, all names are identifiers, and there are no aliases. -/
theorem escaped_of_bare (hcands : ∀ c ∈ cands, Bare c)
    (hreaders : propertyReaders h cands = .ok readers) : ∀ c ∈ disambiguateOverloads
      ((foldCase (cands.map (foldProperty readers))).map escapeName), Escaped c := by
  have hfolded : ∀ c ∈ cands.map (foldProperty readers), Bare c := by
    intro c hc
    obtain ⟨d, hd, rfl⟩ := List.mem_map.1 hc
    exact (hcands d hd).foldProperty (reader_ne_empty hreaders)
  refine escaped_disambiguateOverloads fun c hc => ?_
  obtain ⟨d, hd, rfl⟩ := List.mem_map.1 hc
  exact (bare_foldCase hfolded d hd).escapeName

theorem bare_ofOperations {operations : List Operation}
    (hoperations : ∀ op ∈ operations, op.name ≠ "") : ∀ c ∈ ofOperations operations, Bare c := by
  intro c hc
  obtain ⟨op, hop, rfl⟩ := exists_of_mem_ofOperations hc
  exact ⟨hoperations op hop, rfl⟩

/-- Names that are settled on are legal. -/
theorem isLegal_of_settle {owner : Option String} {compat : Bool} (hcands : ∀ c ∈ cands, Bare c)
    (hs : settle h owner compat cands = .ok settled) :
    ∀ c ∈ settled, c.wireName.IsLegal owner compat := by
  obtain ⟨readers, avoided, hreaders, havoid, rfl, -⟩ := passes_of_settle hs
  have hescaped := escaped_of_bare hcands hreaders
  intro e he
  obtain ⟨d, hd, rfl⟩ := List.mem_map.1 he
  cases owner with
  | none =>
    have hc : Escaped d := hescaped d (Except.ok.inj havoid ▸ hd)
    exact {
      name := isIdentifier_withLead d hc.name
      altName := by simp [wireName, leadName, hc.noAlias]
      strict := fun _ => ⟨by simp [wireName, leadName, hc.noAlias], by simp⟩
      aliased := by simp [wireName, leadName, hc.noAlias] }
  | some owner =>
    obtain ⟨avoided', hsplit, hall⟩ := avoided_of_avoidOwnerName havoid
    rw [List.nil_append] at hsplit
    subst hsplit
    obtain ⟨i, hi, rfl⟩ := List.mem_iff_getElem.1 hd
    have hi' := hall.length_eq ▸ hi
    exact (hall.get hi' hi).isLegal (hescaped _ (List.getElem_mem hi'))

end NameCandidate

namespace WireName

open NameCandidate

/-- Names that are assigned are the signatures' own, are legal, and differ otherwise than by
    letter case where the signatures differ. -/
theorem isLegal_assign {h : Hierarchy} {owner : Option String} {compat : Bool}
    {ops : List Operation} {names : List WireName} (hops : ∀ op ∈ ops, op.name ≠ "")
    (hs : assign h owner compat ops = .ok names) :
    ∃ nameOf : String → WireName, names = ops.map (fun op => nameOf op.signatureKey) ∧
      (∀ op ∈ ops, (nameOf op.signatureKey).IsLegal owner compat) ∧
      ∀ op ∈ ops, ∀ other ∈ ops, op.signatureKey ≠ other.signatureKey →
        ¬ Text.SameLetters (nameOf op.signatureKey).name (nameOf other.signatureKey).name := by
  obtain ⟨settled, hsettle, hnames, hfound⟩ := settled_of_assign hs
  refine ⟨nameOf settled, hnames, fun op hop => ?_, fun op hop other hother hkeys hsame => ?_⟩
  · obtain ⟨c, hc, -, hname⟩ := hfound op hop
    exact hname ▸ isLegal_of_settle (bare_ofOperations hops) hsettle c hc
  · obtain ⟨c, hc, hckey, hcname⟩ := hfound op hop
    obtain ⟨d, hd, hdkey, hdname⟩ := hfound other hother
    rw [hcname, hdname] at hsame
    have hcd : c = d := List.inj_on_of_nodup_map (nodup_settle hsettle) hc hd hsame
    exact hkeys (by rw [← hckey, ← hdkey, hcd])

/-- Operations whose names collide at every turn: a property, overloads, the owner's name with
    its correction taken, and a letter outside the interface language. -/
def collidingOperations : List Operation :=
  [{ name := "getCount", result := .int },
    { name := "setCount", params := [.int] },
    { name := "find", params := [.string] },
    { name := "find", params := [.int] },
    { name := "account" },
    { name := "account_" },
    { name := "über" }]

/-- Their names. -/
def collidingNames : List WireName :=
  [{ name := "get_count", property := some "count" },
    { name := "set_count", property := some "count" },
    { name := "find__CORBA_WStringValue" },
    { name := "find__long" },
    { name := "account", altName := some "account_" },
    { name := "account_" },
    { name := "U00FCber" }]

theorem isLegal_collidingNames :
    (∀ op ∈ collidingOperations, op.name ≠ "") ∧
      assign .standard (some "acme.Account") true collidingOperations = .ok collidingNames ∧
      ∃ nameOf : String → WireName,
        collidingNames = collidingOperations.map (fun op => nameOf op.signatureKey) ∧
        (∀ op ∈ collidingOperations,
          (nameOf op.signatureKey).IsLegal (some "acme.Account") true) ∧
        ∀ op ∈ collidingOperations, ∀ other ∈ collidingOperations,
          op.signatureKey ≠ other.signatureKey →
          ¬ Text.SameLetters (nameOf op.signatureKey).name (nameOf other.signatureKey).name := by
  have hops : ∀ op ∈ collidingOperations, op.name ≠ "" := by decide
  have hnames : assign .standard (some "acme.Account") true collidingOperations =
      .ok collidingNames := by decide +kernel
  exact ⟨hops, hnames, isLegal_assign hops hnames⟩

end WireName

end ComponentViews
