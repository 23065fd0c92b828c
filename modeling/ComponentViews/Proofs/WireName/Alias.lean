import ComponentViews.Proofs.Execution.Routing
import ComponentViews.Proofs.WireName.Legal

/-!
# Aliases

An operation gets an alias where its name is the owner's and the correction of the name is taken.
The alias is the correction, so that it is also the name of another operation, but for letter
case at most (`WireName.exists_taken_of_assign`). In a skeleton this other operation comes first:
an alias leads to the operation that has it only where letter case makes the difference
(`Skeleton.routes_altName_iff`).
-/

namespace ComponentViews

namespace NameCandidate

variable {h : Hierarchy} {owner : String} {compat : Bool} {c d : NameCandidate}
  {done cands settled : List NameCandidate}

/-- What comes before the candidates that are looked at stays, and so does what is not named like
    the owner. -/
theorem mem_of_avoidOwnerName (hs : avoidOwnerName owner compat done cands = .ok settled)
    (hd : d ∈ done ∨ d ∈ cands ∧ d.foldedWith d.name ≠ owner) : d ∈ settled := by
  obtain ⟨avoided, rfl, havoided⟩ := avoided_of_avoidOwnerName hs
  rcases hd with hd | ⟨hd, hne⟩
  · exact List.mem_append_left _ hd
  · obtain ⟨i, hi, rfl⟩ := List.mem_iff_getElem.1 hd
    obtain ⟨e, he, havoid⟩ : ∃ e ∈ avoided, AvoidedName owner compat cands[i] e :=
      ⟨_, List.getElem_mem (havoided.length_eq ▸ hi), havoided.get hi (havoided.length_eq ▸ hi)⟩
    cases havoid with
    | keep => exact List.mem_append_right _ he
    | correct heq => exact absurd heq hne
    | addAlias heq => exact absurd heq hne

/-- An alias is the correction of a name, and taken. -/
def Taken (settled : List NameCandidate) (c : NameCandidate) : Prop :=
  ∀ alt ∈ c.altName, alt = c.name ++ "_" ∧
    ∃ o ∈ settled, o.foldedWith o.name = c.foldedWith alt

theorem taken_of_avoidOwnerName (hcands : ∀ c ∈ cands, Escaped c)
    (hs : avoidOwnerName owner compat done cands = .ok settled)
    (hdone : ∀ c ∈ done, Taken settled c) : ∀ c ∈ settled, Taken settled c := by
  induction cands generalizing done with
  | nil =>
    rw [avoidOwnerName] at hs
    cases hs
    exact hdone
  | cons c rest ih =>
    rw [List.forall_mem_cons] at hcands
    -- One more candidate is done, in the place of `c`.
    have hnext : ∀ {d : NameCandidate}, Taken settled d →
        avoidOwnerName owner compat (done ++ [d]) rest = .ok settled →
          ∀ c ∈ settled, Taken settled c := fun hd hrest =>
      ih hcands.2 hrest (List.forall_mem_append.2 ⟨hdone, List.forall_mem_singleton.2 hd⟩)
    have hnoAlias : ∀ {name : String}, Taken settled { c with name } := by
      intro name alt halt
      rw [show c.altName = none from hcands.1.noAlias] at halt
      cases halt
    rw [avoidOwnerName] at hs
    split at hs
    · exact hnext hnoAlias hs
    rename_i heq
    have hname : c.foldedWith c.name = owner := by simpa using heq
    simp only at hs
    split at hs
    · exact hnext hnoAlias hs
    rename_i o hfind
    split at hs
    · have htaken : o.foldedWith o.name = c.foldedWith (c.name ++ "_") := by
        simpa using List.find?_some hfind
      have hne : o.foldedWith o.name ≠ owner :=
        htaken ▸ hname ▸ foldedWith_underscore_ne c hcands.1.name
      refine hnext ?_ hs
      rintro alt ⟨⟩
      refine ⟨rfl, o, mem_of_avoidOwnerName hs ?_, htaken⟩
      rcases List.mem_append.1 (List.mem_of_find?_eq_some hfind) with ho | ho
      · exact .inl (List.mem_append_left _ ho)
      · exact .inr ⟨ho, hne⟩
    · cases hs

/-- Once names are settled on, every alias is taken, but for letter case. -/
theorem taken_of_settle {owner : Option String} (hcands : ∀ c ∈ cands, Bare c)
    (hs : settle h owner compat cands = .ok settled) :
    ∀ c ∈ settled, ∀ alt ∈ c.altName, alt = c.name ++ "_" ∧
      ∃ o ∈ settled, Text.SameLetters o.name alt := by
  obtain ⟨readers, avoided, hreaders, havoid, rfl, -⟩ := passes_of_settle hs
  have hescaped := escaped_of_bare hcands hreaders
  have htaken : ∀ c ∈ avoided, Taken avoided c := by
    cases owner with
    | none =>
      cases havoid
      intro c hc alt halt
      rw [(hescaped c hc).noAlias] at halt
      cases halt
    | some owner =>
      exact taken_of_avoidOwnerName hescaped havoid fun c hc => absurd hc List.not_mem_nil
  rw [List.forall_mem_map]
  intro c hc alt halt
  obtain ⟨before, hbefore, rfl⟩ := Option.map_eq_some_iff.1 halt
  obtain ⟨rfl, o, ho, hsame⟩ := htaken c hc before hbefore
  exact ⟨(String.append_assoc ..).symm, leadName o, List.mem_map_of_mem ho, hsame⟩

end NameCandidate

namespace WireName

open NameCandidate

/-- An alias is the name of its operation with an underscore, and so is the name of another
    operation, but for letter case. -/
theorem exists_taken_of_assign {h : Hierarchy} {owner : Option String} {compat : Bool}
    {ops : List Operation} {names : List WireName} (hops : ∀ op ∈ ops, op.name ≠ "")
    (hs : assign h owner compat ops = .ok names) :
    ∀ wire ∈ names, ∀ alt ∈ wire.altName, alt = wire.name ++ "_" ∧
      ∃ other ∈ names, Text.SameLetters other.name alt := by
  obtain ⟨settled, hsettle, rfl, hfound⟩ := settled_of_assign hs
  rw [List.forall_mem_map]
  intro op hop alt halt
  obtain ⟨c, hc, -, hname⟩ := hfound op hop
  rw [hname] at halt ⊢
  obtain ⟨halt, o, ho, hsame⟩ := taken_of_settle (bare_ofOperations hops) hsettle c hc alt halt
  -- The candidate with this name is one of an operation.
  have hmem : o.op ∈ NameCandidate.ops (ofOperations ops) :=
    ops_settle hsettle ▸ List.mem_map_of_mem ho
  obtain ⟨d, hd, hdop⟩ := List.mem_map.1 hmem
  obtain ⟨other, hother, rfl⟩ := exists_of_mem_ofOperations hd
  obtain ⟨e, he, hekey, hename⟩ := hfound other hother
  have heo : e = o := List.inj_on_of_nodup_map (nodup_keys_settle hsettle) he ho
    (hekey.trans (congrArg Operation.signatureKey hdop))
  exact ⟨halt, _, List.mem_map_of_mem hother, by rw [hename, heo]; exact hsame⟩

/-- The name of the account is left to the operation that has its correction. -/
example : assign .standard (some "acme.Account") true
    [{ name := "account" }, { name := "account_" }] =
    .ok [{ name := "account", altName := some "account_" }, { name := "account_" }] := by
  decide +kernel

end WireName

namespace Skeleton

/-- What aliases are worth in a skeleton whose operations have been given names. A name leads to
    the handler that is called for it. An alias leads to the handler of its operation only if the
    operation that has taken it as its name is spelled with other letter case. -/
theorem routes_altName_iff {h : Hierarchy} {owner : Option String} {compat : Bool}
    {ops : List Operation} {methods : List Served} (hops : ∀ op ∈ ops, op.name ≠ "")
    (hs : WireName.assign h owner compat ops = .ok (methods.map (·.operation.wire))) {m : Served}
    (hm : m ∈ methods) {alt : String} (halt : alt ∈ m.operation.wire.altName) :
    (∃ x ∈ methods, Text.SameLetters x.operation.wire.name alt) ∧
      ((routes methods).get? alt = some (handlerName m.operation.wire.name) ↔
        ∀ x ∈ methods, x.operation.wire.name ≠ alt) := by
  have htaken := WireName.exists_taken_of_assign hops hs
  rw [List.forall_mem_map] at htaken
  obtain ⟨hcorrected, other, hother, hsame⟩ := htaken m hm alt halt
  obtain ⟨x, hx, rfl⟩ := List.mem_map.1 hother
  refine ⟨⟨x, hx, hsame⟩, ?_⟩
  rw [get?_routes, servedBy]
  cases hname : methods.find? (·.operation.wire.name == alt) with
  | some y =>
    have hy : y.operation.wire.name = alt := by simpa using List.find?_some hname
    refine ⟨fun hroute => ?_, fun hnone => absurd hy (hnone y (List.mem_of_find?_eq_some hname))⟩
    have hself : alt = m.operation.wire.name := hy ▸ handlerName_injective (Option.some.inj hroute)
    have hlength := congrArg String.length (hcorrected.symm.trans hself)
    rw [String.length_append] at hlength
    exact absurd hlength (Nat.succ_ne_self _)
  | none =>
    obtain ⟨y, hy⟩ : ∃ y, methods.find? (·.operation.wire.altName == some alt) = some y :=
      Option.isSome_iff_exists.1 (List.find?_isSome.2 ⟨m, hm, by simpa using halt⟩)
    have hyalt : y.operation.wire.altName = some alt := by simpa using List.find?_some hy
    -- Operations of one alias have one name.
    have hyname : y.operation.wire.name = m.operation.wire.name := by
      obtain ⟨hycorrected, -⟩ := htaken y (List.mem_of_find?_eq_some hy) alt hyalt
      exact (String.append_left_inj "_").1 (hycorrected.symm.trans hcorrected)
    obtain ⟨z, hz⟩ := Option.isSome_iff_exists.1 (isSome_find?_name (List.mem_of_find?_eq_some hy))
    have hzname : z.operation.wire.name = y.operation.wire.name := by
      simpa using List.find?_some hz
    rw [Option.none_or, hy, Option.bind_some, hz, Option.map_some, hzname, hyname]
    exact iff_of_true rfl fun x hx => by simpa using List.find?_eq_none.1 hname x hx

end Skeleton

end ComponentViews
