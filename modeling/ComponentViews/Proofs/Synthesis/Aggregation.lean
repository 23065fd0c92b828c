import ComponentViews.Proofs.Checks
import ComponentViews.Proofs.Synthesis.Mediation
import ComponentViews.Proofs.Synthesis.Remote

/-!
# The failures of operations that several interfaces declare

A view that aggregates interfaces goes through their operations one by one, and each is compared
with what is exposed under its signature so far, which the bean class may have settled already.
Still the order of the interfaces does not matter (`Request.resolves_exposure`): where all
declarations of a signature declare the same failures, these are the ones exposed; else those of
the bean method are, and there is a warning.

What is exposed after a few declarations is stated without their order (`Request.Resolves`). It
is preserved when one more declaration is added (`Request.Resolves.addExposed`). The bean class
decides alike whenever it is asked, since the rules ask for a bean method of each signature
(`Request.Decides`).
-/

namespace ComponentViews

namespace Operation

variable {declared other : List Operation} {op : Operation} {key : String}

/-- All declarations of a signature declare the same failures, in whichever order. -/
def AgreeOn (declared : List Operation) (key : String) : Prop :=
  ∀ a ∈ declared, ∀ b ∈ declared, a.signatureKey = key → b.signatureKey = key →
    a.throws.Perm b.throws

instance : Decidable (AgreeOn declared key) :=
  inferInstanceAs (Decidable (∀ a ∈ declared, ∀ b ∈ declared, a.signatureKey = key →
    b.signatureKey = key → a.throws.Perm b.throws))

theorem AgreeOn.mono (hagree : AgreeOn other key) (hsub : declared ⊆ other) :
    AgreeOn declared key :=
  fun a ha b hb => hagree a (hsub ha) b (hsub hb)

theorem agreeOn_congr (hsame : ∀ op, op ∈ declared ↔ op ∈ other) :
    AgreeOn declared key ↔ AgreeOn other key :=
  ⟨fun hagree => hagree.mono fun op => (hsame op).2,
    fun hagree => hagree.mono fun op => (hsame op).1⟩

/-- A declaration of another signature changes nothing. -/
theorem agreeOn_append_of_ne (hne : op.signatureKey ≠ key) :
    AgreeOn (declared ++ [op]) key ↔ AgreeOn declared key := by
  refine ⟨fun hagree => hagree.mono (List.subset_append_left _ _),
    fun hagree a ha b hb ha' hb' => ?_⟩
  rw [List.mem_append, List.mem_singleton] at ha hb
  exact hagree a (ha.resolve_right fun heq => hne (heq ▸ ha'))
    b (hb.resolve_right fun heq => hne (heq ▸ hb')) ha' hb'

/-- One more declaration has to agree with any of those there are. -/
theorem agreeOn_append_iff {a : Operation} (ha : a ∈ declared)
    (hkey : a.signatureKey = op.signatureKey) :
    AgreeOn (declared ++ [op]) op.signatureKey ↔
      AgreeOn declared op.signatureKey ∧ a.throws.Perm op.throws := by
  constructor
  · intro hagree
    exact ⟨hagree.mono (List.subset_append_left _ _),
      hagree a (List.mem_append_left _ ha) op (by simp) hkey rfl⟩
  · rintro ⟨hagree, hperm⟩
    have hall : ∀ b ∈ declared ++ [op], b.signatureKey = op.signatureKey →
        b.throws.Perm op.throws := by
      intro b hb hb'
      rw [List.mem_append, List.mem_singleton] at hb
      rcases hb with hb | rfl
      · exact (hagree b hb a ha hb' hkey).trans hperm
      · exact .refl _
    exact fun b hb c hc hb' hc' => (hall b hb hb').trans (hall c hc hc').symm

/-- The first declaration of a signature has nothing to agree with. -/
theorem agreeOn_append_of_not_mem (hnew : op.signatureKey ∉ declared.map (·.signatureKey)) :
    AgreeOn (declared ++ [op]) key ↔ AgreeOn declared key := by
  by_cases hne : op.signatureKey = key
  · subst hne
    have honly : ∀ a ∈ declared, a.signatureKey ≠ op.signatureKey :=
      fun a ha heq => hnew (heq ▸ List.mem_map_of_mem ha)
    refine iff_of_true (fun a ha b hb ha' hb' => ?_) fun a ha _ _ ha' => absurd ha' (honly a ha)
    rw [List.mem_append, List.mem_singleton] at ha hb
    rw [ha.resolve_left fun ha => honly a ha ha', hb.resolve_left fun hb => honly b hb hb']
  · exact agreeOn_append_of_ne hne

end Operation

namespace Request

open Operation

variable {r : Request} {h : Hierarchy} {declared other : List Operation}
  {found : List Operation × List String} {op : Operation}

/-- The bean class has a method of every signature declared, and signatures are told from their
    keys. -/
structure Decides (r : Request) (declared : List Operation) : Prop where
  isSome_find? : ∀ op ∈ declared, (r.bean.find? op.name op.params).isSome = true
  separates : ∀ a ∈ declared, ∀ b ∈ declared, a.signatureKey = b.signatureKey →
    a.name = b.name ∧ a.params = b.params

/-- A warning about two declarations of a signature. -/
def WarnsOf (r : Request) (declared : List Operation) (key warning : String) : Prop :=
  ∃ a ∈ declared, ∃ b ∈ declared, a.signatureKey = key ∧ b.signatureKey = key ∧
    warning = r.divergenceWarning a b

/-- What a view exposes for the declarations of its interfaces, whatever their order, and the
    warnings that this has led to. -/
structure Resolves (r : Request) (declared : List Operation)
    (found : List Operation × List String) : Prop where
  /-- Each signature declared is exposed. -/
  keys : ∀ key, key ∈ found.1.map (·.signatureKey) ↔ key ∈ declared.map (·.signatureKey)
  /-- None is exposed twice. -/
  nodup : (found.1.map (·.signatureKey)).Nodup
  /-- Operations are exposed as declared, but for the failures. -/
  origin : ∀ op ∈ found.1, ∃ a ∈ declared, op = { a with throws := op.throws }
  /-- Failures on which the declarations agree stand. -/
  agreed : ∀ op ∈ found.1, AgreeOn declared op.signatureKey →
    ∀ a ∈ declared, a.signatureKey = op.signatureKey → op.throws.Perm a.throws
  /-- Else those of the bean method do. -/
  settled : ∀ op ∈ found.1, ¬ AgreeOn declared op.signatureKey →
    ∃ m, r.bean.find? op.name op.params = some m ∧ op.throws = m.throws
  /-- Each warning is about a signature on which declarations do not agree, and there is one for
      each. -/
  warned : ∃ keys, List.Forall₂ (r.WarnsOf declared) keys found.2 ∧
    ∀ key, key ∈ keys ↔ ¬ AgreeOn declared key

/-! ### One more declaration -/

theorem Decides.mono (hbean : r.Decides other) (hsub : declared ⊆ other) : r.Decides declared where
  isSome_find? op hop := hbean.isSome_find? op (hsub hop)
  separates a ha b hb := hbean.separates a (hsub ha) b (hsub hb)

theorem WarnsOf.mono {key warning : String} (hwarns : r.WarnsOf declared key warning)
    (hsub : declared ⊆ other) : r.WarnsOf other key warning := by
  obtain ⟨a, ha, b, hb, hwarning⟩ := hwarns
  exact ⟨a, hsub ha, b, hsub hb, hwarning⟩

/-- Where the bean class decides, a warning does not tell the failures of the first of the two
    operations that it is about. -/
theorem divergenceWarning_withThrows {a : Operation} {throws : List Ty}
    (hop : (r.bean.find? op.name op.params).isSome = true) :
    r.divergenceWarning { a with throws } op = r.divergenceWarning a op := by
  obtain ⟨m, hm⟩ := Option.isSome_iff_exists.1 hop
  simp only [divergenceWarning, settledFailures, hm, Option.map_some, Option.getD_some]
  rfl

namespace Resolves

theorem nil : r.Resolves [] ([], []) where
  keys _ := Iff.rfl
  nodup := List.nodup_nil
  origin _ hop := absurd hop List.not_mem_nil
  agreed _ hop := absurd hop List.not_mem_nil
  settled _ hop := absurd hop List.not_mem_nil
  warned := ⟨[], .nil, fun _ => iff_of_false List.not_mem_nil fun hdiffer =>
    hdiffer fun _ ha => absurd ha List.not_mem_nil⟩

/-- Only which operations are declared matters. -/
theorem congr (hfound : r.Resolves declared found) (hsame : ∀ op, op ∈ declared ↔ op ∈ other) :
    r.Resolves other found where
  keys key := by
    rw [hfound.keys, List.mem_map, List.mem_map]
    simp only [hsame]
  nodup := hfound.nodup
  origin op hop := by
    obtain ⟨a, ha, heq⟩ := hfound.origin op hop
    exact ⟨a, (hsame a).1 ha, heq⟩
  agreed op hop hagree a ha :=
    hfound.agreed op hop ((agreeOn_congr hsame).2 hagree) a ((hsame a).2 ha)
  settled op hop hdiffer :=
    hfound.settled op hop fun hagree => hdiffer ((agreeOn_congr hsame).1 hagree)
  warned := by
    obtain ⟨keys, hwarned, hkeys⟩ := hfound.warned
    exact ⟨keys, hwarned.imp fun _ _ hwarns => hwarns.mono fun op => (hsame op).1,
      fun key => by rw [hkeys, agreeOn_congr hsame]⟩

/-- Where a declaration changes nothing about who agrees, the warnings are those there were. -/
theorem warned_append (hfound : r.Resolves declared found)
    (hagree : ∀ key, AgreeOn (declared ++ [op]) key ↔ AgreeOn declared key) :
    ∃ keys, List.Forall₂ (r.WarnsOf (declared ++ [op])) keys found.2 ∧
      ∀ key, key ∈ keys ↔ ¬ AgreeOn (declared ++ [op]) key := by
  obtain ⟨keys, hwarned, hkeys⟩ := hfound.warned
  exact ⟨keys, hwarned.imp fun _ _ hwarns => hwarns.mono (List.subset_append_left _ _),
    fun key => by rw [hkeys, hagree]⟩

/-- The first declaration of a signature is exposed. -/
theorem addNew (hfound : r.Resolves declared found)
    (hnew : op.signatureKey ∉ declared.map (·.signatureKey)) :
    r.Resolves (declared ++ [op]) (found.1 ++ [op], found.2) := by
  -- No other declaration has the signature, so nothing can disagree about it.
  have hagree : ∀ key, AgreeOn (declared ++ [op]) key ↔ AgreeOn declared key :=
    fun key => agreeOn_append_of_not_mem hnew
  have hne : ∀ o ∈ found.1, o.signatureKey ≠ op.signatureKey :=
    fun o ho heq => hnew ((hfound.keys _).1 (heq ▸ List.mem_map_of_mem ho))
  have hmem : ∀ o ∈ (found.1 ++ [op], found.2).1, o ∈ found.1 ∨ o = op := by simp
  refine ⟨fun key => ?_, ?_, fun o ho => ?_, fun o ho hsame a ha ha' => ?_, fun o ho hdiffer => ?_,
    hfound.warned_append hagree⟩
  · rw [List.map_append, List.map_append, List.mem_append, List.mem_append, hfound.keys]
  · rw [List.map_append, List.map_singleton]
    exact hfound.nodup.append (List.nodup_singleton _)
      (List.disjoint_singleton.2 fun hmem => hnew ((hfound.keys _).1 hmem))
  · rcases hmem o ho with ho | rfl
    · obtain ⟨a, ha, heq⟩ := hfound.origin o ho
      exact ⟨a, List.mem_append_left _ ha, heq⟩
    · exact ⟨o, by simp, rfl⟩
  · rcases hmem o ho with hold | rfl
    · rw [List.mem_append, List.mem_singleton] at ha
      rcases ha with ha | rfl
      · exact hfound.agreed o hold ((hagree _).1 hsame) a ha ha'
      · exact absurd ha'.symm (hne o hold)
    · exact hsame o (by simp) a ha rfl ha'
  · rcases hmem o ho with ho | rfl
    · exact hfound.settled o ho fun hsame => hdiffer ((hagree _).2 hsame)
    · refine absurd ((hagree _).2 fun a ha _ _ ha' => ?_) hdiffer
      exact absurd (ha' ▸ List.mem_map_of_mem ha) hnew

/-- A declaration that agrees with what is exposed changes nothing. -/
theorem addAgreed (hfound : r.Resolves declared found) {first : Operation}
    (hfirst : first ∈ found.1) (hkey : first.signatureKey = op.signatureKey)
    (hperm : first.throws.Perm op.throws) : r.Resolves (declared ++ [op]) found := by
  obtain ⟨a, ha, heq⟩ := hfound.origin first hfirst
  have ha' : a.signatureKey = op.signatureKey := by rw [← hkey, heq]; rfl
  have hagree : ∀ key, AgreeOn (declared ++ [op]) key ↔ AgreeOn declared key := by
    intro key
    by_cases hne : op.signatureKey = key
    · -- If all agreed so far, the new one agrees with each of them. If not, it happens to agree
      -- with the bean method, which changes nothing.
      subst hne
      rw [agreeOn_append_iff ha ha', and_iff_left_of_imp]
      exact fun hsame =>
        (hfound.agreed first hfirst (hkey ▸ hsame) a ha (ha'.trans hkey.symm)).symm.trans hperm
    · exact agreeOn_append_of_ne hne
  refine ⟨fun key => ?_, hfound.nodup, fun o ho => ?_, fun o ho hsame b hb hb' => ?_,
    fun o ho hdiffer => hfound.settled o ho fun hsame => hdiffer ((hagree _).2 hsame),
    hfound.warned_append hagree⟩
  · rw [hfound.keys, List.map_append, List.mem_append, List.map_singleton, List.mem_singleton,
      or_iff_left_of_imp]
    rintro rfl
    exact ha' ▸ List.mem_map_of_mem ha
  · obtain ⟨b, hb, hob⟩ := hfound.origin o ho
    exact ⟨b, List.mem_append_left _ hb, hob⟩
  · rw [List.mem_append, List.mem_singleton] at hb
    rcases hb with hb | rfl
    · exact hfound.agreed o ho ((hagree _).1 hsame) b hb hb'
    · -- What is exposed under the signature is the operation compared with.
      have hsole : o = first :=
        List.inj_on_of_nodup_map hfound.nodup ho hfirst (hb'.symm.trans hkey.symm)
      exact hsole ▸ hperm

/-- What is exposed when the failures of a signature have been settled: declarations of it with
    these failures, and the others as they were. -/
theorem mem_settled (hfound : r.Resolves declared found) {throws : List Ty} {o : Operation}
    (ho : o ∈ found.1.map fun o =>
      if o.signatureKey == op.signatureKey then { o with throws } else o) :
    (∃ a ∈ declared, a.signatureKey = op.signatureKey ∧ o = { a with throws }) ∨
      (o ∈ found.1 ∧ o.signatureKey ≠ op.signatureKey) := by
  obtain ⟨old, hold, rfl⟩ := List.mem_map.1 ho
  split
  · rename_i hsame
    obtain ⟨a, ha, heq⟩ := hfound.origin old hold
    refine .inl ⟨a, ha, ?_, ?_⟩
    · rw [← beq_iff_eq.1 hsame, heq]; rfl
    · rw [heq]
  · rename_i hne
    exact .inr ⟨hold, fun hsame => hne (beq_iff_eq.2 hsame)⟩

/-- A warning about a declaration that does not agree. -/
theorem warned_settled (hfound : r.Resolves declared found)
    (hdiffer : ¬ AgreeOn (declared ++ [op]) op.signatureKey) {warning : String}
    (hwarns : r.WarnsOf (declared ++ [op]) op.signatureKey warning) :
    ∃ keys, List.Forall₂ (r.WarnsOf (declared ++ [op])) keys (found.2 ++ [warning]) ∧
      ∀ key, key ∈ keys ↔ ¬ AgreeOn (declared ++ [op]) key := by
  obtain ⟨keys, hwarned, hkeys⟩ := hfound.warned
  have hbefore := hwarned.imp fun _ _ hwarns => hwarns.mono (List.subset_append_left _ [op])
  refine ⟨keys ++ [op.signatureKey], List.rel_append hbefore (.cons hwarns .nil), fun key => ?_⟩
  rw [List.mem_append, List.mem_singleton]
  by_cases hne : op.signatureKey = key
  · exact hne ▸ iff_of_true (.inr rfl) hdiffer
  · rw [agreeOn_append_of_ne hne, hkeys, or_iff_left (Ne.symm hne)]

/-- Where a declaration does not agree with what is exposed, the bean class settles the failures. -/
theorem addSettled (hfound : r.Resolves declared found) (hbean : r.Decides (declared ++ [op]))
    {first : Operation} (hfirst : first ∈ found.1) (hkey : first.signatureKey = op.signatureKey)
    (hperm : ¬ first.throws.Perm op.throws) :
    r.Resolves (declared ++ [op])
      (found.1.map fun o => if o.signatureKey == op.signatureKey then
          { o with throws := r.settledFailures first op } else o,
        found.2 ++ [r.divergenceWarning first op]) := by
  obtain ⟨a, ha, heq⟩ := hfound.origin first hfirst
  have ha' : a.signatureKey = op.signatureKey := by rw [← hkey, heq]; rfl
  have hsome := hbean.isSome_find? op (by simp)
  obtain ⟨m, hm⟩ := Option.isSome_iff_exists.1 hsome
  have hthrows : r.settledFailures first op = m.throws := by rw [settledFailures, hm]; rfl
  -- The declarations differ by this one, whatever those before it had in common.
  have hdiffer : ¬ AgreeOn (declared ++ [op]) op.signatureKey := by
    rw [agreeOn_append_iff ha ha']
    rintro ⟨hsame, hop⟩
    exact hperm ((hfound.agreed first hfirst (hkey ▸ hsame) a ha (ha'.trans hkey.symm)).trans hop)
  refine ⟨fun key => ?_, ?_, fun o ho => ?_, fun o ho hsame b hb hb' => ?_,
    fun o ho hdiffer => ?_, hfound.warned_settled hdiffer ?_⟩
  · rw [map_signatureKey_settled, hfound.keys, List.map_append, List.mem_append,
      List.map_singleton, List.mem_singleton, or_iff_left_of_imp]
    rintro rfl
    exact ha' ▸ List.mem_map_of_mem ha
  · exact (map_signatureKey_settled ..).symm ▸ hfound.nodup
  · rcases hfound.mem_settled ho with ⟨b, hb, -, rfl⟩ | ⟨ho, -⟩
    · exact ⟨b, List.mem_append_left _ hb, rfl⟩
    · obtain ⟨b, hb, hob⟩ := hfound.origin o ho
      exact ⟨b, List.mem_append_left _ hb, hob⟩
  · rcases hfound.mem_settled ho with ⟨c, -, hc, rfl⟩ | ⟨ho, hne⟩
    · exact absurd (hc ▸ hsame) hdiffer
    · rw [List.mem_append, List.mem_singleton] at hb
      rcases hb with hb | rfl
      · exact hfound.agreed o ho ((agreeOn_append_of_ne hne.symm).1 hsame) b hb hb'
      · exact absurd hb'.symm hne
  · rcases hfound.mem_settled ho with ⟨c, hc, hckey, rfl⟩ | ⟨ho, hne⟩
    · obtain ⟨hname, hparams⟩ :=
        hbean.separates c (List.mem_append_left _ hc) op (by simp) hckey
      exact ⟨m, by rw [← hm]; exact congrArg₂ _ hname hparams, hthrows⟩
    · exact hfound.settled o ho fun hsame => hdiffer ((agreeOn_append_of_ne hne.symm).2 hsame)
  · refine ⟨a, List.mem_append_left _ ha, op, by simp, ha', rfl, ?_⟩
    rw [heq, divergenceWarning_withThrows hsome]

/-- Another declaration is taken in. -/
theorem addExposed (hfound : r.Resolves declared found) (hbean : r.Decides (declared ++ [op])) :
    r.Resolves (declared ++ [op]) (r.addExposed found op) := by
  simp only [Request.addExposed]
  split
  · rename_i hnone
    refine hfound.addNew fun hmem => ?_
    obtain ⟨o, ho, hkey⟩ := List.mem_map.1 ((hfound.keys _).2 hmem)
    exact List.find?_eq_none.1 hnone o ho (beq_iff_eq.2 hkey)
  · rename_i first hfirst
    have hmem := List.mem_of_find?_eq_some hfirst
    have hfirst := List.find?_some hfirst
    have hkey := beq_iff_eq.1 hfirst
    split
    · rename_i hperm
      exact hfound.addAgreed hmem hkey (List.isPerm_iff.1 hperm)
    · rename_i hperm
      exact hfound.addSettled hbean hmem hkey fun hsame => hperm (List.isPerm_iff.2 hsame)

/-- All declarations are taken in one after the other. -/
theorem foldl {candidates : List Operation} (hfound : r.Resolves declared found)
    (hbean : r.Decides (declared ++ candidates)) :
    r.Resolves (declared ++ candidates) (candidates.foldl r.addExposed found) := by
  induction candidates generalizing declared found with
  | nil => rwa [List.append_nil]
  | cons op rest ih =>
    rw [List.append_cons] at hbean ⊢
    exact ih (hfound.addExposed (hbean.mono (List.subset_append_left _ _))) hbean

end Resolves

/-! ### The interfaces in any order -/

theorem isSome_find?_of_checkInterfaces (hmethods : r.kind.requiresBeanMethods = true)
    (hchecked : checkInterfaces h r = .ok ()) :
    ∀ op ∈ r.interfaceOperations, (r.bean.find? op.name op.params).isSome = true := by
  intro op hop
  simp only [checkInterfaces, hmethods, if_true] at hchecked
  split at hchecked
  · rw [Except.bind_unit_eq_ok] at hchecked
    exact absurd hchecked.1 (by simp [throw, throwThe, MonadExceptOf.throw])
  split at hchecked
  · rw [Except.bind_unit_eq_ok] at hchecked
    exact absurd hchecked.1 (by simp [throw, throwThe, MonadExceptOf.throw])
  rw [Except.bind_unit_eq_ok] at hchecked
  cases hmissing : r.interfaceOperations.find? fun op =>
      (r.bean.find? op.name op.params).isNone with
  | none => simpa [Option.isSome_iff_ne_none] using List.find?_eq_none.1 hmissing op hop
  | some missing => simp [hmissing, throw, throwThe, MonadExceptOf.throw] at hchecked

/-- The rules ask for a bean method for each operation of an interface. -/
theorem decides_of_checkRules (hrules : checkRules h r = .ok ())
    (hkind : r.kind.supportsAggregate = true) (hr : r.HasSeparableParams) :
    r.Decides r.interfaceOperations where
  isSome_find? op hop := by
    have hmethods : r.kind.requiresBeanMethods = true := by
      cases hcase : r.kind <;> simp_all [ViewKind.supportsAggregate] <;> rfl
    rw [checkRules, Except.bind_unit_eq_ok] at hrules
    exact isSome_find?_of_checkInterfaces hmethods hrules.1 op hop
  separates a ha b hb hkey := by
    have hparams : ∀ op ∈ r.interfaceOperations, ∀ ty ∈ op.params,
        Text.Lacks [';', '/', '('] ty.name := by
      intro op hop
      obtain ⟨i, hi, hop⟩ := List.mem_flatMap.1 hop
      obtain ⟨m, hm, rfl⟩ := List.mem_map.1 hop
      rw [Operation.params_ownedBy]
      exact hr m (List.mem_append_left _ (List.mem_flatMap.2 ⟨i, List.mem_append_left _ hi, hm⟩))
    exact signature_injective (hparams a ha) (hparams b hb) hkey

/-- Whatever the order of the interfaces, the same signatures are exposed; each with the failures
    that all its declarations declare, or where these differ, with those of the bean method; and
    warnings are about the latter. -/
theorem resolves_exposure (hrules : checkRules h r = .ok ())
    (hkind : r.kind.supportsAggregate = true) (hinterfaces : r.interfaces ≠ [])
    (hr : r.HasSeparableParams) {interfaces : List Interface}
    (horder : interfaces.Perm r.interfaces) :
    r.Resolves r.interfaceOperations ({ r with interfaces } : Request).exposure := by
  have hsame : ∀ op, op ∈ interfaces.flatMap (·.ownedMethods) ↔ op ∈ r.interfaceOperations := by
    intro op
    rw [interfaceOperations, List.mem_flatMap, List.mem_flatMap]
    simp only [horder.mem_iff]
  have hbean : r.Decides ([] ++ interfaces.flatMap (·.ownedMethods)) :=
    (decides_of_checkRules hrules hkind hr).mono fun op => (hsame op).1
  have hexposure : ({ r with interfaces } : Request).exposure =
      (interfaces.flatMap (·.ownedMethods)).foldl r.addExposed ([], []) := by
    have hsome : interfaces ≠ [] := fun hnil => hinterfaces (by simpa [hnil] using horder)
    rw [exposure, exposureCandidates, if_neg (by simp [hsome])]
    rfl
  rw [hexposure]
  exact (Resolves.nil.foldl hbean).congr hsame

/-- An account with several business interfaces. Both that close it declare the same failures; one
    of those that rename it declares another. -/
def sharedAccount (interfaces : List Interface) : Request where
  component := "Account"
  kind := .businessLocal
  interfaces
  bean := {
    className := "acme.AccountBean"
    methods := [
      { name := "close" },
      { name := "rename", params := [.string], throws := [.named "acme.Refused"] }] }

/-- An interface that declares failures for two operations. -/
def teller : Interface where
  name := "acme.Teller"
  methods := [
    { name := "close", throws := [.named "acme.Locked", .named "acme.Closed"] },
    { name := "rename", params := [.string], throws := [.named "acme.Locked"] }]

/-- An interface that agrees with it about closing, but not about renaming. -/
def auditor : Interface where
  name := "acme.Auditor"
  methods := [
    { name := "close", throws := [.named "acme.Closed", .named "acme.Locked"] },
    { name := "rename", params := [.string], throws := [.named "acme.Closed"] }]

/-- An interface that agrees with the first about renaming. -/
def holder : Interface where
  name := "acme.Holder"
  methods := [{ name := "rename", params := [.string], throws := [.named "acme.Locked"] }]

/-- Renaming is settled by the bean class, also where the two that agree come first. -/
theorem resolves_exposure_sharedAccount :
    (sharedAccount [teller, auditor, holder]).Resolves
      (sharedAccount [teller, auditor, holder]).interfaceOperations
      (sharedAccount [holder, teller, auditor]).exposure := by
  have hok : ∃ checked, checkRules (sharedAccount [teller, auditor, holder]).hierarchy
      (sharedAccount [teller, auditor, holder]) = .ok checked ∧ checked = () := by
    decide
  obtain ⟨_, hrules, rfl⟩ := hok
  exact resolves_exposure hrules rfl (by decide) (by decide) (by decide)

/-- How many warnings there are about a signature does depend on the order: what the bean class has
    settled may differ again from the next declaration. -/
example : (sharedAccount [teller, auditor, holder]).exposure.2.length = 2 ∧
    (sharedAccount [holder, teller, auditor]).exposure.2.length = 1 := by
  decide

end Request

end ComponentViews
