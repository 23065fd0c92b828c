import ComponentViews.Failures
import ComponentViews.Proofs.Hierarchy.Standard

/-!
# The order of handlers

A handler catches the subtypes of its class too, so that it takes the failures of every
handler behind it for a subtype. Here is why no generated handler is taken:

* `foldl_addDeclared`: the application's failures are those declared that need a declaration and,
  unless the settings say otherwise, are not the protocol's, each once;
* `subtypesFirst` only rearranges them, and where no two of them are subtypes of each other there is
  always one without a strict subtype among those left over, so that none stands before one of its
  subtypes. Failures that stand so already are left as they are (`subtypesFirst_eq_self`);
* `handlersReachable_handlerTypes`: the handlers for runtime failures and for the protocol's take
  nothing from those behind them, as these are not the application's.

`classify_application` puts all of it together.
-/

namespace ComponentViews

/-! ### Lists without repetitions -/

section

variable {α : Type} [DecidableEq α]

theorem List.eraseDups_concat (l : List α) (a : α) :
    (l ++ [a]).eraseDups = if a ∈ l then l.eraseDups else l.eraseDups ++ [a] := by
  rw [List.eraseDups_append]
  by_cases ha : a ∈ l <;> simp [List.removeAll, ha, List.eraseDups_cons]

theorem List.nodup_eraseDups (l : List α) : l.eraseDups.Nodup := by
  induction l using List.reverseRecOn with
  | nil => exact List.nodup_nil
  | append_singleton l a ih =>
    rw [eraseDups_concat]
    split
    · exact ih
    · rename_i ha
      exact List.nodup_append.2 ⟨ih, List.nodup_singleton a, fun b hb c hc => by
        rintro rfl
        exact ha (List.mem_eraseDups.1 (List.mem_singleton.1 hc ▸ hb))⟩

end

namespace Hierarchy

variable {h : Hierarchy}

/-! ### Subtypes before supertypes -/

/-- No two types of the list are subtypes of each other, unless they have one name. -/
def AntisymmOn (h : Hierarchy) (types : List Ty) : Prop :=
  ∀ a ∈ types, ∀ b ∈ types, h.isSubtype a.name b.name = true → h.isSubtype b.name a.name = true →
    a.name = b.name

theorem antisymmOn_of_acyclic (hac : h.Acyclic) (htop : h.ObjectIsTop) (types : List Ty) :
    h.AntisymmOn types :=
  fun _ _ _ _ hab hba => isSubtype_antisymm hac htop hab hba

/-- Among such types, subtypes of subtypes are subtypes: as every name is a subtype of
    `java.lang.Object`, none of them can be above it but itself. -/
theorem AntisymmOn.isSubtype_trans {types : List Ty} (hanti : h.AntisymmOn types) {a b c : Ty}
    (hb : b ∈ types) (hc : c ∈ types) (hab : h.isSubtype a.name b.name = true)
    (hbc : h.isSubtype b.name c.name = true) : h.isSubtype a.name c.name = true := by
  rcases isSubtype_iff.1 hab with heq | hobject | hup
  · rwa [heq]
  · have hcb : h.isSubtype c.name b.name = true := by
      rw [hobject]
      exact isSubtype_object h c.name
    rwa [← hanti b hb c hc hbc hcb]
  · rcases isSubtype_iff.1 hbc with heq | hobject | hfurther
    · rwa [← heq]
    · rw [hobject]
      exact isSubtype_object h a.name
    · exact isSubtype_iff.2 (.inr (.inr (hup.trans hfurther)))

theorem isMinimal_iff {types : List Ty} {ty : Ty} :
    h.isMinimal types ty = true ↔
      ∀ other ∈ types, h.isStrictSubtype other.name ty.name = false := by
  simp [isMinimal]

/-- Among types of which no two are subtypes of each other there is one without a strict
    subtype. -/
theorem exists_isMinimal {types : List Ty} (hanti : h.AntisymmOn types)
    (hne : types ≠ []) : ∃ ty ∈ types, h.isMinimal types ty = true := by
  let below (a b : {ty // ty ∈ types}) : Prop := h.isStrictSubtype a.1.name b.1.name = true
  have hfinite : Finite {ty // ty ∈ types} := types.finite_toSet
  have htrans : IsTrans _ below := ⟨fun a b c hab hbc => by
    have hab := isStrictSubtype_iff.1 hab
    have hbc := isStrictSubtype_iff.1 hbc
    refine isStrictSubtype_iff.2 ⟨fun hac => ?_, hanti.isSubtype_trans b.2 c.2 hab.2 hbc.2⟩
    exact hab.1 (hanti _ a.2 _ b.2 hab.2 (hac ▸ hbc.2))⟩
  have hirrefl : Std.Irrefl below := ⟨fun a ha => (isStrictSubtype_iff.1 ha).1 rfl⟩
  have hwf : WellFounded below := Finite.wellFounded_of_trans_of_irrefl below
  obtain ⟨first, hfirst⟩ := List.exists_mem_of_ne_nil types hne
  obtain ⟨least, -, hleast⟩ := hwf.has_min Set.univ ⟨⟨first, hfirst⟩, trivial⟩
  refine ⟨least.1, least.2, isMinimal_iff.2 fun other ho => ?_⟩
  exact Bool.eq_false_iff.2 (hleast ⟨other, ho⟩ trivial)

theorem subtypesFirst_go_perm (n : Nat) (types : List Ty) (hn : types.length ≤ n) :
    (subtypesFirst.go h n types).Perm types := by
  induction n generalizing types with
  | zero =>
    rw [List.length_eq_zero_iff.1 (Nat.le_zero.1 hn)]
    exact .nil
  | succ n ih =>
    cases types with
    | nil => exact .nil
    | cons ty rest =>
      have hmem : ((ty :: rest).find? (h.isMinimal (ty :: rest))).getD ty ∈ ty :: rest := by
        cases hfind : (ty :: rest).find? (h.isMinimal (ty :: rest)) with
        | none => exact List.mem_cons_self
        | some next => exact List.mem_of_find?_eq_some hfind
      rw [subtypesFirst.go]
      refine ((ih _ ?_).cons _).trans (List.perm_cons_erase hmem).symm
      rw [List.length_erase_of_mem hmem]
      simp only [List.length_cons] at hn ⊢
      omega

/-- Putting subtypes first only rearranges the types. -/
theorem subtypesFirst_perm (types : List Ty) : (h.subtypesFirst types).Perm types :=
  subtypesFirst_go_perm _ _ le_rfl

theorem subtypesFirst_go_ordered (n : Nat) (types : List Ty)
    (hn : types.length ≤ n) (hanti : h.AntisymmOn types) :
    (subtypesFirst.go h n types).Pairwise fun before ty =>
      h.isStrictSubtype ty.name before.name = false := by
  induction n generalizing types with
  | zero => exact .nil
  | succ n ih =>
    cases types with
    | nil => exact .nil
    | cons ty rest =>
      obtain ⟨least, hleast, hmin⟩ := exists_isMinimal hanti (List.cons_ne_nil ty rest)
      obtain ⟨next, hnext⟩ := Option.isSome_iff_exists.1
        (List.find?_isSome.2 ⟨least, hleast, hmin⟩)
      have hmem := List.mem_of_find?_eq_some hnext
      have hlen : ((ty :: rest).erase next).length ≤ n := by
        rw [List.length_erase_of_mem hmem]
        simp only [List.length_cons] at hn ⊢
        omega
      rw [subtypesFirst.go]
      simp only [hnext, Option.getD_some, List.pairwise_cons]
      refine ⟨fun sub hsub => ?_, ih _ hlen fun a ha b hb =>
        hanti a (List.mem_of_mem_erase ha) b (List.mem_of_mem_erase hb)⟩
      have hsub := List.mem_of_mem_erase ((subtypesFirst_go_perm n _ hlen).mem_iff.1 hsub)
      exact isMinimal_iff.1 (List.find?_some hnext) sub hsub

/-- No type stands before one of its strict subtypes. -/
theorem subtypesFirst_ordered {types : List Ty} (hanti : h.AntisymmOn types) :
    (h.subtypesFirst types).Pairwise fun before ty =>
      h.isStrictSubtype ty.name before.name = false :=
  subtypesFirst_go_ordered _ _ le_rfl hanti

theorem subtypesFirst_go_eq_self (n : Nat) (types : List Ty) (hn : types.length ≤ n)
    (hord : types.Pairwise fun before ty => h.isStrictSubtype ty.name before.name = false) :
    subtypesFirst.go h n types = types := by
  induction n generalizing types with
  | zero =>
    rw [List.length_eq_zero_iff.1 (Nat.le_zero.1 hn)]
    rfl
  | succ n ih =>
    cases types with
    | nil => rfl
    | cons ty rest =>
      obtain ⟨hhead, htail⟩ := List.pairwise_cons.1 hord
      have hmin : h.isMinimal (ty :: rest) ty = true := by
        refine isMinimal_iff.2 fun other hother => ?_
        rcases List.mem_cons.1 hother with rfl | hother
        · simp [isStrictSubtype]
        · exact hhead other hother
      rw [subtypesFirst.go, List.find?_cons_of_pos hmin, Option.getD_some, List.erase_cons_head,
        ih rest (Nat.le_of_succ_le_succ hn) htail]

/-- Types none of which stands before one of its strict subtypes keep their order. -/
theorem subtypesFirst_eq_self {types : List Ty}
    (hord : types.Pairwise fun before ty => h.isStrictSubtype ty.name before.name = false) :
    h.subtypesFirst types = types :=
  subtypesFirst_go_eq_self _ _ le_rfl hord

/-! ### Classification -/

variable {policy : FailurePolicy} {declared : List Ty} {remoteStyle : Bool}

/-- Whether a failure is the application's where it is declared: it needs a declaration, and is not
    one of the protocol's unless the settings say so. -/
def isApplication (h : Hierarchy) (policy : FailurePolicy) (ty : Ty) : Bool :=
  !h.isUnchecked ty.name && (policy.remoteAreApplication || !h.isProtocolFailure ty.name)

/-- Whether a failure is one of the protocol's that need a declaration. -/
def isDeclaredProtocol (h : Hierarchy) (ty : Ty) : Bool :=
  !h.isUnchecked ty.name && h.isProtocolFailure ty.name

/-- The failures are told apart one by one, and each is found once. -/
theorem foldl_addDeclared (h : Hierarchy) (policy : FailurePolicy) (declared : List Ty) :
    declared.foldl (h.addDeclared policy) ([], []) =
      ((declared.filter (h.isApplication policy)).eraseDups,
        (declared.filter h.isDeclaredProtocol).eraseDups) := by
  induction declared using List.reverseRecOn with
  | nil => rfl
  | append_singleton rest ty ih =>
    rw [List.foldl_concat, ih, addDeclared, List.filter_append, List.filter_append]
    -- What has been found before counts only if the failure is of either kind.
    have happ : h.isApplication policy ty =
        (!h.isUnchecked ty.name && (policy.remoteAreApplication || !h.isProtocolFailure ty.name)) :=
      rfl
    have hproto : h.isDeclaredProtocol ty =
        (!h.isUnchecked ty.name && h.isProtocolFailure ty.name) := rfl
    cases hun : h.isUnchecked ty.name with
    | true => simp [happ, hproto, hun]
    | false =>
      by_cases hmem : ty ∈ rest <;> cases hfailure : h.isProtocolFailure ty.name <;>
        cases hpolicy : policy.remoteAreApplication <;>
        simp [happ, hproto, hun, hfailure, hpolicy, hmem, List.eraseDups_concat]

theorem application_eq (h : Hierarchy) (policy : FailurePolicy) (declared : List Ty)
    (remoteStyle : Bool) :
    (h.classify policy declared remoteStyle).application =
      h.subtypesFirst (declared.filter (h.isApplication policy)).eraseDups := by
  rw [classify, foldl_addDeclared]

theorem mem_application {ty : Ty} : ty ∈ (h.classify policy declared remoteStyle).application ↔
    ty ∈ declared ∧ h.isApplication policy ty = true := by
  rw [application_eq, (h.subtypesFirst_perm _).mem_iff, List.mem_eraseDups, List.mem_filter]

/-- What is known of the application's failures: they are declared, stand once, need a declaration,
    and are not the protocol's unless the settings say so. -/
structure Checked (h : Hierarchy) (policy : FailurePolicy) (declared : List Ty)
    (checked : List Ty) : Prop where
  declared : ∀ ty ∈ checked, ty ∈ declared
  nodup : checked.Nodup
  notUnchecked : ∀ ty ∈ checked, h.isUnchecked ty.name = false
  notProtocol : policy.remoteAreApplication = false →
    ∀ ty ∈ checked, h.isProtocolFailure ty.name = false

/-- The application failures of a method. -/
theorem checked_application (policy : FailurePolicy) (declared : List Ty) (remoteStyle : Bool) :
    h.Checked policy declared (h.classify policy declared remoteStyle).application := by
  have happ : ∀ ty ∈ (h.classify policy declared remoteStyle).application,
      h.isUnchecked ty.name = false ∧
        (policy.remoteAreApplication = true ∨ h.isProtocolFailure ty.name = false) := by
    intro ty hty
    simpa [isApplication] using (mem_application.1 hty).2
  refine ⟨fun ty hty => (mem_application.1 hty).1, ?_, fun ty hty => (happ ty hty).1,
    fun hpolicy ty hty => (happ ty hty).2.resolve_left (by simp [hpolicy])⟩
  rw [application_eq]
  exact (h.subtypesFirst_perm _).nodup_iff.2 (List.nodup_eraseDups _)

/-- No application failure stands before one of its strict subtypes. -/
theorem application_ordered (policy : FailurePolicy) (remoteStyle : Bool)
    (hanti : h.AntisymmOn declared) :
    (h.classify policy declared remoteStyle).application.Pairwise fun before ty =>
      h.isStrictSubtype ty.name before.name = false := by
  have hdeclared : ∀ ty ∈ (declared.filter (h.isApplication policy)).eraseDups, ty ∈ declared :=
    fun ty hty => (List.mem_filter.1 (List.mem_eraseDups.1 hty)).1
  rw [application_eq]
  exact subtypesFirst_ordered fun a ha b hb => hanti a (hdeclared a ha) b (hdeclared b hb)

/-! ### Reachable handlers -/

/-- No class of the list is a subtype of one before it, so that a handler for each of them
    can be reached. -/
def HandlersReachable (h : Hierarchy) (caught : List String) : Prop :=
  caught.Pairwise fun before c => h.isSubtype c before = false

theorem isSubtype_false_of_strict {a b : String} (hne : a ≠ b)
    (hs : h.isStrictSubtype a b = false) : h.isSubtype a b = false := by
  simpa [isStrictSubtype, hne] using hs

/-- Failures that are classes, none of them twice, can be handled in their order. -/
theorem handlersReachable_application (policy : FailurePolicy) (remoteStyle : Bool)
    (hanti : h.AntisymmOn declared) (hclass : ∀ ty ∈ declared, ty.isArray = false) :
    h.HandlersReachable
      ((h.classify policy declared remoteStyle).application.map (·.name)) := by
  have hc := checked_application (h := h) policy declared remoteStyle
  have hord := application_ordered policy remoteStyle hanti
  rw [HandlersReachable, List.pairwise_map]
  refine (hord.and hc.nodup).imp_of_mem fun {a b} ha hb hab => ?_
  refine isSubtype_false_of_strict (fun hname => hab.2 ?_) hab.1
  -- Types that are no arrays are told apart by their names.
  have hda := hclass a (hc.declared a ha)
  have hdb := hclass b (hc.declared b hb)
  obtain ⟨na, da⟩ := a
  obtain ⟨nb, db⟩ := b
  simp only [Ty.isArray, decide_eq_false_iff_not, Nat.not_lt, Nat.le_zero] at hda hdb
  subst hda hdb
  exact congrArg (Ty.mk · 0) hname.symm

/-- No handler takes failures from one behind it, where protocol failures are no runtime
    failures. -/
theorem handlersReachable_handlerTypes (policy : FailurePolicy) (remoteStyle : Bool)
    (hanti : h.AntisymmOn declared)
    (hremote : h.isSubtype Known.remoteException Known.runtimeException = false)
    (hclass : ∀ ty ∈ declared, ty.isArray = false) :
    h.HandlersReachable ((h.classify policy declared remoteStyle).handlerTypes.map (·.name)) := by
  have hc := checked_application (h := h) policy declared remoteStyle
  have happ := handlersReachable_application policy remoteStyle hanti hclass
  have hruntime : ∀ ty ∈ (h.classify policy declared remoteStyle).application,
      h.isSubtype ty.name Known.runtimeException = false := by
    intro ty hty
    have := hc.notUnchecked ty hty
    simp only [isUnchecked, Bool.or_eq_false_iff] at this
    exact this.1
  have hproto : (h.classify policy declared remoteStyle).protocolNative = true →
      ∀ ty ∈ (h.classify policy declared remoteStyle).application,
        h.isSubtype ty.name Known.remoteException = false := by
    intro hnative ty hty
    refine hc.notProtocol ?_ ty hty
    simp only [classify, Bool.and_eq_true, Bool.not_eq_true'] at hnative
    exact hnative.1.2
  rw [HandlersReachable, Failures.handlerTypes]
  cases hun : (h.classify policy declared remoteStyle).systemUnchecked <;>
    cases hnat : (h.classify policy declared remoteStyle).protocolNative
  · simpa [HandlersReachable] using happ
  · simpa [Ty.named] using ⟨hproto hnat, happ⟩
  · simpa [Ty.named] using ⟨hruntime, happ⟩
  · simpa [Ty.named, hremote] using ⟨hruntime, hproto hnat, happ⟩

/-- Every handler for the failures of a method can be reached. -/
theorem handlerTypes_reachable (hk : h.KeepsStandard) (hanti : h.AntisymmOn declared)
    (hclass : ∀ ty ∈ declared, ty.isArray = false) :
    h.HandlersReachable ((h.classify policy declared remoteStyle).handlerTypes.map (·.name)) := by
  refine handlersReachable_handlerTypes policy remoteStyle hanti ?_ hclass
  rw [hk.isSubtype_eq (by decide)]
  decide

/-- Of declared failures that are classes, no two of them subtypes of each other, the application's
    are exactly those that need a declaration and, unless the settings say otherwise, are not the
    protocol's. Each stands once, and behind its subtypes; and those that are declared so are
    handled in the order of the declaration. Where protocol failures are no runtime failures, no
    handler takes the failures of one behind it. -/
theorem classify_application (policy : FailurePolicy) (remoteStyle : Bool)
    (hanti : h.AntisymmOn declared)
    (hremote : h.isSubtype Known.remoteException Known.runtimeException = false)
    (hclass : ∀ ty ∈ declared, ty.isArray = false) :
    (h.classify policy declared remoteStyle).application.Nodup ∧
    (∀ ty, ty ∈ (h.classify policy declared remoteStyle).application ↔
      ty ∈ declared ∧ h.isUnchecked ty.name = false ∧
        (policy.remoteAreApplication = false → h.isProtocolFailure ty.name = false)) ∧
    ((h.classify policy declared remoteStyle).application.Pairwise fun before ty =>
      h.isStrictSubtype ty.name before.name = false) ∧
    (((declared.filter (h.isApplication policy)).eraseDups.Pairwise fun before ty =>
        h.isStrictSubtype ty.name before.name = false) →
      (h.classify policy declared remoteStyle).application =
        (declared.filter (h.isApplication policy)).eraseDups) ∧
    ((h.classify policy declared remoteStyle).handlerTypes.Pairwise fun before ty =>
      h.isSubtype ty.name before.name = false) := by
  refine ⟨(checked_application policy declared remoteStyle).nodup, fun ty => ?_,
    application_ordered policy remoteStyle hanti, fun hord => ?_,
    List.pairwise_map.1 (handlersReachable_handlerTypes policy remoteStyle hanti hremote hclass)⟩
  · rw [mem_application, isApplication]
    cases policy.remoteAreApplication <;> simp
  · rw [application_eq, subtypesFirst_eq_self hord]

/-- Failures of a home, supertypes first and one of them twice. -/
def homeFailures : List Ty :=
  [.named Known.exception, .named Known.ejbException, .named Known.createException,
    .named "javax.ejb.DuplicateKeyException", .named Known.remoteException,
    .named Known.createException]

theorem classify_application_home :
    standard.AntisymmOn homeFailures ∧
    standard.isSubtype Known.remoteException Known.runtimeException = false ∧
    (∀ ty ∈ homeFailures, ty.isArray = false) ∧
    (standard.classify {} homeFailures true).application =
      [.named "javax.ejb.DuplicateKeyException", .named Known.createException,
        .named Known.exception] ∧
    (standard.classify {} homeFailures true).application.Nodup ∧
    (.named Known.createException ∈ (standard.classify {} homeFailures true).application) ∧
    (standard.classify {} homeFailures true).handlerTypes =
      [.named Known.runtimeException, .named Known.remoteException,
        .named "javax.ejb.DuplicateKeyException", .named Known.createException,
        .named Known.exception] ∧
    (standard.classify {} homeFailures true).handlerTypes.Pairwise fun before ty =>
      standard.isSubtype ty.name before.name = false := by
  have hanti : standard.AntisymmOn homeFailures := by
    unfold AntisymmOn
    decide
  have hremote : standard.isSubtype Known.remoteException Known.runtimeException = false := by
    decide
  have hclass : ∀ ty ∈ homeFailures, ty.isArray = false := by decide
  have hcreate : .named Known.createException ∈ homeFailures ∧
      standard.isUnchecked Known.createException = false ∧
      standard.isProtocolFailure Known.createException = false := by decide
  obtain ⟨hnodup, hmem, -, -, hhandlers⟩ := classify_application {} true hanti hremote hclass
  exact ⟨hanti, hremote, hclass, by decide, hnodup,
    (hmem _).2 ⟨hcreate.1, hcreate.2.1, fun _ => hcreate.2.2⟩, by decide, hhandlers⟩

end Hierarchy

end ComponentViews
