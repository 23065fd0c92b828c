import ComponentViews.Proofs.Failures

/-!
# Which handler takes a failure

A failure enters the first handler for a supertype of its class (`Failures.handlingOf?`).
Failures that no method need declare are meant to pass by the handlers of the application's
failures. How far they do is told here for hierarchies in which a class gets to be a failure
by its superclass and never by an interface, so that of two failures above a class one is
above the other (`Hierarchy.isSubtype_total`):

* a runtime failure enters its own handler, or none (`Hierarchy.handlingOf?_runtime`), and so
  does a protocol failure where callers come over the remote protocol
  (`Hierarchy.handlingOf?_protocol`);
* an error has no handler of its own. It is taken for a failure of the application exactly if
  `java.lang.Throwable` is declared (`Hierarchy.handlingOf?_error`).

Where there are no handlers but those of the application's failures, they take runtime and
protocol failures in just those cases in which the classification asks for handlers of their
own (`Hierarchy.exists_application_runtime_iff`, `Hierarchy.exists_application_protocol_iff`).
-/

namespace ComponentViews

/-- What the handlers of a method are for, that for everything else apart. -/
inductive Handling where
  /-- Runtime failures. -/
  | runtime
  /-- Protocol failures. -/
  | protocol
  /-- An application failure. -/
  | declared (failure : Ty)
deriving DecidableEq

namespace Handling

/-- The failures that the handler takes. -/
def caught : Handling → Ty
  | runtime => .named Known.runtimeException
  | protocol => .named Known.remoteException
  | declared failure => failure

/-- The handler is one for a failure that the operation declares; `none` stands for the one for
    everything else. -/
def isDeclared : Option Handling → Bool
  | some (declared _) => true
  | _ => false

end Handling

namespace Failures

/-- What the handlers are for, in their order. -/
def handlings (f : Failures) : List Handling :=
  (if f.systemUnchecked then [.runtime] else []) ++
    (if f.protocolNative then [.protocol] else []) ++ f.application.map .declared

theorem map_caught_handlings (f : Failures) : f.handlings.map Handling.caught = f.handlerTypes := by
  have hdeclared : Handling.caught ∘ Handling.declared = id := rfl
  rw [handlings, handlerTypes, List.map_append, List.map_append, List.map_map, hdeclared,
    List.map_id]
  cases f.systemUnchecked <;> cases f.protocolNative <;> rfl

/-- The handler that takes the failures of a class: the first one for a supertype. -/
def handlingOf? (f : Failures) (isSubtype : String → String → Bool) (className : String) :
    Option Handling :=
  f.handlings.find? fun k => isSubtype className k.caught.name

variable {f : Failures} {isSubtype : String → String → Bool} {className : String}

/-- It is the one for the first of the handler types that the failure is an instance of. -/
theorem find?_handlerTypes :
    (f.handlerTypes.find? fun ty => isSubtype className ty.name) =
      (f.handlingOf? isSubtype className).map Handling.caught := by
  rw [handlingOf?, ← map_caught_handlings, List.find?_map]
  rfl

/-- The handlers are asked one after another. -/
theorem handlingOf?_eq : f.handlingOf? isSubtype className =
    if f.systemUnchecked && isSubtype className Known.runtimeException then some .runtime
    else if f.protocolNative && isSubtype className Known.remoteException then some .protocol
    else (f.application.find? fun ty => isSubtype className ty.name).map .declared := by
  have happlication : (f.application.map Handling.declared).find?
      (fun k => isSubtype className k.caught.name) =
      (f.application.find? fun ty => isSubtype className ty.name).map .declared := by
    rw [List.find?_map]
    rfl
  rw [handlingOf?, handlings, List.find?_append, List.find?_append, happlication]
  cases f.systemUnchecked <;> cases f.protocolNative <;>
    cases hr : isSubtype className Known.runtimeException <;>
    cases hp : isSubtype className Known.remoteException <;>
    simp [Handling.caught, Ty.named, hr, hp]

end Failures

namespace Hierarchy

variable {h : Hierarchy}

/-! ### Failures above a class -/

/-- No class gets to be a failure by an interface. -/
def FailuresAreClasses (h : Hierarchy) : Prop :=
  ∀ name c, h.find? name = some c → ∀ i ∈ c.interfaces, h.isThrowable i = false

theorem failuresAreClasses_standard : standard.FailuresAreClasses := by
  have hall : ∀ c ∈ standardClasses, ∀ i ∈ c.interfaces, standard.isThrowable i = false := by
    decide
  exact fun _ c hc => hall c (List.mem_of_find?_eq_some hc)

/-- `b` is the superclass of `a`. -/
def Extends (h : Hierarchy) (a b : String) : Prop := (h.find? a).bind (·.superclass) = some b

theorem Extends.above {a b : String} (hab : h.Extends a b) : h.Above a b := by
  obtain ⟨c, hc, hsuper⟩ := Option.bind_eq_some_iff.1 hab
  simp [Above, parents, hc, ClassDecl.parents, hsuper]

theorem isSubtype_of_extends {a b : String} (hab : Relation.ReflTransGen h.Extends a b) :
    h.isSubtype a b = true := by
  rcases Relation.reflTransGen_iff_eq_or_transGen.1 hab with rfl | hab
  · exact isSubtype_refl h _
  · exact isSubtype_iff.2 (.inr (.inr (Relation.TransGen.mono (fun _ _ => Extends.above) _ _ hab)))

/-- A chain of superclasses leads to each failure above a class. -/
theorem extends_of_isSubtype (htop : h.ObjectIsTop) (hclasses : h.FailuresAreClasses)
    {a b : String} (hab : h.isSubtype a b = true) (hb : h.isThrowable b = true) :
    Relation.ReflTransGen h.Extends a b := by
  rcases isSubtype_iff.1 hab with rfl | rfl | hpath
  · exact .refl
  · -- `java.lang.Object` is no failure.
    rcases isSubtype_iff.1 hb with heq | heq | hup
    · exact absurd heq (by decide)
    · exact absurd heq (by decide)
    · obtain ⟨c, hc, -⟩ := Relation.TransGen.head'_iff.1 hup
      rw [Above, htop] at hc
      exact absurd hc List.not_mem_nil
  have hstep : ∀ {x y}, h.Above x y → h.isThrowable y = true → h.Extends x y := by
    intro x y hxy hy
    rw [Above, parents] at hxy
    cases hx : h.find? x with
    | none => simp [hx] at hxy
    | some c =>
      rw [hx] at hxy
      rcases List.mem_append.1 hxy with hsuper | hinterface
      · rw [Extends, hx]
        simpa using hsuper
      · exact absurd (hclasses x c hx y hinterface) (by simp [hy])
  clear hab
  induction hpath using Relation.TransGen.head_induction_on with
  | single hab => exact .single (hstep hab hb)
  | head hac hcb ih =>
    refine .head (hstep hac (isSubtype_trans htop ?_ hb)) ih
    exact isSubtype_iff.2 (.inr (.inr hcb))

/-- Of two failures above a class one is above the other. -/
theorem isSubtype_total (htop : h.ObjectIsTop) (hclasses : h.FailuresAreClasses)
    {name a b : String} (ha : h.isThrowable a = true) (hb : h.isThrowable b = true)
    (hna : h.isSubtype name a = true) (hnb : h.isSubtype name b = true) :
    h.isSubtype a b = true ∨ h.isSubtype b a = true := by
  have hunique : Relator.RightUnique h.Extends := by
    intro x y z hxy hxz
    exact Option.some.inj (hxy.symm.trans hxz)
  exact (Relation.ReflTransGen.total_of_right_unique hunique
    (extends_of_isSubtype htop hclasses hna ha) (extends_of_isSubtype htop hclasses hnb hb)).imp
    isSubtype_of_extends isSubtype_of_extends

/-! ### The failures of the application -/

variable {policy : FailurePolicy} {declared : List Ty} {remoteStyle : Bool}

/-- Whether a declared failure counts as one of the application's. -/
def IsApplication (h : Hierarchy) (policy : FailurePolicy) (ty : Ty) : Prop :=
  h.isUnchecked ty.name = false ∧
    (policy.remoteAreApplication = false → h.isProtocolFailure ty.name = false)

/-- What has been found so far lacks no application failure of those gone through, and
    nothing is taken for a protocol failure that is none. -/
structure FindsAll (h : Hierarchy) (policy : FailurePolicy) (gone : List Ty)
    (found : List Ty × List Ty) : Prop where
  checked : ∀ ty ∈ gone, h.IsApplication policy ty → ty ∈ found.1
  protocol : ∀ ty ∈ found.2, h.IsApplication policy ty → ty ∈ found.1

theorem FindsAll.addDeclared {gone : List Ty} {found : List Ty × List Ty}
    (hf : h.FindsAll policy gone found) (ty : Ty) :
    h.FindsAll policy (gone ++ [ty]) (h.addDeclared policy found ty) := by
  obtain ⟨checked, protocol⟩ := found
  have hgone : ∀ {checked' : List Ty}, checked ⊆ checked' →
      (h.IsApplication policy ty → ty ∈ checked') →
      ∀ x ∈ gone ++ [ty], h.IsApplication policy x → x ∈ checked' := by
    intro checked' hsub hty x hx happ
    rcases List.mem_append.1 hx with hx | hx
    · exact hsub (hf.checked x hx happ)
    · rw [List.mem_singleton.1 hx] at happ ⊢
      exact hty happ
  -- A failure is passed over, or put with the checked ones, or with those of the protocol.
  simp only [Hierarchy.addDeclared]
  split
  · rename_i hold
    simp only [Bool.or_eq_true, List.contains_iff_mem] at hold
    refine ⟨hgone (List.Subset.refl _) fun happ => ?_, hf.protocol⟩
    rcases hold with (hold | hold) | hold
    · exact hold
    · exact hf.protocol ty hold happ
    · exact absurd hold (by simp [happ.1])
  split
  · rename_i hproto
    split
    · refine ⟨hgone (List.subset_append_left _ _) fun _ => by simp, fun x hx happ => ?_⟩
      rcases List.mem_append.1 hx with hx | hx
      · exact List.mem_append_left _ (hf.protocol x hx happ)
      · exact List.mem_append_right _ hx
    · rename_i hpolicy
      have hno : ¬ h.IsApplication policy ty := fun happ =>
        absurd hproto (by simp [happ.2 (by simpa using hpolicy)])
      refine ⟨hgone (List.Subset.refl _) fun happ => absurd happ hno, fun x hx happ => ?_⟩
      rcases List.mem_append.1 hx with hx | hx
      · exact hf.protocol x hx happ
      · exact absurd (List.mem_singleton.1 hx ▸ happ) hno
  · exact ⟨hgone (List.subset_append_left _ _) fun _ => by simp,
      fun x hx happ => List.mem_append_left _ (hf.protocol x hx happ)⟩

theorem FindsAll.foldl {gone : List Ty} {found : List Ty × List Ty}
    (hf : h.FindsAll policy gone found) (rest : List Ty) :
    h.FindsAll policy (gone ++ rest) (rest.foldl (h.addDeclared policy) found) := by
  induction rest generalizing gone found with
  | nil => rwa [List.append_nil]
  | cons ty rest ih =>
    rw [List.foldl_cons, List.append_cons]
    exact ih (hf.addDeclared ty)

/-- The application failures are the declared failures that count as such. -/
theorem mem_application_iff {ty : Ty} :
    ty ∈ (h.classify policy declared remoteStyle).application ↔
      ty ∈ declared ∧ h.IsApplication policy ty := by
  have hc := checked_application (h := h) policy declared remoteStyle
  refine ⟨fun hty => ⟨hc.declared ty hty, hc.notUnchecked ty hty,
    fun hp => hc.notProtocol hp ty hty⟩, fun ⟨hty, happ⟩ => ?_⟩
  have hall : h.FindsAll policy ([] ++ declared) (declared.foldl (h.addDeclared policy) ([], [])) :=
    FindsAll.foldl ⟨by simp, by simp⟩ declared
  exact (h.subtypesFirst_perm _).mem_iff.2 (hall.checked ty hty happ)

theorem systemUnchecked_iff : (h.classify policy declared remoteStyle).systemUnchecked = true ↔
    policy.uncheckedAreSystem = true ∧
      ∃ ty ∈ (h.classify policy declared remoteStyle).application,
        h.isStrictSubtype Known.runtimeException ty.name = true := by
  have hp := h.subtypesFirst_perm (declared.foldl (h.addDeclared policy) ([], [])).1
  simp only [classify, Bool.and_eq_true, List.any_eq_true, hp.mem_iff]

theorem protocolNative_iff : (h.classify policy declared remoteStyle).protocolNative = true ↔
    (remoteStyle = true ∧ policy.remoteAreApplication = false) ∧
      ∃ ty ∈ (h.classify policy declared remoteStyle).application,
        h.isStrictSubtype Known.remoteException ty.name = true := by
  have hp := h.subtypesFirst_perm (declared.foldl (h.addDeclared policy) ([], [])).1
  simp only [classify, Bool.and_eq_true, Bool.not_eq_true', List.any_eq_true, hp.mem_iff]

/-- No application failure is one that has a handler of its own. -/
theorem caught_ne_of_mem_application {ty : Ty}
    (hty : ty ∈ (h.classify policy declared remoteStyle).application) :
    ty.name ≠ Known.runtimeException ∧
      ((h.classify policy declared remoteStyle).protocolNative = true →
        ty.name ≠ Known.remoteException) := by
  obtain ⟨-, hunchecked, hprotocol⟩ := mem_application_iff.1 hty
  refine ⟨fun hname => ?_, fun hnative hname => ?_⟩
  · simp [isUnchecked, hname] at hunchecked
  · have := hprotocol (protocolNative_iff.1 hnative).1.2
    simp [isProtocolFailure, hname] at this

/-! ### Failures that nobody need declare -/

/-- What is above a standard class is standard. -/
theorem KeepsStandard.mem_standardNames (hk : h.KeepsStandard) {a b : String}
    (ha : a ∈ standardNames) (hab : h.isSubtype a b = true) : b ∈ standardNames := by
  rcases isSubtype_iff.1 hab with rfl | rfl | hab
  · exact ha
  · decide
  · exact (hk.transGen_of_transGen keepsStandard_standard ha hab).2

/-- The failures with handling of their own, at the root of what nobody need declare and of what
    the remote protocol raises. -/
def systemRoots : List String := [Known.runtimeException, Known.remoteException, Known.error]

theorem mem_standardNames_of_mem_systemRoots : ∀ root ∈ systemRoots, root ∈ standardNames := by
  decide

theorem isThrowable_of_mem_systemRoots : ∀ root ∈ systemRoots,
    standard.isThrowable root = true := by
  decide

/-- None of them stands above another. -/
theorem isSubtype_systemRoots : ∀ a ∈ systemRoots, ∀ b ∈ systemRoots, a ≠ b →
    standard.isSubtype a b = false := by
  decide

/-- None of them stands above all failures. -/
theorem isSubtype_throwable : ∀ root ∈ systemRoots,
    standard.isSubtype Known.throwable root = false := by
  decide

/-- Of the standard classes above errors only one is a failure that has to be declared. -/
theorem eq_throwable : ∀ name ∈ standardNames, standard.isSubtype Known.error name = true →
    standard.isSubtype name Known.throwable = true →
    (standard.isSubtype name Known.runtimeException ||
      standard.isSubtype name Known.error) = false → name = Known.throwable := by
  decide

section

variable (hk : h.KeepsStandard) (hclasses : h.FailuresAreClasses)
  (hdeclared : ∀ ty ∈ declared, h.isThrowable ty.name = true) {name : String}

include hk hclasses hdeclared

/-- An application failure above a class stands above the system failure that the class is
    a subtype of, or below it. -/
theorem comparable_of_mem_application {root : String} (hroot : root ∈ systemRoots)
    (hname : h.isSubtype name root = true) {ty : Ty}
    (hty : ty ∈ (h.classify policy declared remoteStyle).application)
    (htaken : h.isSubtype name ty.name = true) :
    h.isSubtype ty.name root = true ∨ h.isSubtype root ty.name = true :=
  isSubtype_total hk.objectIsTop hclasses (hdeclared ty (mem_application_iff.1 hty).1)
    (hk.isSubtype_of_standard (mem_standardNames_of_mem_systemRoots _ hroot)
      (isThrowable_of_mem_systemRoots _ hroot)) htaken hname

/-- Runtime failures are among the application's exactly where a handler of their own is asked
    for. -/
theorem exists_application_runtime_iff (hsystem : policy.uncheckedAreSystem = true)
    (hname : h.isSubtype name Known.runtimeException = true) :
    (∃ ty ∈ (h.classify policy declared remoteStyle).application,
      h.isSubtype name ty.name = true) ↔
      (h.classify policy declared remoteStyle).systemUnchecked = true := by
  rw [systemUnchecked_iff]
  refine ⟨fun ⟨ty, hty, htaken⟩ => ⟨hsystem, ty, hty, isStrictSubtype_iff.2 ⟨?_, ?_⟩⟩,
    fun ⟨_, ty, hty, hstrict⟩ => ⟨ty, hty, ?_⟩⟩
  · exact (caught_ne_of_mem_application hty).1.symm
  · refine (comparable_of_mem_application hk hclasses hdeclared (by decide) hname hty
      htaken).resolve_left fun hbelow => ?_
    have := (mem_application_iff.1 hty).2.1
    simp [isUnchecked, hbelow] at this
  · exact isSubtype_trans hk.objectIsTop hname (isStrictSubtype_iff.1 hstrict).2

/-- So are protocol failures, where callers come over the remote protocol. -/
theorem exists_application_protocol_iff (hremote : policy.remoteAreApplication = false)
    (hname : h.isSubtype name Known.remoteException = true) :
    (∃ ty ∈ (h.classify policy declared true).application, h.isSubtype name ty.name = true) ↔
      (h.classify policy declared true).protocolNative = true := by
  rw [protocolNative_iff]
  refine ⟨fun ⟨ty, hty, htaken⟩ => ⟨⟨rfl, hremote⟩, ty, hty, isStrictSubtype_iff.2 ⟨?_, ?_⟩⟩,
    fun ⟨_, ty, hty, hstrict⟩ => ⟨ty, hty, ?_⟩⟩
  · intro hsame
    have := (mem_application_iff.1 hty).2.2 hremote
    simp [isProtocolFailure, ← hsame] at this
  · refine (comparable_of_mem_application hk hclasses hdeclared (by decide) hname hty
      htaken).resolve_left fun hbelow => ?_
    have := (mem_application_iff.1 hty).2.2 hremote
    simp [isProtocolFailure, hbelow] at this
  · exact isSubtype_trans hk.objectIsTop hname (isStrictSubtype_iff.1 hstrict).2

/-- An error is among the application's failures only under the name `java.lang.Throwable`. -/
theorem isSubtype_error_iff (hname : h.isSubtype name Known.error = true) {ty : Ty}
    (hty : ty ∈ (h.classify policy declared remoteStyle).application) :
    h.isSubtype name ty.name = true ↔ ty.name = Known.throwable := by
  refine ⟨fun htaken => ?_, fun hthrowable => ?_⟩
  · have hunchecked := (mem_application_iff.1 hty).2.1
    rcases comparable_of_mem_application hk hclasses hdeclared (by decide) hname hty htaken
      with hbelow | habove
    · simp [isUnchecked, hbelow] at hunchecked
    · -- What stands above errors is standard, and there only one has to be declared.
      have hstandard := hk.mem_standardNames (by decide) habove
      have hthrowable := hdeclared ty (mem_application_iff.1 hty).1
      rw [hk.isSubtype_eq (by decide)] at habove
      rw [isThrowable, hk.isSubtype_eq hstandard] at hthrowable
      rw [isUnchecked, hk.isSubtype_eq hstandard, hk.isSubtype_eq hstandard] at hunchecked
      exact eq_throwable _ hstandard habove hthrowable hunchecked
  · rw [hthrowable]
    exact isSubtype_trans hk.objectIsTop hname
      (hk.isSubtype_of_standard (by decide) (isThrowable_of_mem_systemRoots _ (by decide)))

omit hdeclared in
/-- Two of the failures with handling of their own have no class in common below them. -/
theorem isSubtype_false_of_apart {a b : String} (ha : a ∈ systemRoots) (hb : b ∈ systemRoots)
    (hne : a ≠ b) (hname : h.isSubtype name a = true) : h.isSubtype name b = false := by
  have hmem := mem_standardNames_of_mem_systemRoots
  have hthrowable := isThrowable_of_mem_systemRoots
  refine Bool.eq_false_iff.2 fun hnb => ?_
  rcases isSubtype_total hk.objectIsTop hclasses
    (hk.isSubtype_of_standard (hmem a ha) (hthrowable a ha))
    (hk.isSubtype_of_standard (hmem b hb) (hthrowable b hb)) hname hnb with hup | hup
  · rw [hk.isSubtype_eq (hmem a ha), isSubtype_systemRoots a ha b hb hne] at hup
    cases hup
  · rw [hk.isSubtype_eq (hmem b hb), isSubtype_systemRoots b hb a ha hne.symm] at hup
    cases hup

/-- A runtime failure enters the handler for runtime failures, if there is one, and else none. -/
theorem handlingOf?_runtime (hsystem : policy.uncheckedAreSystem = true)
    (hname : h.isSubtype name Known.runtimeException = true) :
    (h.classify policy declared remoteStyle).handlingOf? h.isSubtype name =
      if (h.classify policy declared remoteStyle).systemUnchecked then some .runtime else none := by
  have hprotocol : h.isSubtype name Known.remoteException = false :=
    isSubtype_false_of_apart hk hclasses (by decide) (by decide) (by decide) hname
  have hiff : _ ↔ (h.classify policy declared remoteStyle).systemUnchecked = true :=
    exists_application_runtime_iff hk hclasses hdeclared hsystem hname
  rw [Failures.handlingOf?_eq, hname, hprotocol]
  cases hunchecked : (h.classify policy declared remoteStyle).systemUnchecked with
  | true => simp
  | false =>
    have hnone : (h.classify policy declared remoteStyle).application.find?
        (fun ty => h.isSubtype name ty.name) = none := by
      rw [hunchecked] at hiff
      simpa using hiff
    simp [hnone]

/-- Where callers come over the remote protocol, a protocol failure enters the handler for
    protocol failures, if there is one, and else none. -/
theorem handlingOf?_protocol (hremote : policy.remoteAreApplication = false)
    (hname : h.isSubtype name Known.remoteException = true) :
    (h.classify policy declared true).handlingOf? h.isSubtype name =
      if (h.classify policy declared true).protocolNative then some .protocol else none := by
  have hruntime : h.isSubtype name Known.runtimeException = false :=
    isSubtype_false_of_apart hk hclasses (by decide) (by decide) (by decide) hname
  have hiff := exists_application_protocol_iff hk hclasses hdeclared hremote hname
  rw [Failures.handlingOf?_eq, hname, hruntime]
  cases hnative : (h.classify policy declared true).protocolNative with
  | true => simp
  | false =>
    have hnone : (h.classify policy declared true).application.find?
        (fun ty => h.isSubtype name ty.name) = none := by
      rw [hnative] at hiff
      simpa using hiff
    simp [hnone]

/-- An error enters no handler, unless `java.lang.Throwable` is declared: then it enters the
    handler of that failure, as one of the application's. -/
theorem handlingOf?_error (hname : h.isSubtype name Known.error = true) :
    (h.classify policy declared remoteStyle).handlingOf? h.isSubtype name =
      ((h.classify policy declared remoteStyle).application.find?
        (·.name == Known.throwable)).map .declared := by
  have hruntime : h.isSubtype name Known.runtimeException = false :=
    isSubtype_false_of_apart hk hclasses (by decide) (by decide) (by decide) hname
  have hprotocol : h.isSubtype name Known.remoteException = false :=
    isSubtype_false_of_apart hk hclasses (by decide) (by decide) (by decide) hname
  have hfind : (h.classify policy declared remoteStyle).application.find?
      (fun ty => h.isSubtype name ty.name) =
      (h.classify policy declared remoteStyle).application.find? (·.name == Known.throwable) := by
    refine List.find?_congr fun ty hty => ?_
    rw [Bool.eq_iff_iff, isSubtype_error_iff hk hclasses hdeclared hname hty, beq_iff_eq]
  rw [Failures.handlingOf?_eq, hruntime, hprotocol, hfind]
  simp

omit hclasses hdeclared in
/-- `java.lang.Throwable` is an application failure wherever it is declared. -/
theorem exists_application_throwable_iff :
    (∃ ty ∈ (h.classify policy declared remoteStyle).application, ty.name = Known.throwable) ↔
      ∃ ty ∈ declared, ty.name = Known.throwable := by
  have happlication : ∀ ty : Ty, ty.name = Known.throwable → h.IsApplication policy ty := by
    intro ty hty
    have hroot : ∀ root ∈ systemRoots, h.isSubtype ty.name root = false := fun root hroot => by
      rw [hty, hk.isSubtype_eq (by decide), isSubtype_throwable root hroot]
    refine ⟨?_, fun _ => hroot _ (by decide)⟩
    rw [isUnchecked, hroot _ (by decide), hroot _ (by decide)]
    rfl
  refine exists_congr fun ty => ?_
  rw [mem_application_iff, and_assoc]
  exact and_congr_right fun _ => and_iff_right_of_imp (happlication ty)

end

end Hierarchy

end ComponentViews
