import ComponentViews.Proofs.Blueprint
import ComponentViews.Rules.Home

/-!
# What the rules on homes ensure

An operation of a home that creates or finds hands out a view, or several views, so that it
has a result, unless a class by the name of `void` is described: then the type of no value
passes for a view. The failures that are assumed for a request leave `void` no view either.
-/

namespace ComponentViews

namespace Request

variable {h : Hierarchy} {r : Request}

/-- No class is described by the name of the type without values. -/
def DescribesNoVoid (r : Request) : Prop := ∀ c ∈ r.describedClasses, c.name ≠ "void"

instance (r : Request) : Decidable r.DescribesNoVoid :=
  inferInstanceAs (Decidable (∀ c ∈ r.describedClasses, c.name ≠ "void"))

/-- The type without values is no view. -/
def VoidIsNoView (h : Hierarchy) : Prop :=
  ∀ isLocal, h.isSubtype "void" (viewInterface isLocal) = false

/-! ### Views -/

theorem find?_insertAll {h : Hierarchy} {cs : List ClassDecl} {name : String}
    (hcs : ∀ c ∈ cs, c.name ≠ name) : (h.insertAll cs).find? name = h.find? name := by
  induction cs generalizing h with
  | nil => rfl
  | cons c rest ih =>
    rw [Hierarchy.insertAll, List.foldl_cons]
    refine (ih fun d hd => hcs d (List.mem_cons_of_mem _ hd)).trans ?_
    rw [Hierarchy.find?_insert, if_neg (hcs c List.mem_cons_self)]

/-- What stands above a name that is described nowhere is an exception at most. -/
theorem parents_foldl_assumeChecked {names : List String} {name : String}
    (hname : ∀ a ∈ h.parents name, a = Known.exception) :
    ∀ a ∈ (names.foldl Hierarchy.assumeChecked h).parents name, a = Known.exception := by
  induction names generalizing h with
  | nil => exact hname
  | cons n rest ih =>
    refine ih ?_
    rw [Hierarchy.assumeChecked]
    split
    · exact hname
    · by_cases hn : n = name
      · simp [Hierarchy.parents, Hierarchy.find?_insert, hn, ClassDecl.parents,
          ClassDecl.extending]
      · simpa [Hierarchy.parents, Hierarchy.find?_insert, hn, ClassDecl.extending] using hname

theorem voidIsNoView (hkeeps : r.KeepsStandard) (hvoid : r.DescribesNoVoid) :
    VoidIsNoView r.hierarchy := by
  have hk := keepsStandard_hierarchy hkeeps
  have hparents : ∀ a ∈ r.hierarchy.parents "void", a = Known.exception := by
    rw [hierarchy, assumeFailures_fst]
    have hnone : Hierarchy.standard.parents "void" = [] := by decide
    have hfind : r.describedHierarchy.find? "void" = Hierarchy.standard.find? "void" :=
      find?_insertAll hvoid
    refine parents_foldl_assumeChecked fun a ha => ?_
    rw [Hierarchy.parents, hfind, ← Hierarchy.parents, hnone] at ha
    exact absurd ha List.not_mem_nil
  intro isLocal
  refine Bool.eq_false_iff.2 fun hsub => ?_
  rcases Hierarchy.isSubtype_iff.1 hsub with heq | heq | habove
  · cases isLocal <;> exact absurd heq (by decide)
  · cases isLocal <;> exact absurd heq (by decide)
  · -- The only way up is by an exception, and exceptions are no views.
    obtain ⟨a, ha, hrest⟩ := Relation.TransGen.head'_iff.1 habove
    obtain rfl := hparents a ha
    have hview : r.hierarchy.isSubtype Known.exception (viewInterface isLocal) = true := by
      rcases Relation.reflTransGen_iff_eq_or_transGen.1 hrest with heq | hrest
      · rw [heq]
        exact Hierarchy.isSubtype_refl _ _
      · exact Hierarchy.isSubtype_iff.2 (.inr (.inr hrest))
    rw [hk.isSubtype_eq (by decide)] at hview
    revert hview
    cases isLocal <;> decide

theorem result_of_checkReturnsView (hvoid : VoidIsNoView h) {isLocal : Bool} {op : Operation}
    (hop : checkReturnsView h isLocal op = .ok ()) : op.result.isVoid = false := by
  rw [checkReturnsView, Except.throw_if_eq_ok] at hop
  simp only [Bool.or_eq_true, Bool.not_eq_true', not_or, Bool.not_eq_true, Bool.not_eq_false,
    Hierarchy.isStrictSubtype_iff] at hop
  refine Bool.eq_false_iff.2 fun hres => ?_
  have hname : op.result.name = "void" := by
    simp only [Ty.isVoid, Bool.and_eq_true, beq_iff_eq] at hres
    exact hres.2
  have hsub := hop.2.2
  rw [hname, hvoid isLocal] at hsub
  exact absurd hsub (by decide)

/-! ### Operations of homes -/

/-- What the rules ask of an operation of a home. -/
structure IsAdmitted (h : Hierarchy) (r : Request) (isLocal : Bool) (op : Operation) : Prop where
  /-- What creates or finds hands out a view, or several. -/
  handsOut : HomeOperation.ofName op.name ≠ .business →
    checkReturnsView h isLocal op = .ok () ∨
      op.result.isNamed Known.collection = true ∨ op.result.isNamed Known.enumeration = true
  /-- Sessions are created, and nothing else. -/
  creates : HomeOperation.ofName op.name ≠ .create → r.componentType = .beanManagedEntity

theorem isAdmitted_of_statelessHome {isLocal : Bool} {ops : List Operation}
    (hops : checkStatelessHome h isLocal ops = .ok ()) : ∀ op ∈ ops, IsAdmitted h r isLocal op := by
  cases ops with
  | nil => simp
  | cons op others =>
    rw [checkStatelessHome] at hops
    split at hops
    · rename_i hop
      rw [Except.bind_unit_eq_ok] at hops
      rw [List.isEmpty_iff.1 hop.2.2, List.forall_mem_singleton]
      exact ⟨fun _ => .inl hops.1, fun hname => absurd (hop.1 ▸ by decide) hname⟩
    · exact absurd hops (by simp [throw, throwThe, MonadExceptOf.throw])

theorem isAdmitted_of_statefulOperation {isLocal : Bool} {op : Operation}
    (hop : checkStatefulOperation h r isLocal op = .ok ()) : IsAdmitted h r isLocal op := by
  simp only [checkStatefulOperation] at hop
  split at hop
  · rename_i hname
    rw [Except.bind_unit_eq_ok] at hop
    exact ⟨fun _ => .inl hop.1, fun hother => absurd hname hother⟩
  · exact absurd hop (by simp [throw, throwThe, MonadExceptOf.throw, bind, Except.bind])

theorem isAdmitted_of_entityOperation (hentity : r.componentType = .beanManagedEntity)
    {isLocal : Bool} {op : Operation} (hop : checkEntityOperation h r isLocal op = .ok ()) :
    IsAdmitted h r isLocal op := by
  refine ⟨fun hbusiness => ?_, fun _ => hentity⟩
  simp only [checkEntityOperation] at hop
  split at hop
  · exact absurd hop (by simp [throw, throwThe, MonadExceptOf.throw, bind, Except.bind])
  split at hop
  · rw [Except.bind_unit_eq_ok] at hop
    exact .inl hop.1
  · rw [Except.bind_unit_eq_ok] at hop
    exact .inl hop.1
  · obtain ⟨finder, -, hop⟩ := Except.bind_eq_ok.1 hop
    split at hop
    · rename_i hseveral
      exact .inr (Bool.or_eq_true_iff.1 hseveral)
    · exact .inl (Except.bind_unit_eq_ok.1 hop).1
  · rename_i hname
    exact absurd hname hbusiness

theorem checkHomes_of_checkRules (hfactory : r.kind.isFactory = true)
    (hrules : checkRules h r = .ok ()) : checkHomes h r = .ok () := by
  rw [checkRules, Except.bind_unit_eq_ok, Except.bind_unit_eq_ok, if_pos hfactory] at hrules
  exact hrules.2.2

theorem checkEntityOperation_of_checkHomes (hentity : r.componentType = .beanManagedEntity)
    (hhomes : checkHomes h r = .ok ()) :
    ∀ home ∈ r.homes, ∀ op ∈ home.2.ownedMethods, checkEntityOperation h r home.1 op = .ok () := by
  intro home hhome op hop
  simp only [checkHomes, hentity] at hhomes
  have hchecked := Except.forM_eq_ok.1 hhomes _ hhome
  simp only [checkHome, hentity] at hchecked
  exact Except.forM_eq_ok.1 hchecked op hop

/-- All operations of the homes are as the rules ask. -/
theorem isAdmitted_of_checkRules (hfactory : r.kind.isFactory = true)
    (hrules : checkRules h r = .ok ()) :
    ∀ home ∈ r.homes, ∀ op ∈ home.2.ownedMethods, IsAdmitted h r home.1 op := by
  have hhomes := checkHomes_of_checkRules hfactory hrules
  rintro ⟨isLocal, i⟩ hhome op hop
  cases hsort : r.componentType with
  | singleton | messageDriven | managed => simp [checkHomes, hsort] at hhomes
  | stateless =>
    simp only [checkHomes, hsort] at hhomes
    have hchecked := Except.forM_eq_ok.1 hhomes _ hhome
    simp only [checkHome, hsort] at hchecked
    exact isAdmitted_of_statelessHome hchecked op hop
  | stateful =>
    simp only [checkHomes, hsort] at hhomes
    have hchecked := Except.forM_eq_ok.1 hhomes _ hhome
    simp only [checkHome, hsort] at hchecked
    exact isAdmitted_of_statefulOperation (Except.forM_eq_ok.1 hchecked op hop)
  | beanManagedEntity =>
    exact isAdmitted_of_entityOperation hsort
      (checkEntityOperation_of_checkHomes hsort hhomes _ hhome op hop)

/-- The home's own business has the result of the bean method behind it. -/
theorem exists_bound_of_checkRules (hfactory : r.kind.isFactory = true)
    (hrules : checkRules h r = .ok ()) :
    ∀ home ∈ r.homes, ∀ op ∈ home.2.ownedMethods, HomeOperation.ofName op.name = .business →
      ∃ bound, r.bean.find? (HomeOperation.entityMethod op.name) op.params = some bound ∧
        bound.result = op.result := by
  intro home hhome op hop hbusiness
  have hentity := (isAdmitted_of_checkRules hfactory hrules home hhome op hop).creates
    (by rw [hbusiness]; decide)
  have hchecked := checkEntityOperation_of_checkHomes hentity
    (checkHomes_of_checkRules hfactory hrules) home hhome op hop
  simp only [checkEntityOperation, hbusiness] at hchecked
  split at hchecked
  · exact absurd hchecked (by simp [throw, throwThe, MonadExceptOf.throw, bind, Except.bind])
  obtain ⟨bound, hbound, hresult⟩ := Except.bind_eq_ok.1 hchecked
  refine ⟨bound, ?_, Except.throw_unless_eq_ok.1 hresult⟩
  rw [boundMethod] at hbound
  split at hbound
  · rename_i found hfound
    cases hbound
    exact hfound
  · cases hbound

/-! ### Results -/

/-- The operation hands out something, if it creates or finds. -/
def HandsOut (op : Operation) : Prop :=
  HomeOperation.ofName op.name ≠ .business → op.result.isVoid = false

/-- Several views come as a collection or an enumeration. -/
theorem isVoid_of_isNamed {op : Operation} {name : String} (hname : name ≠ "void")
    (hop : op.result.isNamed name = true) : op.result.isVoid = false := by
  simp only [Ty.isNamed, Bool.and_eq_true, beq_iff_eq] at hop
  simp [Ty.isVoid, hop.2, hname]

/-- All creating and finding operations of the homes hand out something. -/
theorem handsOut_of_checkRules (hvoid : VoidIsNoView h) (hfactory : r.kind.isFactory = true)
    (hrules : checkRules h r = .ok ()) :
    ∀ home ∈ r.homes, ∀ op ∈ home.2.ownedMethods, HandsOut op := by
  intro home hhome op hop hbusiness
  rcases (isAdmitted_of_checkRules hfactory hrules home hhome op hop).handsOut hbusiness with
    hview | hseveral | hseveral
  · exact result_of_checkReturnsView hvoid hview
  · exact isVoid_of_isNamed (by decide) hseveral
  · exact isVoid_of_isNamed (by decide) hseveral

end Request

end ComponentViews
