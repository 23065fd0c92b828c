import ComponentViews.Proofs.Code.Kinds
import ComponentViews.Proofs.Rules.Home
import ComponentViews.Proofs.Synthesis.Classes

/-!
# Views are references

A type is told from its name alone, so that a class that goes by the name of a primitive type is
taken for that type, also where the rules ask for a view. Where no class does
(`Request.NamesClasses`), what has a class above it is a reference, and so is what a home hands
out (`Request.isReference_of_isAdmitted`).
-/

namespace ComponentViews

/-- Types whose name is not taken for a primitive type are references; arrays are all. -/
theorem Ty.isReference_of_named {ty : Ty} (h : (Ty.named ty.name).isReference = true) :
    ty.isReference = true := by
  obtain ⟨name, dims⟩ := ty
  cases dims with
  | zero => exact h
  | succ n => simp [isReference, isVoid, primitive?]

namespace Hierarchy

variable {h : Hierarchy}

/-- No class that is declared is taken for a primitive type. -/
def NamesClasses (h : Hierarchy) : Prop :=
  ∀ name, h.contains name = true → (Ty.named name).isReference = true

theorem namesClasses_standard : standard.NamesClasses := by
  have hall : ∀ c ∈ standardClasses, (Ty.named c.name).isReference = true := by decide
  intro name hname
  rw [contains, find?, List.find?_isSome] at hname
  obtain ⟨c, hc, hname⟩ := hname
  exact beq_iff_eq.1 hname ▸ hall c hc

namespace NamesClasses

theorem insert (hn : h.NamesClasses) {c : ClassDecl}
    (hc : (Ty.named c.name).isReference = true) : (h.insert c).NamesClasses := by
  intro name hname
  by_cases heq : c.name = name
  · exact heq ▸ hc
  · rw [contains, find?_insert, if_neg heq] at hname
    exact hn name hname

theorem insertAll (hn : h.NamesClasses) {cs : List ClassDecl}
    (hcs : ∀ c ∈ cs, (Ty.named c.name).isReference = true) : (h.insertAll cs).NamesClasses := by
  induction cs generalizing h with
  | nil => exact hn
  | cons c rest ih =>
    exact ih (hn.insert (hcs c List.mem_cons_self)) fun d hd => hcs d (List.mem_cons_of_mem _ hd)

theorem foldl_assumeChecked (hn : h.NamesClasses) {names : List String}
    (hnames : ∀ name ∈ names, (Ty.named name).isReference = true) :
    (names.foldl assumeChecked h).NamesClasses := by
  induction names generalizing h with
  | nil => exact hn
  | cons name rest ih =>
    refine ih ?_ fun other ho => hnames other (List.mem_cons_of_mem _ ho)
    rw [assumeChecked]
    split
    · exact hn
    · exact hn.insert (hnames name List.mem_cons_self)

/-- What has a class above it is declared. -/
theorem isReference_of_isStrictSubtype (hn : h.NamesClasses) {name above : String}
    (habove : above ≠ Known.object) (hsub : h.isStrictSubtype name above = true) :
    (Ty.named name).isReference = true := by
  rw [isStrictSubtype_iff] at hsub
  rcases isSubtype_iff.1 hsub.2 with heq | hobject | hpath
  · exact absurd heq hsub.1
  · exact absurd hobject habove
  · obtain ⟨parent, hparent, -⟩ := Relation.TransGen.head'_iff.1 hpath
    refine hn name ?_
    rw [Above, parents] at hparent
    rw [contains]
    cases hfind : h.find? name with
    | some c => rfl
    | none => simp [hfind] at hparent

end NamesClasses

end Hierarchy

namespace Request

variable {r : Request}

/-- No class that the request describes, and no failure that it declares, is taken for a
    primitive type. -/
structure NamesClasses (r : Request) : Prop where
  described : ∀ c ∈ r.describedClasses, (Ty.named c.name).isReference = true
  failures : ∀ op ∈ r.declaredOperations, ∀ ty ∈ op.throws,
    (Ty.named ty.name).isReference = true

theorem NamesClasses.interfaces (hr : r.NamesClasses) :
    ∀ i ∈ r.interfaces, (Ty.named i.name).isReference = true := by
  intro i hi
  refine hr.described i.decl ?_
  simp only [describedClasses, List.mem_append]
  exact .inl (.inl (.inr (List.mem_map_of_mem hi)))

theorem NamesClasses.bean (hr : r.NamesClasses) :
    (Ty.named r.bean.className).isReference = true :=
  hr.described r.beanDecl (List.mem_append_right _ (List.mem_singleton.2 rfl))

theorem namesClasses_hierarchy (hr : r.NamesClasses) : r.hierarchy.NamesClasses := by
  rw [hierarchy, assumeFailures_fst]
  refine (Hierarchy.namesClasses_standard.insertAll hr.described).foldl_assumeChecked ?_
  intro name hname
  obtain ⟨ty, hty, rfl⟩ := List.mem_map.1 hname
  obtain ⟨op, hop, hty⟩ := List.mem_flatMap.1 hty
  exact hr.failures op hop ty hty

theorem isReference_of_checkReturnsView {h : Hierarchy} (hn : h.NamesClasses) {isLocal : Bool}
    {op : Operation} (hop : checkReturnsView h isLocal op = .ok ()) :
    op.result.isReference = true := by
  rw [checkReturnsView, Except.throw_if_eq_ok] at hop
  simp only [Bool.or_eq_true, Bool.not_eq_true', not_or, Bool.not_eq_true, Bool.not_eq_false] at hop
  have hview : viewInterface isLocal ≠ Known.object := by cases isLocal <;> decide
  exact Ty.isReference_of_named (hn.isReference_of_isStrictSubtype hview hop.2)

/-- What a home hands out is a reference. -/
theorem isReference_of_isAdmitted {h : Hierarchy} (hn : h.NamesClasses) {isLocal : Bool}
    {op : Operation} (hop : IsAdmitted h r isLocal op)
    (hbusiness : HomeOperation.ofName op.name ≠ .business) : op.result.isReference = true := by
  rcases hop.handsOut hbusiness with hview | hseveral | hseveral
  · exact isReference_of_checkReturnsView hn hview
  · exact Ty.isNamed_iff.1 hseveral ▸ Ty.isReference_named (by simp)
  · exact Ty.isNamed_iff.1 hseveral ▸ Ty.isReference_named (by simp)

end Request

end ComponentViews
