import ComponentViews.Hierarchy.Standard
import ComponentViews.Proofs.Hierarchy.Search

/-!
# Subtyping is reachability

The search behind `Hierarchy.isSubtype` is bounded by the number of declared steps, and the bound is
enough (`reaches_iff`). From that:

* `isSubtype_iff`: a subtype is the class itself, or reaches the other by at least one step upwards,
  or the other is `java.lang.Object`;
* `isSubtype_insertAll`: however the classes have been declared, the search ends, and the steps
  upwards that count are those of the last declarations.

Where the steps upwards never run in a circle, and nothing stands above `java.lang.Object`, strict
subtyping is a strict order.
-/

namespace ComponentViews.Hierarchy

variable {h : Hierarchy}

/-- No chain of steps upwards leads from a name back to it. -/
def Acyclic (h : Hierarchy) : Prop := ∀ a, ¬ Relation.TransGen h.Above a a

/-- The declarations run in no circle if the search from no declared name leads back to it. -/
theorem acyclic_iff : h.Acyclic ↔
    ∀ c ∈ h.classes, h.reaches c.name (h.edgeCount + 2) [] [c.name] = false := by
  have hr : ∀ name, h.reaches name (h.edgeCount + 2) [] [name] = true ↔
      Relation.TransGen h.Above name name := by
    intro name
    rw [reaches_iff (by simp; omega)]
    simp
  constructor
  · intro hac c _
    exact Bool.eq_false_iff.2 fun hc => hac c.name ((hr c.name).1 hc)
  · intro hall a ha
    -- A name with something above it is declared.
    obtain ⟨b, hab, -⟩ := Relation.TransGen.head'_iff.1 ha
    rw [Above, parents] at hab
    cases hfind : h.find? a with
    | none => simp [hfind] at hab
    | some c =>
      have hname : c.name = a := by simpa using List.find?_some hfind
      have := hall c (List.mem_of_find?_eq_some hfind)
      rw [hname] at this
      exact Bool.eq_false_iff.1 this ((hr a).2 ha)

instance : Decidable h.Acyclic := decidable_of_iff _ acyclic_iff.symm

/-! ### Subtypes -/

/-- The subtypes of a class are the class itself and the names that it is above, and
    every name is a subtype of `java.lang.Object`. -/
theorem isSubtype_iff {sub sup : String} :
    h.isSubtype sub sup = true ↔
      sub = sup ∨ sup = Known.object ∨ Relation.TransGen h.Above sub sup := by
  have hr : h.reaches sup (h.edgeCount + 2) [] [sub] = true ↔
      ∃ name ∈ [sub], Relation.TransGen h.Above name sup :=
    reaches_iff (by simp; omega)
  simp only [isSubtype, Bool.or_eq_true, beq_iff_eq, hr, List.mem_singleton, exists_eq_left,
    or_assoc]

@[simp] theorem isSubtype_refl (h : Hierarchy) (name : String) : h.isSubtype name name = true := by
  simp [isSubtype]

@[simp] theorem isSubtype_object (h : Hierarchy) (name : String) :
    h.isSubtype name Known.object = true := by
  simp [isSubtype]

/-- Nothing stands above `java.lang.Object`. -/
def ObjectIsTop (h : Hierarchy) : Prop := h.parents Known.object = []

theorem eq_object_of_isSubtype (htop : h.ObjectIsTop) {sup : String}
    (hsup : h.isSubtype Known.object sup = true) : sup = Known.object := by
  rcases isSubtype_iff.1 hsup with rfl | rfl | hup
  · rfl
  · rfl
  · obtain ⟨b, hb, -⟩ := Relation.TransGen.head'_iff.1 hup
    rw [Above, htop] at hb
    exact absurd hb List.not_mem_nil

theorem isSubtype_trans (htop : h.ObjectIsTop) {a b c : String} (hab : h.isSubtype a b = true)
    (hbc : h.isSubtype b c = true) : h.isSubtype a c = true := by
  rcases isSubtype_iff.1 hab with rfl | rfl | hup
  · exact hbc
  · rw [eq_object_of_isSubtype htop hbc]
    exact isSubtype_object h a
  · rcases isSubtype_iff.1 hbc with rfl | rfl | hfurther
    · exact hab
    · exact isSubtype_object h a
    · exact isSubtype_iff.2 (.inr (.inr (hup.trans hfurther)))

theorem isSubtype_antisymm (hac : h.Acyclic) (htop : h.ObjectIsTop) {a b : String}
    (hab : h.isSubtype a b = true) (hba : h.isSubtype b a = true) : a = b := by
  rcases isSubtype_iff.1 hab with rfl | rfl | hup
  · rfl
  · exact eq_object_of_isSubtype htop hba
  · rcases isSubtype_iff.1 hba with rfl | rfl | hdown
    · rfl
    · exact (eq_object_of_isSubtype htop hab).symm
    · exact absurd (hup.trans hdown) (hac a)

theorem isStrictSubtype_iff {a b : String} :
    h.isStrictSubtype a b = true ↔ a ≠ b ∧ h.isSubtype a b = true := by
  simp [isStrictSubtype]

/-! ### Hierarchies of declarations -/

theorem find?_insertAll (h : Hierarchy) (cs : List ClassDecl) (name : String) :
    (h.insertAll cs).find? name = (cs.reverse.find? (·.name == name)).or (h.find? name) := by
  induction cs generalizing h with
  | nil => rfl
  | cons c rest ih =>
    have hinsert : h.insertAll (c :: rest) = (h.insert c).insertAll rest := rfl
    rw [hinsert, ih, find?_insert, List.reverse_cons, List.find?_append, Option.or_assoc]
    by_cases hname : c.name = name
    · simp [hname]
    · simp [hname]

/-- `b` is the superclass of `a` or one of its interfaces, by the last declaration of `a` among
    those of `cs`, or by the one that `h` has if it is not declared there. -/
def DeclaredAbove (h : Hierarchy) (cs : List ClassDecl) (a b : String) : Prop :=
  ∃ c, (cs.reverse.find? (·.name == a)).or (h.find? a) = some c ∧
    (c.superclass = some b ∨ b ∈ c.interfaces)

theorem above_insertAll_iff {cs : List ClassDecl} {a b : String} :
    (h.insertAll cs).Above a b ↔ h.DeclaredAbove cs a b := by
  rw [Above, parents, find?_insertAll, DeclaredAbove]
  cases (cs.reverse.find? (·.name == a)).or (h.find? a) with
  | none => simp
  | some c => simp [ClassDecl.parents]

/-- Whatever classes are declared after those of `h`, in circles, with classes above that are not
    there, or in place of others: no search for a supertype goes on forever, and whichever names it
    takes next, it ends with the same answer. A subtype is the class itself, or there is a path to
    the other along superclasses and interfaces, or the other is `java.lang.Object`; and if that has
    nothing above it, subtypes of subtypes are subtypes. -/
theorem isSubtype_insertAll (h : Hierarchy) (cs : List ClassDecl) :
    (∀ sup, WellFounded fun t s => Search.Step (h.insertAll cs) sup s t) ∧
    (∀ sub sup,
      (∃ t answer, Relation.ReflTransGen (Search.Step (h.insertAll cs) sup) ⟨[], [sub]⟩ t ∧
        Search.Ends (h.insertAll cs) sup t answer) ∧
      ∀ t answer, Relation.ReflTransGen (Search.Step (h.insertAll cs) sup) ⟨[], [sub]⟩ t →
        Search.Ends (h.insertAll cs) sup t answer →
        (h.insertAll cs).isSubtype sub sup = (sub == sup || sup == Known.object || answer)) ∧
    (∀ sub sup, (h.insertAll cs).isSubtype sub sup = true ↔
      sub = sup ∨ sup = Known.object ∨ Relation.TransGen (h.DeclaredAbove cs) sub sup) ∧
    ((∀ b, ¬ h.DeclaredAbove cs Known.object b) → ∀ a b c,
      (h.insertAll cs).isSubtype a b = true → (h.insertAll cs).isSubtype b c = true →
      (h.insertAll cs).isSubtype a c = true) := by
  refine ⟨Search.wellFounded_step _, fun sub sup => ⟨?_, fun t answer hrun hend => ?_⟩,
    fun sub sup => ?_, fun htop a b c => isSubtype_trans ?_⟩
  · exact Search.exists_ends _ sup ⟨[], [sub]⟩
  · have hanswer := ((Search.frontier_start _ sup [sub]).run hrun).ends hend
    rw [Bool.eq_iff_iff, isSubtype_iff]
    simp [hanswer, or_assoc]
  · have habove : (h.insertAll cs).Above = h.DeclaredAbove cs :=
      funext fun a => funext fun b => propext above_insertAll_iff
    rw [isSubtype_iff, habove]
  · exact List.eq_nil_iff_forall_not_mem.2 fun b hb => htop b (above_insertAll_iff.1 hb)

/-- Interfaces in a circle, one of them below a class that is not declared, and a standard interface
    declared anew. -/
def circularClasses : List ClassDecl :=
  [.interface "acme.Ledger" ["acme.Audited"],
    .interface "acme.Audited" ["acme.Ledger", "acme.Missing"],
    .interface Known.remote ["acme.Audited"]]

/-- The standard classes and these. -/
def circular : Hierarchy := standard.insertAll circularClasses

theorem isSubtype_insertAll_circular :
    (∀ b, ¬ standard.DeclaredAbove circularClasses Known.object b) ∧
    circular.isSubtype Known.ejbObject Known.remote = true ∧
    circular.isSubtype Known.remote "acme.Missing" = true ∧
    circular.isSubtype Known.ejbObject "acme.Missing" = true ∧
    Relation.TransGen (standard.DeclaredAbove circularClasses) Known.ejbObject "acme.Missing" := by
  have htop : ∀ b, ¬ standard.DeclaredAbove circularClasses Known.object b := by
    have hparents : circular.parents Known.object = [] := by decide
    intro b hb
    exact List.eq_nil_iff_forall_not_mem.1 hparents b (above_insertAll_iff.2 hb)
  have hremote : circular.isSubtype Known.ejbObject Known.remote = true := by decide
  have hmissing : circular.isSubtype Known.remote "acme.Missing" = true := by decide
  obtain ⟨-, -, hpath, htrans⟩ := isSubtype_insertAll standard circularClasses
  have hboth := htrans htop _ _ _ hremote hmissing
  exact ⟨htop, hremote, hmissing, hboth,
    (((hpath _ _).1 hboth).resolve_left (by decide)).resolve_left (by decide)⟩

end ComponentViews.Hierarchy
