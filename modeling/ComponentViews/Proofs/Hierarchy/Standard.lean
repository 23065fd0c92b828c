import ComponentViews.Hierarchy.Standard
import ComponentViews.Proofs.Hierarchy.Subtyping
import ComponentViews.Request.Hierarchy

/-!
# Hierarchies that keep the standard classes

A request may describe classes of its own, but the handlers of generated code rely on
how the standard classes stand to each other. Where no standard class is declared anew,
they stand as in the standard hierarchy: the standard classes are closed upwards, so that
no class of the request comes between them.

The failures that are assumed for a request are placed below `java.lang.Exception`. That
closes no circle, as nothing leads from there back to a class that is not standard.
-/

namespace ComponentViews.Hierarchy

variable {h : Hierarchy}

/-- The names of the classes that every hierarchy begins with. -/
def standardNames : List String := standardClasses.map (·.name)

/-- The standard classes are declared as in the standard hierarchy. -/
def KeepsStandard (h : Hierarchy) : Prop :=
  ∀ name ∈ standardNames, h.find? name = standard.find? name

theorem keepsStandard_standard : standard.KeepsStandard := fun _ _ => rfl

theorem KeepsStandard.insert (hk : h.KeepsStandard) {c : ClassDecl}
    (hc : c.name ∉ standardNames) : (h.insert c).KeepsStandard := by
  intro name hname
  rw [find?_insert, if_neg (by rintro rfl; exact hc hname)]
  exact hk name hname

theorem KeepsStandard.insertAll (hk : h.KeepsStandard) {cs : List ClassDecl}
    (hcs : ∀ c ∈ cs, c.name ∉ standardNames) : (h.insertAll cs).KeepsStandard := by
  induction cs generalizing h with
  | nil => exact hk
  | cons c rest ih =>
    exact ih (hk.insert (hcs c List.mem_cons_self)) fun d hd => hcs d (List.mem_cons_of_mem _ hd)

/-- What stands directly above a standard class is standard. -/
theorem standardNames_closed {a b : String} (hab : standard.Above a b) : b ∈ standardNames := by
  have hall : ∀ c ∈ standardClasses, ∀ b ∈ c.parents, b ∈ standardNames := by decide +kernel
  rw [Above, parents] at hab
  cases hfind : standard.find? a with
  | none => simp [hfind] at hab
  | some c =>
    rw [hfind] at hab
    exact hall c (List.mem_of_find?_eq_some hfind) b hab

namespace KeepsStandard

theorem parents_eq (hk : h.KeepsStandard) {a : String} (ha : a ∈ standardNames) :
    h.parents a = standard.parents a := by
  rw [parents, parents, hk a ha]

theorem contains (hk : h.KeepsStandard) {a : String} (ha : a ∈ standardNames) :
    h.contains a = true := by
  obtain ⟨c, hc, hname⟩ := List.mem_map.1 ha
  rw [Hierarchy.contains, hk a ha, find?, List.find?_isSome]
  exact ⟨c, hc, by simpa using hname⟩

theorem objectIsTop (hk : h.KeepsStandard) : h.ObjectIsTop := by
  rw [ObjectIsTop, hk.parents_eq (by decide)]
  decide

theorem above_closed (hk : h.KeepsStandard) {a b : String} (ha : a ∈ standardNames)
    (hab : h.Above a b) : b ∈ standardNames := by
  rw [Above, hk.parents_eq ha] at hab
  exact standardNames_closed hab

/-- From a standard class, the same names are above in all hierarchies that keep the
    standard classes. -/
theorem transGen_of_transGen {k : Hierarchy} (hk : h.KeepsStandard) (kk : k.KeepsStandard)
    {a b : String} (ha : a ∈ standardNames) (hab : Relation.TransGen h.Above a b) :
    Relation.TransGen k.Above a b ∧ b ∈ standardNames := by
  have hstep : ∀ {x y}, x ∈ standardNames → h.Above x y → k.Above x y := by
    intro x y hx hxy
    rw [Above, kk.parents_eq hx, ← hk.parents_eq hx]
    exact hxy
  induction hab with
  | single hab => exact ⟨.single (hstep ha hab), hk.above_closed ha hab⟩
  | tail _ hbc ih => exact ⟨ih.1.tail (hstep ih.2 hbc), hk.above_closed ih.2 hbc⟩

/-- The supertypes of a standard class are those that it has in the standard hierarchy. -/
theorem isSubtype_eq (hk : h.KeepsStandard) {a : String} (ha : a ∈ standardNames)
    (b : String) : h.isSubtype a b = standard.isSubtype a b := by
  rw [Bool.eq_iff_iff, isSubtype_iff, isSubtype_iff]
  have hiff : Relation.TransGen h.Above a b ↔ Relation.TransGen standard.Above a b :=
    ⟨fun hab => (hk.transGen_of_transGen keepsStandard_standard ha hab).1,
      fun hab => (keepsStandard_standard.transGen_of_transGen hk ha hab).1⟩
  rw [hiff]

theorem isSubtype_of_standard (hk : h.KeepsStandard) {a b : String} (ha : a ∈ standardNames)
    (hab : standard.isSubtype a b = true) : h.isSubtype a b = true := by
  rw [hk.isSubtype_eq ha, hab]

/-- A failure that is taken for an exception is no standard class. -/
theorem assumeChecked (hk : h.KeepsStandard) (name : String) :
    (h.assumeChecked name).KeepsStandard := by
  rw [Hierarchy.assumeChecked]
  split
  · exact hk
  · rename_i hn
    exact hk.insert fun hmem => hn (hk.contains hmem)

/-- Taking a failure for an exception closes no circle. -/
theorem acyclic_assumeChecked (hk : h.KeepsStandard) (hac : h.Acyclic) (name : String) :
    (h.assumeChecked name).Acyclic := by
  by_cases hn : h.contains name = true
  · simpa [Hierarchy.assumeChecked, hn] using hac
  have hk' := hk.assumeChecked name
  have hstep : ∀ {a b}, (h.assumeChecked name).Above a b →
      h.Above a b ∨ b ∈ standardNames := by
    intro a b hab
    rw [Above, Hierarchy.assumeChecked, if_neg hn, parents, find?_insert] at hab
    by_cases ha : name = a
    · simp only [ClassDecl.extending, ha, if_true, ClassDecl.parents, Option.toList_some,
        List.append_nil, List.mem_singleton] at hab
      subst hab
      exact .inr (by decide)
    · rw [if_neg (by simpa [ClassDecl.extending] using ha)] at hab
      exact .inl hab
  -- A path that takes the new step has ended up among the standard classes.
  have hpath : ∀ {a b}, Relation.TransGen (h.assumeChecked name).Above a b →
      Relation.TransGen h.Above a b ∨ b ∈ standardNames := by
    intro a b hab
    induction hab with
    | single hab => exact (hstep hab).imp .single id
    | tail _ hbc ih =>
      rcases ih with ih | ih
      · exact (hstep hbc).imp ih.tail id
      · exact .inr (hk'.above_closed ih hbc)
  intro a ha
  rcases hpath ha with haa | hmem
  · exact hac a haa
  · exact hac a (hk'.transGen_of_transGen hk hmem ha).1

end KeepsStandard

end Hierarchy

/-! ### The hierarchy of a request -/

namespace Request

/-- The classes that a request describes, the standard ones apart. -/
def describedClasses (r : Request) : List ClassDecl :=
  r.types ++ r.interfaces.map Interface.decl ++ r.companion?.toList.map Interface.decl ++
    [r.beanDecl]

/-- The request declares no standard class anew. -/
def KeepsStandard (r : Request) : Prop :=
  ∀ c ∈ r.describedClasses, c.name ∉ Hierarchy.standardNames

instance (r : Request) : Decidable r.KeepsStandard :=
  inferInstanceAs (Decidable (∀ c ∈ r.describedClasses, c.name ∉ Hierarchy.standardNames))

variable {r : Request}

theorem keepsStandard_described (hr : r.KeepsStandard) : r.describedHierarchy.KeepsStandard :=
  Hierarchy.keepsStandard_standard.insertAll hr

theorem assumeFailures_fst (h : Hierarchy) (names : List String) :
    (assumeFailures h names).1 = names.foldl Hierarchy.assumeChecked h := by
  induction names generalizing h with
  | nil => rfl
  | cons name names ih =>
    rw [assumeFailures, List.foldl_cons]
    split
    · rename_i hn
      rw [ih, Hierarchy.assumeChecked, if_pos hn]
    · exact ih _

theorem keepsStandard_hierarchy (hr : r.KeepsStandard) : r.hierarchy.KeepsStandard := by
  rw [hierarchy, assumeFailures_fst]
  generalize r.declaredFailures = names
  have hk := keepsStandard_described hr
  revert hk
  generalize r.describedHierarchy = h
  intro hk
  induction names generalizing h with
  | nil => exact hk
  | cons name names ih => exact ih _ (hk.assumeChecked name)

theorem acyclic_hierarchy (hr : r.KeepsStandard) (hac : r.describedHierarchy.Acyclic) :
    r.hierarchy.Acyclic := by
  rw [hierarchy, assumeFailures_fst]
  generalize r.declaredFailures = names
  have hk := keepsStandard_described hr
  revert hk hac
  generalize r.describedHierarchy = h
  intro hac hk
  induction names generalizing h with
  | nil => exact hac
  | cons name names ih => exact ih _ (hk.acyclic_assumeChecked hac name) (hk.assumeChecked name)

end Request

end ComponentViews
