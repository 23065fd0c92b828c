import ComponentViews.Proofs.ClassFile.Pool
import Mathlib.Order.Defs.Unbundled

/-!
# The constant pool grows

Code is built with the constant pool of its class at hand, to which each part adds what it
needs. Whatever is built, the pool only grows: it stays sound, and what an index stands for it
goes on standing for (`Pool.Grows`). A step that does no worse *keeps the pool* (`KeepsPool`).
That a step takes the state to a related one is enough to be shown of its parts, whatever the
relation is (`Relates.bind`).
-/

namespace ComponentViews

namespace Pool

/-- A pool to which constants have been added. -/
def Grows (p q : Pool) : Prop := p.Sound False → q.Sound False ∧ p.Extends q

theorem Grows.refl (p : Pool) : p.Grows p := fun hp => ⟨hp, Extends.refl p⟩

theorem Grows.trans {p q r : Pool} (hpq : p.Grows q) (hqr : q.Grows r) : p.Grows r := by
  intro hp
  obtain ⟨hq, hext⟩ := hpq hp
  obtain ⟨hr, hext'⟩ := hqr hq
  exact ⟨hr, hext.trans hext'⟩

/-- An addition that grows a pool. -/
def Add.Adds (add : Add) : Prop := ∀ p i q, add.run.run p = (.ok i, q) → p.Grows q

theorem adds_intern {c : Constant} (hc : c ≠ .unusable) : (intern c).Adds := by
  intro p i q hrun hp
  obtain ⟨hq, hext, -⟩ := spec_intern hp hc (fun h => h.elim) hrun
  exact ⟨hq, hext⟩

theorem Add.Adds.bind {add : Add} {f : UInt16 → Add} (h : add.Adds) (hf : ∀ i, (f i).Adds) :
    Add.Adds (add >>= f) := by
  intro p i q hrun
  obtain ⟨j, r, hadd, hrun⟩ := run_bind_eq_ok hrun
  exact (h p j r hadd).trans (hf j r i q hrun)

theorem adds_addUtf8 (s : String) : (addUtf8 s).Adds := adds_intern (by simp)

theorem adds_addClass (name : String) : (addClass name).Adds :=
  (adds_addUtf8 _).bind fun _ => adds_intern (by simp)

theorem adds_addString (s : String) : (addString s).Adds :=
  (adds_addUtf8 s).bind fun _ => adds_intern (by simp)

theorem adds_addMember {make : UInt16 → UInt16 → Constant} (hmake : ∀ o n, make o n ≠ .unusable)
    (owner name descriptor : String) : (addMember make owner name descriptor).Adds :=
  (adds_addClass owner).bind fun _ =>
    ((adds_addUtf8 name).bind fun _ => (adds_addUtf8 descriptor).bind fun _ =>
      adds_intern (by simp)).bind fun _ => adds_intern (hmake _ _)

theorem adds_addField (owner name descriptor : String) :
    (addField owner name descriptor).Adds :=
  adds_addMember (by simp) owner name descriptor

theorem adds_addMethod (owner name descriptor : String) :
    (addMethod owner name descriptor).Adds :=
  adds_addMember (by simp) owner name descriptor

theorem adds_addInterfaceMethod (owner name descriptor : String) :
    (addInterfaceMethod owner name descriptor).Adds :=
  adds_addMember (by simp) owner name descriptor

theorem adds_addInteger (n : Int32) : (addInteger n).Adds := adds_intern (by simp)

theorem adds_addFloat (bits : UInt32) : (addFloat bits).Adds := adds_intern (by simp)

theorem adds_addLong (n : Int64) : (addLong n).Adds := adds_intern (by simp)

theorem adds_addDouble (bits : UInt64) : (addDouble bits).Adds := adds_intern (by simp)

end Pool

/-! ### Steps that relate states -/

/-- Both steps succeed. -/
theorem exists_of_run_bind {σ ε α β : Type} {x : StateT σ (Except ε) α}
    {f : α → StateT σ (Except ε) β} {s t : σ} {b : β} (h : (x >>= f).run s = .ok (b, t)) :
    ∃ a r, x.run s = .ok (a, r) ∧ (f a).run r = .ok (b, t) := by
  rw [StateT.run_bind] at h
  cases hrun : x.run s with
  | error e =>
    rw [hrun] at h
    cases h
  | ok r =>
    rw [hrun] at h
    exact ⟨r.1, r.2, rfl, h⟩

/-- A step on a state takes it to a related one, or fails with a fault that is expected. -/
structure Relates {σ ε α : Type} (R : σ → σ → Prop) (E : ε → Prop)
    (x : StateT σ (Except ε) α) : Prop where
  ok : ∀ s a t, x.run s = .ok (a, t) → R s t
  error : ∀ s e, x.run s = .error e → E e

/-- A step on a state with a pool only lets the pool grow. -/
abbrev KeepsPool {σ ε α : Type} (pool : σ → Pool) (x : StateT σ (Except ε) α) : Prop :=
  Relates (fun s t => (pool s).Grows (pool t)) (fun _ => True) x

instance {σ : Type} {pool : σ → Pool} :
    IsPreorder σ fun s t => (pool s).Grows (pool t) where
  refl _ := Pool.Grows.refl _
  trans _ _ _ h h' := h.trans h'

namespace Relates

variable {σ ε α β : Type} {R : σ → σ → Prop} {E : ε → Prop} {x y : StateT σ (Except ε) α}

theorem throw {e : ε} (he : E e) : Relates R E (throw e : StateT σ (Except ε) α) where
  ok := by rintro s b t ⟨⟩
  error := by rintro s _ ⟨⟩; exact he

theorem modify {f : σ → σ} (hf : ∀ s, R s (f s)) :
    Relates R E (modify f : StateT σ (Except ε) PUnit) where
  ok := by rintro s a t ⟨⟩; exact hf s
  error := by rintro s e ⟨⟩

theorem ite {p : Prop} [Decidable p] (hx : Relates R E x) (hy : Relates R E y) :
    Relates R E (if p then x else y) := by
  split
  · exact hx
  · exact hy

variable [IsPreorder σ R]

theorem pure (a : α) : Relates R E (pure a : StateT σ (Except ε) α) where
  ok := by rintro s b t ⟨⟩; exact refl s
  error := by rintro s e ⟨⟩

theorem get : Relates R E (get : StateT σ (Except ε) σ) where
  ok := by rintro s b t ⟨⟩; exact refl s
  error := by rintro s e ⟨⟩

theorem bind {f : α → StateT σ (Except ε) β} (hx : Relates R E x)
    (hf : ∀ a, Relates R E (f a)) : Relates R E (x >>= f) where
  ok := by
    intro s b t h
    obtain ⟨a, r, hrun, h⟩ := exists_of_run_bind h
    exact Trans.trans (hx.ok s a r hrun) ((hf a).ok r b t h)
  error := by
    intro s e h
    rw [StateT.run_bind] at h
    cases hrun : x.run s with
    | error e' =>
      rw [hrun] at h
      cases h
      exact hx.error s e hrun
    | ok r =>
      rw [hrun] at h
      exact (hf r.1).error r.2 e h

end Relates

end ComponentViews
