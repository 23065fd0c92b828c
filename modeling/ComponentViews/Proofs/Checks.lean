import Mathlib.Data.List.Forall2

/-!
# Checks that succeed

A check is a computation that throws the first thing that is wrong. It succeeds when each
of its steps does; and a list of results has come about one by one
(`Except.forall₂_of_mapM_eq_ok`).
-/

namespace ComponentViews

/-- Of two steps the second goes on with what the first gives. -/
theorem Except.bind_eq_ok {ε α β : Type} {x : Except ε α} {f : α → Except ε β} {b : β} :
    (x >>= f) = .ok b ↔ ∃ a, x = .ok a ∧ f a = .ok b := by
  cases x <;> simp [bind, Except.bind]

/-- Both steps of a check succeed. -/
@[simp] theorem Except.bind_unit_eq_ok {ε α : Type} {x : Except ε Unit} {y : Except ε α} {a : α} :
    (x >>= fun _ => y) = .ok a ↔ x = .ok () ∧ y = .ok a := by
  cases x with
  | error e => simp [bind, Except.bind]
  | ok u => simp [bind, Except.bind]

/-- Every step of a check over a list succeeds. -/
@[simp] theorem Except.forM_eq_ok {ε α : Type} {xs : List α} {f : α → Except ε Unit} :
    xs.forM f = .ok () ↔ ∀ x ∈ xs, f x = .ok () := by
  induction xs with
  | nil => simp [List.forM, pure, Except.pure]
  | cons x xs ih => rw [List.forM, Except.bind_unit_eq_ok, ih, List.forall_mem_cons]

/-- A check that throws where a condition holds. -/
@[simp] theorem Except.throw_if_eq_ok {ε : Type} {p : Prop} [Decidable p] {e : ε} :
    (if p then throw e else pure PUnit.unit : Except ε PUnit) = .ok () ↔ ¬ p := by
  split <;> simp [*, throw, throwThe, MonadExceptOf.throw, pure, Except.pure]

/-- A check that throws unless a condition holds. -/
@[simp] theorem Except.throw_unless_eq_ok {ε : Type} {p : Prop} [Decidable p] {e : ε} :
    (if p then pure PUnit.unit else throw e : Except ε PUnit) = .ok () ↔ p := by
  split <;> simp [*, throw, throwThe, MonadExceptOf.throw, pure, Except.pure]

@[simp] theorem Except.mapError_eq_ok {ε δ α : Type} {f : ε → δ} {x : Except ε α} {a : α} :
    x.mapError f = .ok a ↔ x = .ok a := by
  cases x <;> simp [Except.mapError]

/-- What is asked of a result can be looked up, if there is one. -/
instance Except.decidableExistsOk {ε α : Type} {p : α → Prop} [DecidablePred p] :
    (x : Except ε α) → Decidable (∃ a, x = .ok a ∧ p a)
  | .ok a => decidable_of_iff (p a) (by simp)
  | .error _ => isFalse (by simp)

/-- A list of results has come about one by one. -/
theorem Except.forall₂_of_mapM_eq_ok {ε α β : Type} {f : α → Except ε β} {xs : List α}
    {ys : List β} (hys : xs.mapM f = .ok ys) : List.Forall₂ (fun x y => f x = .ok y) xs ys := by
  induction xs generalizing ys with
  | nil =>
    simp only [List.mapM_nil, pure, Except.pure, Except.ok.injEq] at hys
    rw [← hys]
    exact .nil
  | cons x xs ih =>
    rw [List.mapM_cons] at hys
    cases hx : f x with
    | error e => simp [hx, bind, Except.bind] at hys
    | ok y =>
      cases hrest : xs.mapM f with
      | error e => simp [hx, hrest, bind, Except.bind] at hys
      | ok rest =>
        simp only [hx, hrest, bind, Except.bind, pure, Except.pure, Except.ok.injEq] at hys
        rw [← hys]
        exact .cons hx (ih hrest)

/-- Each of a list of results is what some input gives. -/
theorem Except.mem_of_mapM_eq_ok {ε α β : Type} {f : α → Except ε β} {xs : List α} {ys : List β}
    (hys : xs.mapM f = .ok ys) : ∀ y ∈ ys, ∃ x ∈ xs, f x = .ok y := by
  intro y hy
  obtain ⟨i, hi, rfl⟩ := List.mem_iff_getElem.1 hy
  have hforall := Except.forall₂_of_mapM_eq_ok hys
  have hx : i < xs.length := hforall.length_eq ▸ hi
  exact ⟨xs[i], List.getElem_mem hx, hforall.get hx hi⟩

/-- There is a list of results if each of them can be given. -/
theorem Except.exists_mapM_eq_ok {ε α β : Type} {f : α → Except ε β} {xs : List α}
    (h : ∀ x ∈ xs, ∃ y, f x = .ok y) : ∃ ys, xs.mapM f = .ok ys := by
  induction xs with
  | nil => exact ⟨[], by rw [List.mapM_nil]; rfl⟩
  | cons x xs ih =>
    obtain ⟨⟨y, hy⟩, hrest⟩ := List.forall_mem_cons.1 h
    obtain ⟨ys, hys⟩ := ih hrest
    exact ⟨y :: ys, by rw [List.mapM_cons, hy, hys]; rfl⟩

/-- A list comes back if each of its items does. -/
theorem Except.mapM_map_eq_ok {ε α β : Type} {f : β → Except ε α} {g : α → β} {xs : List α}
    (h : ∀ x ∈ xs, f (g x) = .ok x) : (xs.map g).mapM f = .ok xs := by
  induction xs with
  | nil => rw [List.map_nil, List.mapM_nil]; rfl
  | cons x xs ih =>
    obtain ⟨hx, hxs⟩ := List.forall_mem_cons.1 h
    rw [List.map_cons, List.mapM_cons, hx, ih hxs]
    rfl

end ComponentViews
