import Mathlib.Data.List.Basic
import ComponentViews.Ty.Descriptor
import ComponentViews.Ty.DescriptorGrammar

/-!
# Descriptors of types and methods

Whether a text is a descriptor is told from its front, since no descriptor begins another: the
name of a class ends at its first semicolon. What is recognised are the texts of the form that
descriptors have (`Descriptor.isField_iff`), and those that consist of the descriptors of
parameters, in parentheses, and that of a result (`Descriptor.isMethod_iff`).

The descriptor of a type whose name is a keyword or the name of a class is one of the grammar
(`Ty.IsWritable`), and so is that of a method of such types (`isMethod_methodDescriptor`). So what
is written for types and methods is always recognised (`Descriptor.recognises_forms`).
-/

namespace ComponentViews

namespace Descriptor

theorem afterName?_append {s r : List Char} (h : afterName? s = some r) (t : List Char) :
    afterName? (s ++ t) = some (r ++ t) := by
  induction s with
  | nil => cases h
  | cons c s ih =>
    rw [afterName?] at h
    rw [List.cons_append, afterName?]
    split at h
    · rename_i hc
      rw [if_pos hc, Option.some.inj h]
    · rename_i hc
      rw [if_neg hc, ih h]

theorem afterField?_letter {c : Char} (hc : c ∈ letters) (rest : List Char) :
    afterField? (c :: rest) = some rest := by
  simp only [letters, List.mem_cons, List.not_mem_nil, or_false] at hc
  rcases hc with rfl | rfl | rfl | rfl | rfl | rfl | rfl | rfl <;> rfl

/-- What follows a descriptor does not change where it ends. -/
theorem afterField?_append {s r : List Char} (h : afterField? s = some r) (t : List Char) :
    afterField? (s ++ t) = some (r ++ t) := by
  fun_induction afterField? s with
  | case1 rest ih => exact ih h
  | case2 => cases h
  | case3 c rest hc =>
    show (if c = ';' then none else afterName? (rest ++ t)) = _
    rw [if_neg hc]
    exact afterName?_append h t
  | case4 c rest _ _ hc => rw [List.cons_append, afterField?_letter hc, Option.some.inj h]
  | case5 => cases h
  | case6 => cases h

theorem afterName?_of_not_mem {name : List Char} (h : ';' ∉ name) (rest : List Char) :
    afterName? (name ++ ';' :: rest) = some rest := by
  induction name with
  | nil => rfl
  | cons c name ih =>
    rw [List.mem_cons, not_or] at h
    rw [List.cons_append, afterName?, if_neg (Ne.symm h.1), ih h.2]

theorem afterField?_replicate (n : Nat) (s : List Char) :
    afterField? (List.replicate n '[' ++ s) = afterField? s := by
  induction n with
  | zero => rfl
  | succ n ih => rw [List.replicate_succ, List.cons_append, afterField?, ih]

theorem isMethodTail_field {s rest : List Char} (h : afterField? s = some rest) :
    isMethodTail s = isMethodTail rest := by
  cases s with
  | nil => cases h
  | cons c s =>
    by_cases hc : c = ')'
    · subst hc
      cases h
    · rw [isMethodTail]
      · split
        · rename_i found hfound
          rw [h, Option.some.injEq] at hfound
          rw [hfound]
        · rename_i hnone
          rw [h] at hnone
          cases hnone
      · intro result heq
        exact hc (List.cons.inj heq).1

theorem isMethodTail_result {result : List Char} (h : result = ['V'] ∨ isField result = true) :
    isMethodTail (')' :: result) = true := by
  rw [isMethodTail]
  rcases h with rfl | h
  · rfl
  · rw [h, Bool.or_true]

variable {s rest : List Char}

/-! ### Fields -/

/-- The form of a field descriptor: brackets before the letter of a primitive type, or before the
    name of a class between `L` and a semicolon. -/
inductive IsFieldForm : List Char → Prop where
  | letter (dims : Nat) {c : Char} : c ∈ ['B', 'C', 'D', 'F', 'I', 'J', 'S', 'Z'] →
      IsFieldForm (List.replicate dims '[' ++ [c])
  | name (dims : Nat) {name : List Char} : name ≠ [] → ';' ∉ name →
      IsFieldForm (List.replicate dims '[' ++ 'L' :: name ++ [';'])

theorem IsFieldForm.bracket (h : IsFieldForm s) : IsFieldForm ('[' :: s) := by
  cases h with
  | letter dims hc => exact .letter (dims + 1) hc
  | name dims hne hsemicolon => exact .name (dims + 1) hne hsemicolon

/-- The name that a text begins with ends at the first semicolon. -/
theorem eq_of_afterName? (h : afterName? s = some rest) :
    ∃ name, s = name ++ ';' :: rest ∧ ';' ∉ name := by
  induction s with
  | nil => cases h
  | cons c s ih =>
    rw [afterName?] at h
    split at h
    · rename_i hc
      cases h
      exact ⟨[], by rw [hc, List.nil_append], List.not_mem_nil⟩
    · rename_i hc
      obtain ⟨name, rfl, hname⟩ := ih h
      exact ⟨c :: name, rfl, List.not_mem_cons_of_ne_of_not_mem (Ne.symm hc) hname⟩

/-- The descriptor that a text begins with. -/
theorem eq_of_afterField? (h : afterField? s = some rest) :
    ∃ d, s = d ++ rest ∧ IsFieldForm d := by
  fun_induction afterField? s with
  | case1 tail ih =>
    obtain ⟨d, rfl, hd⟩ := ih h
    exact ⟨'[' :: d, rfl, hd.bracket⟩
  | case2 => cases h
  | case3 c tail hc =>
    obtain ⟨name, rfl, hname⟩ := eq_of_afterName? h
    exact ⟨'L' :: (c :: name) ++ [';'], by simp,
      .name 0 (List.cons_ne_nil _ _) (List.not_mem_cons_of_ne_of_not_mem (Ne.symm hc) hname)⟩
  | case4 c tail _ _ hc =>
    cases h
    exact ⟨[c], rfl, .letter 0 hc⟩
  | case5 => cases h
  | case6 => cases h

theorem isField_iff : isField s = true ↔ IsFieldForm s := by
  rw [isField, beq_iff_eq]
  constructor
  · intro h
    obtain ⟨d, rfl, hd⟩ := eq_of_afterField? h
    rwa [List.append_nil]
  · rintro (⟨dims, hc⟩ | ⟨dims, hne, hsemicolon⟩)
    · rw [afterField?_replicate, afterField?_letter hc]
    · obtain ⟨c, name, rfl⟩ := List.exists_cons_of_ne_nil hne
      rw [List.mem_cons, not_or] at hsemicolon
      rw [List.append_assoc, afterField?_replicate, List.cons_append, List.cons_append, afterField?,
        if_neg (Ne.symm hsemicolon.1), afterName?_of_not_mem hsemicolon.2]

/-! ### Methods -/

/-- A method descriptor with the descriptors that it consists of. -/
structure IsMethodOf (params : List (List Char)) (result s : List Char) : Prop where
  spelled : s = '(' :: params.flatten ++ ')' :: result
  params : ∀ d ∈ params, isField d = true
  result : result = ['V'] ∨ isField result = true

theorem isMethodTail_iff : isMethodTail s = true ↔
    ∃ (params : List (List Char)) (result : List Char), s = params.flatten ++ ')' :: result ∧
      (∀ d ∈ params, isField d = true) ∧ (result = ['V'] ∨ isField result = true) := by
  constructor
  · intro h
    fun_induction isMethodTail s with
    | case1 result =>
      rw [Bool.or_eq_true, beq_iff_eq] at h
      exact ⟨[], result, rfl, fun d hd => absurd hd List.not_mem_nil, h⟩
    | case2 s _ rest hrest ih =>
      obtain ⟨params, result, rfl, hparams, hresult⟩ := ih h
      obtain ⟨d, rfl, hd⟩ := eq_of_afterField? hrest
      exact ⟨d :: params, result, by simp,
        List.forall_mem_cons.2 ⟨isField_iff.2 hd, hparams⟩, hresult⟩
    | case3 => cases h
  · rintro ⟨params, result, rfl, hparams, hresult⟩
    induction params with
    | nil => exact isMethodTail_result hresult
    | cons d params ih =>
      rw [List.forall_mem_cons] at hparams
      rw [List.flatten_cons, List.append_assoc,
        isMethodTail_field (afterField?_append (beq_iff_eq.1 hparams.1) _)]
      exact ih hparams.2

/-- A method descriptor can be told apart into the descriptors of its parameters and its
    result. -/
theorem isMethod_iff : isMethod s = true ↔ ∃ params result, IsMethodOf params result s := by
  constructor
  · intro h
    unfold isMethod at h
    split at h
    · rename_i tail
      obtain ⟨params, result, rfl, hparams, hresult⟩ := isMethodTail_iff.1 h
      exact ⟨params, result, rfl, hparams, hresult⟩
    · cases h
  · rintro ⟨params, result, rfl, hparams, hresult⟩
    exact isMethodTail_iff.2 ⟨params, result, rfl, hparams, hresult⟩

/-- The form of a method descriptor: those of the parameters in parentheses, and `V` or that of
    the result. -/
def IsMethodForm (s : List Char) : Prop :=
  ∃ (params : List (List Char)) (result : List Char), (∀ d ∈ params, IsFieldForm d) ∧
    (result = ['V'] ∨ IsFieldForm result) ∧ s = '(' :: params.flatten ++ ')' :: result

theorem isMethod_iff_form : isMethod s = true ↔ IsMethodForm s := by
  rw [isMethod_iff]
  constructor
  · rintro ⟨params, result, rfl, hparams, hresult⟩
    exact ⟨params, result, fun d hd => isField_iff.1 (hparams d hd),
      hresult.imp_right isField_iff.1, rfl⟩
  · rintro ⟨params, result, hparams, hresult, rfl⟩
    exact ⟨params, result, rfl, fun d hd => isField_iff.2 (hparams d hd),
      hresult.imp_right isField_iff.2⟩

end Descriptor

/-- A name has no characters of its own where slashes stand for its dots. -/
theorem not_mem_slashed {name : String} {c : Char} (hc : c ≠ '/') (h : c ∉ name.toList) :
    c ∉ (Dotted.slashed name).toList := by
  rw [Dotted.slashed, Text.replaceChar, String.toList_ofList]
  intro hmem
  obtain ⟨d, hd, heq⟩ := List.mem_map.1 hmem
  split at heq
  · exact hc heq.symm
  · exact h (heq ▸ hd)

namespace Ty

/-- The type has a descriptor that fields can have. -/
def IsWritable (ty : Ty) : Prop := Descriptor.isField ty.descriptor.toList = true

instance (ty : Ty) : Decidable ty.IsWritable := inferInstanceAs (Decidable (_ = true))

theorem IsWritable.after {ty : Ty} (h : ty.IsWritable) (rest : List Char) :
    Descriptor.afterField? (ty.descriptor.toList ++ rest) = some rest := by
  have h : Descriptor.afterField? ty.descriptor.toList = some [] := beq_iff_eq.1 h
  exact Descriptor.afterField?_append h rest

theorem letter_mem_letters (p : Primitive) : p.letter ∈ Descriptor.letters := by
  cases p <;> decide

theorem isWritable_of_ofName? {ty : Ty} {p : Primitive} (h : Primitive.ofName? ty.name = some p) :
    ty.IsWritable := by
  rw [IsWritable, Descriptor.isField_iff, descriptor, elementDescriptor, h, String.toList_ofList]
  exact .letter ty.dims (letter_mem_letters p)

/-- A name without a semicolon can stand between `L` and the semicolon. -/
theorem isWritable_of_not_mem {ty : Ty} (hname : ty.name ≠ "") (hsemicolon : ';' ∉ ty.name.toList)
    (hvoid : ty.name ≠ "void") : ty.IsWritable := by
  cases hp : Primitive.ofName? ty.name with
  | some p => exact isWritable_of_ofName? hp
  | none =>
    rw [IsWritable, Descriptor.isField_iff, descriptor, elementDescriptor, hp, String.toList_ofList]
    simp only [hvoid, if_false]
    rw [← List.append_assoc]
    refine .name ty.dims ?_ (not_mem_slashed (by decide) hsemicolon)
    simpa [Dotted.slashed, Text.replaceChar] using hname

/-- The innermost element of a type has a name that can stand in a descriptor. -/
structure IsNameable (ty : Ty) : Prop where
  nonempty : ty.name ≠ ""
  notVoid : ty.name ≠ "void"
  noSemicolon : ';' ∉ ty.name.toList

theorem IsNameable.isWritable {ty : Ty} (h : ty.IsNameable) : ty.IsWritable :=
  isWritable_of_not_mem h.nonempty h.noSemicolon h.notVoid

end Ty

theorem toList_paramsDescriptor (params : List Ty) :
    (paramsDescriptor params).toList =
      '(' :: (params.flatMap fun ty => ty.descriptor.toList) ++ [')'] := by
  rw [paramsDescriptor]
  simp [String.toList_append, List.flatMap, Function.comp_def]

theorem toList_methodDescriptor (params : List Ty) (result : Ty) :
    (methodDescriptor params result).toList =
      '(' :: (params.flatMap fun ty => ty.descriptor.toList) ++
        ')' :: result.descriptor.toList := by
  rw [methodDescriptor, String.toList_append, toList_paramsDescriptor]
  simp

/-- The type is what a method can result in. -/
def Ty.IsResult (ty : Ty) : Prop := ty = .void ∨ ty.IsWritable

instance (ty : Ty) : Decidable ty.IsResult := inferInstanceAs (Decidable (_ ∨ _))

theorem isMethod_methodDescriptor {params : List Ty} {result : Ty}
    (hparams : ∀ ty ∈ params, ty.IsWritable) (hresult : result.IsResult) :
    Descriptor.isMethod (methodDescriptor params result).toList = true := by
  rw [toList_methodDescriptor, List.cons_append, Descriptor.isMethod]
  induction params with
  | nil =>
    refine Descriptor.isMethodTail_result (hresult.imp ?_ id)
    rintro rfl
    decide
  | cons ty params ih =>
    rw [List.flatMap_cons, List.append_assoc, Descriptor.isMethodTail_field
      ((hparams ty List.mem_cons_self).after _)]
    exact ih fun ty' hty' => hparams ty' (List.mem_cons_of_mem _ hty')

namespace Descriptor

/-- The texts that are recognised are those of the form, and the descriptors of types and methods
    are among them. -/
theorem recognises_forms :
    (∀ s : String, isField s.toList = true ↔ IsFieldForm s.toList) ∧
      (∀ s : String, isMethod s.toList = true ↔ IsMethodForm s.toList) ∧
      (∀ ty : Ty, ty.IsNameable → IsFieldForm ty.descriptor.toList) ∧
      ∀ (params : List Ty) (result : Ty), (∀ ty ∈ params, ty.IsNameable) →
        (result = .void ∨ result.IsNameable) →
          IsMethodForm (methodDescriptor params result).toList := by
  refine ⟨fun s => isField_iff, fun s => isMethod_iff_form,
    fun ty hty => isField_iff.1 hty.isWritable, fun params result hparams hresult => ?_⟩
  exact isMethod_iff_form.1 (isMethod_methodDescriptor (fun ty hty => (hparams ty hty).isWritable)
    (hresult.imp_right Ty.IsNameable.isWritable))

/-- A method of a number and of nested arrays. -/
theorem recognises_forms_nested :
    (Ty.int.IsNameable ∧ (⟨"acme.Item", 3⟩ : Ty).IsNameable) ∧
      IsFieldForm (⟨"acme.Item", 3⟩ : Ty).descriptor.toList ∧
      IsMethodForm (methodDescriptor [.int, ⟨"acme.Item", 3⟩] .void).toList := by
  have hint : Ty.int.IsNameable := ⟨by decide, by decide, by decide⟩
  have hitems : (⟨"acme.Item", 3⟩ : Ty).IsNameable := ⟨by decide, by decide, by decide⟩
  exact ⟨⟨hint, hitems⟩, recognises_forms.2.2.1 _ hitems,
    recognises_forms.2.2.2 _ _ (by simp [hint, hitems]) (.inl rfl)⟩

end Descriptor

end ComponentViews
