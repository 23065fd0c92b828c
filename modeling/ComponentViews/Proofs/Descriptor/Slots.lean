import ComponentViews.Proofs.Descriptor

/-!
# Slots by descriptors

A descriptor tells how many slots a value takes (`Descriptor.slots`), and that of a method how
many its arguments and its result take (`Descriptor.methodSlots?`). It is read as a machine
reads it: the name of a class ends at the first semicolon. Where no name has a semicolon of its
own, the descriptor of a method tells the slots of its types
(`Descriptor.methodSlots?_methodDescriptor`).
-/

namespace ComponentViews

namespace Descriptor

/-- The slots of a value whose descriptor begins with a letter. -/
def letterSlots (c : Char) : Nat :=
  if c = 'J' ∨ c = 'D' then 2 else if c = 'V' then 0 else 1

/-- The slots of a value by its descriptor. -/
def slots : List Char → Nat
  | [] => 0
  | c :: _ => letterSlots c

mutual

/-- The slots of arguments, and what follows the parenthesis behind them; `n` are those of the
    arguments before. -/
def readArgs (n : Nat) : List Char → Nat × List Char
  | [] => (n, [])
  | c :: rest =>
    if c = ')' then (n, rest)
    else if c = 'L' then readName (n + 1) rest
    else if c = '[' then readItem (n + 1) rest
    else readArgs (n + letterSlots c) rest

/-- Goes on behind the name of a class. -/
def readName (n : Nat) : List Char → Nat × List Char
  | [] => (n, [])
  | c :: rest => if c = ';' then readArgs n rest else readName n rest

/-- Goes on behind the type of the items of an array. -/
def readItem (n : Nat) : List Char → Nat × List Char
  | [] => (n, [])
  | c :: rest =>
    if c = '[' then readItem n rest
    else if c = 'L' then readName n rest
    else readArgs n rest

end

/-- The slots of the arguments and of the result of a method by its descriptor. -/
def methodSlots? : List Char → Option (Nat × Nat)
  | '(' :: rest => some ((readArgs 0 rest).1, slots (readArgs 0 rest).2)
  | _ => none

end Descriptor

namespace Ty

theorem letterSlots_letter (p : Primitive) : Descriptor.letterSlots p.letter = p.slots := by
  cases p <;> decide

/-- A type without dimensions is told by its name. -/
theorem slots_named (name : String) :
    (named name).slots = Descriptor.slots (elementDescriptor name) := by
  by_cases hvoid : name = "void"
  · subst hvoid
    decide
  · have hname : (named name).isVoid = false := by simp [isVoid, named, hvoid]
    rw [slots, hname, if_neg Bool.false_ne_true, elementDescriptor, if_neg hvoid,
      show (named name).primitive? = Primitive.ofName? name from rfl]
    cases Primitive.ofName? name with
    | some p => exact (letterSlots_letter p).symm
    | none => rfl

theorem slots_descriptor (ty : Ty) : Descriptor.slots ty.descriptor.toList = ty.slots := by
  obtain ⟨name, dims⟩ := ty
  rw [descriptor, String.toList_ofList]
  cases dims with
  | zero => exact (slots_named name).symm
  | succ dims =>
    simp [slots, isVoid, primitive?, List.replicate_succ, Descriptor.slots, Descriptor.letterSlots]

end Ty

namespace Descriptor

theorem readName_of_not_mem {name : List Char} (h : ';' ∉ name) (n : Nat) (rest : List Char) :
    readName n (name ++ ';' :: rest) = readArgs n rest := by
  induction name with
  | nil => rw [List.nil_append, readName, if_pos rfl]
  | cons c name ih =>
    rw [List.mem_cons, not_or] at h
    rw [List.cons_append, readName, if_neg (Ne.symm h.1), ih h.2]

theorem readItem_descriptor {name : String} (h : ';' ∉ name.toList) (n dims : Nat)
    (rest : List Char) :
    readItem n (List.replicate dims '[' ++ (Ty.elementDescriptor name ++ rest)) =
      readArgs n rest := by
  induction dims with
  | zero =>
    rw [List.replicate_zero, List.nil_append, Ty.elementDescriptor]
    split
    · rename_i p _
      cases p <;> simp [readItem, Primitive.letter]
    · split
      · simp [readItem]
      · simp [readItem, readName_of_not_mem (not_mem_slashed (by decide) h)]
  | succ dims ih => rw [List.replicate_succ, List.cons_append, readItem, if_pos rfl, ih]

/-- An argument is read from the descriptor of its type. -/
theorem readArgs_descriptor {ty : Ty} (h : ';' ∉ ty.name.toList) (n : Nat) (rest : List Char) :
    readArgs n (ty.descriptor.toList ++ rest) = readArgs (n + ty.slots) rest := by
  obtain ⟨name, dims⟩ := ty
  rw [Ty.descriptor, String.toList_ofList, List.append_assoc]
  cases dims with
  | zero =>
    rw [show (⟨name, 0⟩ : Ty).slots = _ from Ty.slots_named name, List.replicate_zero,
      List.nil_append, Ty.elementDescriptor]
    split
    · rename_i p _
      cases p <;> simp [readArgs, Primitive.letter, slots]
    · split
      · simp [readArgs, slots]
      · simp [readArgs, slots, letterSlots, readName_of_not_mem (not_mem_slashed (by decide) h)]
  | succ dims =>
    have hslots : (⟨name, dims + 1⟩ : Ty).slots = 1 := by simp [Ty.slots, Ty.isVoid, Ty.primitive?]
    rw [hslots, List.replicate_succ, List.cons_append, readArgs, if_neg (by decide),
      if_neg (by decide), if_pos rfl, readItem_descriptor h]

theorem readArgs_params {params : List Ty} (h : ∀ ty ∈ params, ';' ∉ ty.name.toList) (n : Nat)
    (result : List Char) :
    readArgs n ((params.flatMap fun ty => ty.descriptor.toList) ++ ')' :: result) =
      (n + slotsOf params, result) := by
  induction params generalizing n with
  | nil => rw [List.flatMap_nil, List.nil_append, readArgs, if_pos rfl]; rfl
  | cons ty params ih =>
    rw [List.flatMap_cons, List.append_assoc, readArgs_descriptor (h ty List.mem_cons_self),
      ih fun ty' hty' => h ty' (List.mem_cons_of_mem _ hty'), slotsOf, Nat.add_assoc]

/-- A method is read from its descriptor. -/
theorem methodSlots?_methodDescriptor {params : List Ty} (result : Ty)
    (h : ∀ ty ∈ params, ';' ∉ ty.name.toList) :
    methodSlots? (methodDescriptor params result).toList =
      some (slotsOf params, result.slots) := by
  rw [toList_methodDescriptor, List.cons_append, methodSlots?, readArgs_params h, Nat.zero_add,
    Ty.slots_descriptor]

end Descriptor

end ComponentViews
