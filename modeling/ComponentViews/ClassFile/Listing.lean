import ComponentViews.ClassFile.Instruction

/-!
# Listings

The listing of a code array holds its instructions one after another with their
offsets, as far as they can be told.
-/

namespace ComponentViews

/-- The instructions of a code array. -/
structure Listing where
  /-- The instructions with their offsets, in order. -/
  instructions : List (Nat × Instruction)
  /-- Why there are no more, if that is not the end of the code. -/
  fault : Option Instruction.Fault

namespace Instruction

theorem length_le_of_takeCases? {n : Nat} {acc cases : List (Int32 × Int32)}
    {bytes rest : List UInt8} (h : takeCases? n acc bytes = some (cases, rest)) :
    rest.length ≤ bytes.length := by
  induction n generalizing acc bytes with
  | zero => simp_all [takeCases?]
  | succ n ih =>
    match bytes with
    | a :: b :: c :: d :: e :: f :: g :: i :: tail =>
      simp only [takeCases?, takeInt32?] at h
      have := ih h
      simp only [List.length_cons]
      omega
    | [] | [_] | [_, _] | [_, _, _] => simp [takeCases?, takeInt32?] at h
    | [_, _, _, _] | [_, _, _, _, _] | [_, _, _, _, _, _] | [_, _, _, _, _, _, _] =>
      simp [takeCases?, takeInt32?] at h

theorem length_le_of_takeInt32? {bytes rest : List UInt8} {n : Int32}
    (h : takeInt32? bytes = some (n, rest)) : rest.length ≤ bytes.length := by
  match bytes with
  | a :: b :: c :: d :: tail =>
    simp only [takeInt32?, Option.some.injEq, Prod.mk.injEq] at h
    simp only [List.length_cons, ← h.2]
    omega
  | [] | [_] | [_, _] | [_, _, _] => simp [takeInt32?] at h

theorem length_le_of_takeSwitch? {pc : Nat} {bytes rest : List UInt8} {i : Instruction}
    (h : takeSwitch? pc bytes = some (i, rest)) : rest.length ≤ bytes.length := by
  simp only [takeSwitch?, bind, Option.bind_eq_some_iff, Prod.exists] at h
  obtain ⟨_, _, h₁, _, _, h₂, h⟩ := h
  have h₁ := length_le_of_takeInt32? h₁
  have h₂ := length_le_of_takeInt32? h₂
  split at h
  · simp at h
  · simp only [Option.bind_eq_some_iff, Prod.exists, pure, Option.some.injEq,
      Prod.mk.injEq] at h
    obtain ⟨_, _, h₃, _, rfl⟩ := h
    have h₃ := length_le_of_takeCases? h₃
    simp only [List.length_drop] at h₁
    omega

/-- Decoding goes on behind the operands. -/
theorem length_le_of_decode {pc : Nat} {op : UInt8} {bytes rest : List UInt8}
    {i : Instruction} (h : decode pc op bytes = .ok (i, rest)) :
    rest.length ≤ bytes.length := by
  simp only [decode, takeByte, takeWord, takeInterfaceCall, takeWide] at h
  split at h
  · simp_all
  split at h
  · split at h <;> simp_all
  split at h
  · split at h <;> simp_all
    omega
  split at h
  · split at h <;> simp_all
    omega
  split at h
  · split at h
    · next found => simp_all; exact length_le_of_takeSwitch? found
    · simp at h
  split at h
  · split at h
    · split at h <;> simp_all
      omega
    · simp at h
    · simp at h
  split at h
  · split at h
    · simp at h
    · split at h
      · simp at h
      · split at h <;> simp_all
        omega
  · simp at h

end Instruction

namespace Listing

/-- The listing of what is left of a code array from `pc` on, after the instructions in
    `listed`, which are reversed. -/
def continued (listed : List (Nat × Instruction)) (pc : Nat) : List UInt8 → Listing
  | [] => ⟨listed.reverse, none⟩
  | op :: operands =>
    match h : Instruction.decode pc op operands with
    | .error fault => ⟨listed.reverse, some fault⟩
    | .ok (i, rest) =>
      have := Instruction.length_le_of_decode h
      continued ((pc, i) :: listed) (pc + i.size pc) rest
termination_by bytes => bytes.length

/-- The listing of a code array. -/
def ofCode (code : List UInt8) : Listing := continued [] 0 code

end Listing

end ComponentViews
