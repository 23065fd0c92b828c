import ComponentViews.Proofs.ClassFile.Instruction

/-!
# What is decoded

Whatever bytes code consists of, an instruction is decoded from the bytes that spell it, and
decoding goes on right behind them (`Instruction.spells_of_decode`). These bytes are the ones
that are written for the instruction; only what pads a switch is not looked at. So a listing
without a fault parts a code array into instructions, one after another, with nothing left over
(`Listing.isPartition_ofCode`).
-/

namespace ComponentViews

/-! ### Words -/

namespace Word

theorem bytes16_of16 (a b : UInt8) : bytes16 (of16 a b) = [a, b] := by
  have hbits : ∀ {x y : UInt8}, (∀ i < 8, x.toBitVec.getLsbD i = y.toBitVec.getLsbD i) → x = y :=
    fun h => UInt8.toBitVec_inj.1 (BitVec.eq_of_getLsbD_eq h)
  rw [bytes16, List.cons.injEq, List.cons.injEq]
  refine ⟨hbits fun i hi => ?_, hbits fun i hi => ?_, rfl⟩
  · simp [of16]
    grind
  · simp [of16]

theorem bytes32_of32 (a b c d : UInt8) : bytes32 (of32 a b c d) = [a, b, c, d] := by
  have hbits : ∀ {x y : UInt8}, (∀ i < 8, x.toBitVec.getLsbD i = y.toBitVec.getLsbD i) → x = y :=
    fun h => UInt8.toBitVec_inj.1 (BitVec.eq_of_getLsbD_eq h)
  simp only [bytes32, List.cons.injEq, and_true]
  refine ⟨hbits fun i hi => ?_, hbits fun i hi => ?_, hbits fun i hi => ?_, hbits fun i hi => ?_⟩
  · simp [of32]
    grind
  · simp [of32]
    grind
  · simp [of32]
    grind
  · simp [of32]

end Word

/-! ### Instructions -/

namespace Instruction

/-- The bytes that spell an instruction at an offset. -/
inductive Spells (pc : Nat) : List UInt8 → Instruction → Prop where
  | encoded (i : Instruction) : Spells pc (i.encode pc) i
  /-- A switch may be padded with any bytes. -/
  | padded {padding : List UInt8} (otherwise : Int32) (cases : List (Int32 × Int32)) :
      padding.length = switchPadding pc →
      Spells pc (Opcode.lookupswitch :: padding ++ Word.bytes32 otherwise.toUInt32 ++
        Word.bytes32 (UInt32.ofNat cases.length) ++
        cases.flatMap fun e => Word.bytes32 e.1.toUInt32 ++ Word.bytes32 e.2.toUInt32)
        (switch otherwise cases)

variable {pc : Nat} {bytes rest : List UInt8} {i : Instruction}

/-- What pads a switch does not change its length. -/
theorem Spells.length_eq (h : Spells pc bytes i) : bytes.length = i.size pc := by
  cases h with
  | encoded => exact length_encode pc i
  | padded otherwise cases hpadding =>
    rw [← length_encode, encode]
    simp [hpadding]

theorem eq_of_takeInt32? {n : Int32} (h : takeInt32? bytes = some (n, rest)) :
    bytes = Word.bytes32 n.toUInt32 ++ rest := by
  match bytes, h with
  | a :: b :: c :: d :: tail, rfl =>
    show a :: b :: c :: d :: tail = Word.bytes32 (Word.of32 a b c d) ++ tail
    rw [Word.bytes32_of32]
    rfl

theorem eq_of_takeCases? {n : Nat} {before cases : List (Int32 × Int32)}
    (h : takeCases? n before bytes = some (cases, rest)) :
    ∃ more, cases = before.reverse ++ more ∧ more.length = n ∧
      bytes = (more.flatMap fun e => Word.bytes32 e.1.toUInt32 ++ Word.bytes32 e.2.toUInt32) ++
        rest := by
  induction n generalizing before bytes with
  | zero =>
    cases h
    exact ⟨[], (List.append_nil _).symm, rfl, rfl⟩
  | succ n ih =>
    rw [takeCases?] at h
    split at h
    · cases h
    rename_i key afterKey hkey
    split at h
    · cases h
    rename_i offset afterOffset hoffset
    obtain ⟨more, hcases, hlength, hbytes⟩ := ih h
    refine ⟨(key, offset) :: more, by simp [hcases], by rw [List.length_cons, hlength], ?_⟩
    rw [eq_of_takeInt32? hkey, eq_of_takeInt32? hoffset, hbytes]
    simp

/-- A count that is not negative is written as itself. -/
theorem toUInt32_of_nonneg {count : Int32} (h : ¬ count < 0) :
    UInt32.ofNat count.toInt.toNat = count.toUInt32 := by
  have hint : count.toInt = if 2 * count.toBitVec.toNat < 2 ^ 32 then
      (count.toBitVec.toNat : Int) else count.toBitVec.toNat - (2 ^ 32 : Nat) :=
    BitVec.toInt_eq_toNat_cond count.toBitVec
  have hlt := count.toBitVec.isLt
  rw [Int32.lt_iff_toInt_lt, Int32.toInt_zero, Int.not_lt] at h
  have hnat : count.toInt.toNat = count.toBitVec.toNat := by
    split at hint <;> omega
  rw [hnat]
  exact UInt32.toNat_inj.1 (UInt32.toNat_ofNat_of_lt' hlt)

/-- The operands of a switch, behind what pads it. -/
theorem spells_of_takeSwitch? (h : takeSwitch? pc bytes = some (i, rest)) :
    i.isListed = true ∧ ∃ operands, bytes = operands ++ rest ∧
      Spells pc (Opcode.lookupswitch :: operands) i := by
  simp only [takeSwitch?, bind, Option.bind_eq_some_iff, Prod.exists] at h
  obtain ⟨otherwise, afterOtherwise, hotherwise, count, afterCount, hcount, h⟩ := h
  split at h
  · cases h
  rename_i hnonneg
  simp only [Option.bind_eq_some_iff, Prod.exists, pure, Option.some.injEq, Prod.mk.injEq] at h
  obtain ⟨cases, afterCases, hcases, rfl, rfl⟩ := h
  obtain ⟨more, heq, hlength, hbytes⟩ := eq_of_takeCases? hcases
  rw [List.reverse_nil, List.nil_append] at heq
  subst heq
  have hdrop := eq_of_takeInt32? hotherwise
  rw [eq_of_takeInt32? hcount, hbytes, ← toUInt32_of_nonneg hnonneg, ← hlength] at hdrop
  -- The operands are there, so that what pads them is too.
  have hpadding : (bytes.take (switchPadding pc)).length = switchPadding pc := by
    have hlength := congrArg List.length hdrop
    simp only [List.length_drop, List.length_append, Word.length_bytes32] at hlength
    rw [List.length_take]
    omega
  have hfew : cases.length < 2 ^ 31 := by
    have := count.toInt_lt
    omega
  refine ⟨decide_eq_true hfew, bytes.take (switchPadding pc) ++
    Word.bytes32 otherwise.toUInt32 ++ Word.bytes32 (UInt32.ofNat cases.length) ++
    cases.flatMap fun e => Word.bytes32 e.1.toUInt32 ++ Word.bytes32 e.2.toUInt32, ?_,
    .padded otherwise cases hpadding⟩
  refine (List.take_append_drop (switchPadding pc) bytes).symm.trans ?_
  rw [hdrop]
  simp only [List.append_assoc]

/-- The operands of a call of an interface method. -/
theorem spells_of_takeInterfaceCall (h : takeInterfaceCall pc bytes = .ok (i, rest)) :
    i.isListed = true ∧ ∃ operands, bytes = operands ++ rest ∧
      Spells pc (Opcode.invokeinterface :: operands) i := by
  unfold takeInterfaceCall at h
  split at h
  · rename_i a b slots tail
    split at h
    · cases h
    rename_i hslots
    cases h
    refine ⟨bne_iff_ne.2 hslots, [a, b, slots, 0], rfl, ?_⟩
    have hspells : Spells pc _ _ := .encoded (interfaceCall (Word.of16 a b) slots)
    rwa [encode, Word.bytes16_of16] at hspells
  · cases h
  · cases h

/-- The load or store after a `wide`. -/
theorem spells_of_takeWide (h : takeWide pc bytes = .ok (i, rest)) :
    i.isListed = true ∧ ∃ operands, bytes = operands ++ rest ∧
      Spells pc (Opcode.wide :: operands) i := by
  unfold takeWide at h
  split at h
  · cases h
  rename_i op operand
  split at h
  · cases h
  rename_i hlocal
  split at h
  · rename_i a b tail
    cases h
    refine ⟨by simpa [isListed] using hlocal, [op, a, b], rfl, ?_⟩
    have hspells : Spells pc _ _ := .encoded (wide op (Word.of16 a b))
    rwa [encode, Word.bytes16_of16] at hspells
  · cases h

/-- An instruction with a word behind its opcode. -/
theorem spells_of_takeWord {op : UInt8} {make : UInt16 → Instruction}
    (hlisted : ∀ w, (make w).isListed = true)
    (hencode : ∀ w, (make w).encode pc = op :: Word.bytes16 w)
    (h : takeWord pc make bytes = .ok (i, rest)) :
    i.isListed = true ∧ ∃ operands, bytes = operands ++ rest ∧ Spells pc (op :: operands) i := by
  match bytes, h with
  | a :: b :: rest, rfl =>
    refine ⟨hlisted _, [a, b], rfl, ?_⟩
    rw [← Word.bytes16_of16, ← hencode]
    exact .encoded _

/-- An instruction is decoded from the bytes that spell it. -/
theorem spells_of_decode {op : UInt8} (h : decode pc op bytes = .ok (i, rest)) :
    i.isListed = true ∧ ∃ operands, bytes = operands ++ rest ∧ Spells pc (op :: operands) i := by
  -- The decoder asks for the opcode in the order of these cases.
  rw [decode] at h
  split at h
  · rename_i hplain
    cases h
    exact ⟨hplain, [], rfl, .encoded (plain op)⟩
  rename_i hplain
  split at h
  · rename_i hbyte
    cases bytes with
    | nil => cases h
    | cons operand operands =>
      cases h
      exact ⟨by simp_all [isListed], [operand], rfl, .encoded (byte op operand)⟩
  rename_i hbyte
  split at h
  · exact spells_of_takeWord (fun w => by simp_all [isListed]) (fun w => rfl) h
  split at h
  · exact spells_of_takeWord (fun w => by simp_all [isListed]) (fun w => rfl) h
  split at h
  · rename_i hswitch
    split at h
    · rename_i found hfound
      cases h
      rw [beq_iff_eq.1 hswitch]
      exact spells_of_takeSwitch? hfound
    · cases h
  split at h
  · rename_i hcall
    rw [beq_iff_eq.1 hcall]
    exact spells_of_takeInterfaceCall h
  split at h
  · rename_i hwide
    rw [beq_iff_eq.1 hwide]
    exact spells_of_takeWide h
  · cases h

end Instruction

/-! ### Listings -/

namespace Listing

/-- Code that begins at an offset consists of instructions, each with its offset. -/
inductive IsPartition : Nat → List UInt8 → List (Nat × Instruction) → Prop where
  | nil {pc : Nat} : IsPartition pc [] []
  | cons {pc : Nat} {bytes rest : List UInt8} {i : Instruction} {is : List (Nat × Instruction)} :
      i.Spells pc bytes → i.isListed = true → IsPartition (pc + bytes.length) rest is →
      IsPartition pc (bytes ++ rest) ((pc, i) :: is)

theorem isPartition_of_continued {listed : List (Nat × Instruction)} {pc : Nat}
    {code : List UInt8} (hfault : (continued listed pc code).fault = none) :
    ∃ is, (continued listed pc code).instructions = listed.reverse ++ is ∧
      IsPartition pc code is := by
  fun_induction continued listed pc code with
  | case1 listed pc => exact ⟨[], (List.append_nil _).symm, .nil⟩
  | case2 => cases hfault
  | case3 listed pc op operands i rest hdecode _ ih =>
    obtain ⟨is, hinstructions, hpartition⟩ := ih hfault
    obtain ⟨hlisted, bytes, rfl, hspells⟩ := Instruction.spells_of_decode hdecode
    refine ⟨(pc, i) :: is, by simp [hinstructions], ?_⟩
    rw [← hspells.length_eq] at hpartition
    exact .cons hspells hlisted hpartition

/-- A code array that is listed to its end consists of the instructions listed. -/
theorem isPartition_ofCode {code : List UInt8} (hfault : (ofCode code).fault = none) :
    IsPartition 0 code (ofCode code).instructions := by
  obtain ⟨is, hinstructions, hpartition⟩ := isPartition_of_continued hfault
  rwa [ofCode, hinstructions]

theorem IsPartition.isListed {pc : Nat} {code : List UInt8} {is : List (Nat × Instruction)}
    (h : IsPartition pc code is) : ∀ e ∈ is, e.2.isListed = true := by
  induction h with
  | nil => exact fun e he => absurd he List.not_mem_nil
  | cons _ hlisted _ ih => exact List.forall_mem_cons.2 ⟨hlisted, ih⟩

end Listing

end ComponentViews
