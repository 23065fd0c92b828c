import ComponentViews.ClassFile.Listing
import ComponentViews.Proofs.ClassFile.Reading

/-!
# Decoding undoes encoding

An instruction whose opcode has the shape of its operands, and is known to the decoder, is
*listed*: it is decoded from its bytes wherever it stands (`decode_encode`). So the listing
of a code array that consists of listed instructions holds these, each at its offset
(`Listing.ofCode_encodeAll`).
-/

namespace ComponentViews

namespace Instruction

/-- Whether the decoder knows the instruction by its bytes. -/
def isListed : Instruction → Bool
  | plain op => Opcode.isPlain op || Opcode.isShortLocal op
  | byte op _ =>
    !(Opcode.isPlain op || Opcode.isShortLocal op) &&
      (op == Opcode.bipush || op == Opcode.ldc || Opcode.isLocal op)
  | word op _ =>
    !(Opcode.isPlain op || Opcode.isShortLocal op) &&
      !(op == Opcode.bipush || op == Opcode.ldc || Opcode.isLocal op) &&
        (op == Opcode.sipush || Opcode.isPoolAccess op)
  | jump op _ =>
    !(Opcode.isPlain op || Opcode.isShortLocal op) &&
      !(op == Opcode.bipush || op == Opcode.ldc || Opcode.isLocal op) &&
        !(op == Opcode.sipush || Opcode.isPoolAccess op) && Opcode.isJump op
  | wide op _ => Opcode.isLocal op
  | interfaceCall _ slots => slots != 0
  | switch _ cases => decide (cases.length < 2 ^ 31)

theorem length_encode (pc : Nat) (i : Instruction) : (i.encode pc).length = i.size pc := by
  cases i with
  | switch otherwise cases =>
    have hcases : (cases.flatMap fun e => Word.bytes32 e.1.toUInt32 ++
        Word.bytes32 e.2.toUInt32).length = 8 * cases.length := by
      induction cases with
      | nil => rfl
      | cons e cases ih =>
        rw [List.flatMap_cons, List.length_append, ih, List.length_append,
          Word.length_bytes32, Word.length_bytes32, List.length_cons]
        omega
    simp only [encode, size, List.length_cons, List.length_append, List.length_replicate,
      Word.length_bytes32, hcases]
    omega
  | _ => rfl

/-! ### Switches -/

theorem takeInt32?_bytes32 (n : Int32) (rest : List UInt8) :
    takeInt32? (Word.bytes32 n.toUInt32 ++ rest) = some (n, rest) := by
  rw [Word.bytes32, List.cons_append, List.cons_append, List.cons_append, List.singleton_append,
    takeInt32?, Word.of32_bytes32]
  rfl

theorem takeCases?_encode (cases before : List (Int32 × Int32)) (rest : List UInt8) :
    takeCases? cases.length before
      ((cases.flatMap fun e => Word.bytes32 e.1.toUInt32 ++ Word.bytes32 e.2.toUInt32) ++ rest) =
      some (before.reverse ++ cases, rest) := by
  induction cases generalizing before with
  | nil => simp [takeCases?]
  | cons e cases ih =>
    rw [List.length_cons, takeCases?, List.flatMap_cons, List.append_assoc, List.append_assoc,
      takeInt32?_bytes32]
    simp only
    rw [takeInt32?_bytes32]
    simp only
    rw [ih]
    simp

theorem takeSwitch?_encode {cases : List (Int32 × Int32)} (hcases : cases.length < 2 ^ 31)
    (pc : Nat) (otherwise : Int32) (rest : List UInt8) :
    takeSwitch? pc (List.replicate (switchPadding pc) 0 ++
      Word.bytes32 otherwise.toUInt32 ++ Word.bytes32 (UInt32.ofNat cases.length) ++
      (cases.flatMap fun e => Word.bytes32 e.1.toUInt32 ++ Word.bytes32 e.2.toUInt32) ++ rest) =
      some (switch otherwise cases, rest) := by
  have hcount : (UInt32.ofNat cases.length).toInt32.toInt = cases.length := by
    have hlt : cases.length < 2 ^ 32 := by omega
    have htoNat : (UInt32.ofNat cases.length).toBitVec.toNat = cases.length :=
      UInt32.toNat_ofNat_of_lt' hlt
    show (UInt32.ofNat cases.length).toBitVec.toInt = cases.length
    rw [BitVec.toInt_eq_toNat_of_lt (by rw [htoNat]; omega), htoNat]
  have hword : UInt32.ofNat cases.length = (UInt32.ofNat cases.length).toInt32.toUInt32 := rfl
  rw [takeSwitch?, hword]
  simp only [List.append_assoc]
  rw [List.drop_left' List.length_replicate, takeInt32?_bytes32]
  simp only [bind, Option.bind]
  rw [takeInt32?_bytes32]
  have hneg : ¬ (UInt32.ofNat cases.length).toInt32 < 0 := by
    rw [Int32.lt_iff_toInt_lt, hcount]
    simp
  simp only [hneg, if_false, hcount, Int.toNat_natCast, takeCases?_encode, List.reverse_nil,
    List.nil_append]
  rfl

/-- A listed instruction is told from its bytes, whatever comes behind them. -/
theorem decode_encode {i : Instruction} (hi : i.isListed = true) (pc : Nat) :
    ∃ op operands, i.encode pc = op :: operands ∧
      ∀ rest, decode pc op (operands ++ rest) = .ok (i, rest) := by
  -- Each form of an instruction has opcodes of its own, which the decoder asks for in turn.
  cases i with
  | plain op =>
    rw [isListed] at hi
    refine ⟨op, [], rfl, fun rest => ?_⟩
    rw [decode, if_pos hi]
    rfl
  | byte op n =>
    simp only [isListed, Bool.and_eq_true, Bool.not_eq_true'] at hi
    refine ⟨op, [n], rfl, fun rest => ?_⟩
    rw [decode, if_neg (by simp [hi.1]), if_pos hi.2]
    rfl
  | word op n =>
    simp only [isListed, Bool.and_eq_true, Bool.not_eq_true'] at hi
    refine ⟨op, _, rfl, fun rest => ?_⟩
    rw [decode, if_neg (by simp [hi.1.1]), if_neg (by simp [hi.1.2]), if_pos hi.2,
      Word.bytes16, List.cons_append, List.singleton_append, takeWord, Word.of16_bytes16]
  | jump op n =>
    simp only [isListed, Bool.and_eq_true, Bool.not_eq_true'] at hi
    refine ⟨op, _, rfl, fun rest => ?_⟩
    rw [decode, if_neg (by simp [hi.1.1.1]), if_neg (by simp [hi.1.1.2]),
      if_neg (by simp [hi.1.2]), if_pos hi.2, Word.bytes16, List.cons_append,
      List.singleton_append, takeWord, Word.of16_bytes16]
    rfl
  | wide op slot =>
    refine ⟨Opcode.wide, _, rfl, fun rest => ?_⟩
    simp only [isListed] at hi
    rw [decode, if_neg (by decide), if_neg (by decide), if_neg (by decide), if_neg (by decide),
      if_neg (by decide), if_neg (by decide), if_pos (by decide)]
    simp only [Word.bytes16, List.cons_append, List.nil_append, takeWide, hi, Bool.not_true,
      Bool.false_eq_true, if_false, Word.of16_bytes16]
  | interfaceCall index slots =>
    refine ⟨Opcode.invokeinterface, Word.bytes16 index ++ [slots, 0], rfl, fun rest => ?_⟩
    simp only [isListed, bne_iff_ne] at hi
    rw [decode, if_neg (by decide), if_neg (by decide), if_neg (by decide), if_neg (by decide),
      if_neg (by decide), if_pos (by decide)]
    simp only [Word.bytes16, List.cons_append, List.nil_append, takeInterfaceCall, hi, if_false,
      Word.of16_bytes16]
  | switch otherwise cases =>
    simp only [isListed, decide_eq_true_eq] at hi
    refine ⟨Opcode.lookupswitch, List.replicate (switchPadding pc) 0 ++
      Word.bytes32 otherwise.toUInt32 ++ Word.bytes32 (UInt32.ofNat cases.length) ++
      cases.flatMap fun e => Word.bytes32 e.1.toUInt32 ++ Word.bytes32 e.2.toUInt32, rfl,
      fun rest => ?_⟩
    rw [decode, if_neg (by decide), if_neg (by decide), if_neg (by decide), if_neg (by decide),
      if_pos (by decide), takeSwitch?_encode hi]

end Instruction

namespace Listing

/-- The bytes of instructions, the first of which stands at `pc`. -/
def encodeAll (pc : Nat) : List Instruction → List UInt8
  | [] => []
  | i :: rest => i.encode pc ++ encodeAll (pc + i.size pc) rest

/-- The instructions with their offsets. -/
def located (pc : Nat) : List Instruction → List (Nat × Instruction)
  | [] => []
  | i :: rest => (pc, i) :: located (pc + i.size pc) rest

theorem continued_encodeAll {is : List Instruction} (his : ∀ i ∈ is, i.isListed = true)
    (before : List (Nat × Instruction)) (pc : Nat) :
    continued before pc (encodeAll pc is) = ⟨before.reverse ++ located pc is, none⟩ := by
  induction is generalizing before pc with
  | nil => simp [encodeAll, located, continued]
  | cons i is ih =>
    obtain ⟨op, operands, hencode, hdecode⟩ :=
      Instruction.decode_encode (his i List.mem_cons_self) pc
    rw [encodeAll, hencode, List.cons_append, continued]
    split
    · rename_i fault h
      rw [hdecode] at h
      cases h
    · rename_i j rest h
      rw [hdecode, Except.ok.injEq, Prod.mk.injEq] at h
      obtain ⟨rfl, rfl⟩ := h
      rw [ih (fun k hk => his k (List.mem_cons_of_mem _ hk)), located]
      simp

/-- Code of listed instructions is listed as it was put together. -/
theorem ofCode_encodeAll {is : List Instruction} (his : ∀ i ∈ is, i.isListed = true) :
    ofCode (encodeAll 0 is) = ⟨located 0 is, none⟩ :=
  continued_encodeAll his [] 0

end Listing

end ComponentViews
