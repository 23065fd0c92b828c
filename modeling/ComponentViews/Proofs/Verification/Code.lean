import ComponentViews.Proofs.Checks
import ComponentViews.Proofs.ClassFile.Decoding
import ComponentViews.Proofs.ClassFile.Pool
import ComponentViews.Proofs.ClassFile.Reading
import ComponentViews.Proofs.Descriptor
import ComponentViews.Verification.Basic

/-!
# Verified code

Verification reads arbitrary bytes. What it accepts is *well-formed code*
(`CodeAttribute.IsFormed`), whatever the bytes: instructions one after another up to the end, of
which the last does not let control go on, jumps and exception tables that keep to the offsets
of these instructions, operands that name entries of the right kind, and returns that fit the
method. `ClassFile.isFormed_ofVerifiedBytes` says so of every method of a class file.

Each of these is said here by the instructions and descriptors themselves: `Instruction.Names`
tells which entries an instruction names, `Instruction.Ends` behind which control does not go
on, and `Opcode.Returns` which return goes with a result.
-/

namespace ComponentViews

/-! ### Returns -/

namespace Opcode

/-- The return for a result, by the descriptor of the result. -/
inductive Returns : List Char → UInt8 → Prop where
  | void : Returns ['V'] vreturn
  | long : Returns ['J'] lreturn
  | float : Returns ['F'] freturn
  | double : Returns ['D'] dreturn
  | int {c : Char} : c ∈ ['B', 'C', 'I', 'S', 'Z'] → Returns [c] ireturn
  | object (name : List Char) : Returns ('L' :: name) areturn
  | array (item : List Char) : Returns ('[' :: item) areturn

theorem isPlain_of_isReturn {op : UInt8} (h : isReturn op = true) : isPlain op = true := by
  rw [isPlain, h, Bool.or_true]

theorem isReturn_eq_false_of_isLocal {op : UInt8} (h : isLocal op = true) :
    isReturn op = false := by
  simp only [isLocal, iload, aload, istore, astore, Bool.or_eq_true, Bool.and_eq_true,
    decide_eq_true_eq, UInt8.le_iff_toNat_le, UInt8.reduceToNat] at h
  simp only [isReturn, ireturn, vreturn, Bool.and_eq_false_iff, decide_eq_false_iff_not,
    UInt8.le_iff_toNat_le, UInt8.reduceToNat]
  omega

end Opcode

namespace CodeAttribute

variable {descriptor : String} {params : List (List Char)} {result : List Char}

/-- The result of a method is what follows the last parenthesis, where its own descriptor has
    none. -/
theorem takeWhile_result (h : Descriptor.IsMethodOf params result descriptor.toList)
    (hresult : ')' ∉ result) :
    descriptor.toList.reverse.takeWhile (· ≠ ')') = result.reverse := by
  rw [h.spelled, List.reverse_append, List.reverse_cons, List.append_assoc,
    List.takeWhile_append_of_pos]
  · simp
  · intro c hc
    rw [decide_eq_true_eq]
    rintro rfl
    exact hresult (List.mem_reverse.1 hc)

theorem returns_returnFor (h : Descriptor.IsMethodOf params result descriptor.toList)
    (hresult : ')' ∉ result) : Opcode.Returns result (returnFor descriptor) := by
  rw [returnFor, takeWhile_result h hresult, List.getLast?_reverse]
  rcases h.result with rfl | hfield
  · exact .void
  rw [Descriptor.isField, beq_iff_eq] at hfield
  unfold Descriptor.afterField? at hfield
  split at hfield
  · exact .array _
  · exact .object _
  · rename_i c rest _ _
    split at hfield
    · rename_i hc
      cases hfield
      simp only [Descriptor.letters, List.mem_cons, List.not_mem_nil, or_false] at hc
      -- The eight letters of primitive types.
      rcases hc with rfl | rfl | rfl | rfl | rfl | rfl | rfl | rfl
      · exact .int (by decide)
      · exact .int (by decide)
      · exact .double
      · exact .float
      · exact .int (by decide)
      · exact .long
      · exact .int (by decide)
      · exact .int (by decide)
    · cases hfield
  · cases hfield

end CodeAttribute

/-! ### Instructions -/

namespace Instruction

/-- An instruction names an entry of the constant pool, which must be of a kind. -/
inductive Names : Instruction → UInt16 → (Constant → Bool) → Prop where
  | ldc (index : UInt8) : Names (byte Opcode.ldc index) index.toUInt16 Constant.isLoadable
  | ldcW (index : UInt16) : Names (word Opcode.ldcW index) index Constant.isLoadable
  | ldc2W (index : UInt16) : Names (word Opcode.ldc2W index) index Constant.isWide
  | field {op : UInt8} (index : UInt16) :
      op ∈ [Opcode.getstatic, Opcode.getfield, Opcode.putfield] →
      Names (word op index) index Constant.isFieldRef
  | method {op : UInt8} (index : UInt16) :
      op ∈ [Opcode.invokevirtual, Opcode.invokespecial, Opcode.invokestatic] →
      Names (word op index) index Constant.isMethodRef
  | interfaceMethod (index : UInt16) (slots : UInt8) :
      Names (interfaceCall index slots) index Constant.isInterfaceMethodRef
  | classRef {op : UInt8} (index : UInt16) :
      op ∈ [Opcode.new, Opcode.anewarray, Opcode.checkcast, Opcode.instanceof] →
      Names (word op index) index Constant.isClass

/-- Control does not go on behind an instruction. -/
inductive Ends : Instruction → Prop where
  | goto (offset : Int16) : Ends (jump Opcode.goto offset)
  | switch (otherwise : Int32) (cases : List (Int32 × Int32)) : Ends (switch otherwise cases)
  | throw : Ends (plain Opcode.athrow)
  | ret {op : UInt8} : Opcode.isReturn op = true → Ends (plain op)

variable {i : Instruction} {index : UInt16} {isKind : Constant → Bool}

theorem Names.constant?_eq (h : i.Names index isKind) : i.constant? = some (index, isKind) := by
  cases h with
  | ldc | ldcW | ldc2W | interfaceMethod => rfl
  | field _ hop | method _ hop =>
    simp only [List.mem_cons, List.not_mem_nil, or_false] at hop
    rcases hop with rfl | rfl | rfl <;> rfl
  | classRef _ hop =>
    simp only [List.mem_cons, List.not_mem_nil, or_false] at hop
    rcases hop with rfl | rfl | rfl | rfl <;> rfl

/-- No load or store ends the flow of control. -/
theorem isTerminal_eq_false_of_isLocal {op : UInt8} (h : Opcode.isLocal op = true) :
    Opcode.isTerminal op = false := by
  have hne : ∀ {x : UInt8}, Opcode.isLocal x = false → op ≠ x := by
    rintro x hx rfl
    rw [hx] at h
    cases h
  simp only [Opcode.isTerminal, Bool.or_eq_false_iff, beq_eq_false_iff_ne]
  exact ⟨⟨⟨hne (by decide), hne (by decide)⟩, hne (by decide)⟩,
    Opcode.isReturn_eq_false_of_isLocal h⟩

theorem ends_of_isTerminal (hlisted : i.isListed = true)
    (h : Opcode.isTerminal i.opcode = true) : i.Ends := by
  have hcases : ∀ {op : UInt8}, Opcode.isTerminal op = true →
      op = Opcode.goto ∨ op = Opcode.lookupswitch ∨ op = Opcode.athrow ∨
        Opcode.isReturn op = true := by
    intro op hop
    simpa only [Opcode.isTerminal, Bool.or_eq_true, beq_iff_eq, or_assoc] using hop
  -- Returns take no operands.
  have hreturn : ∀ {op : UInt8}, (Opcode.isPlain op || Opcode.isShortLocal op) = false →
      Opcode.isReturn op ≠ true := by
    intro op hop hret
    rw [Opcode.isPlain_of_isReturn hret] at hop
    cases hop
  cases i with
  | plain op =>
    rcases hcases h with rfl | rfl | rfl | hret
    · cases hlisted
    · cases hlisted
    · exact .throw
    · exact .ret hret
  | byte op operand =>
    simp only [isListed, Bool.and_eq_true, Bool.not_eq_true'] at hlisted
    rcases hcases h with rfl | rfl | rfl | hret
    · exact absurd hlisted.2 (by decide)
    · exact absurd hlisted.2 (by decide)
    · exact absurd hlisted.2 (by decide)
    · exact absurd hret (hreturn hlisted.1)
  | word op operand =>
    simp only [isListed, Bool.and_eq_true, Bool.not_eq_true'] at hlisted
    rcases hcases h with rfl | rfl | rfl | hret
    · exact absurd hlisted.2 (by decide)
    · exact absurd hlisted.2 (by decide)
    · exact absurd hlisted.2 (by decide)
    · exact absurd hret (hreturn hlisted.1.1)
  | jump op offset =>
    simp only [isListed, Bool.and_eq_true, Bool.not_eq_true'] at hlisted
    rcases hcases h with rfl | rfl | rfl | hret
    · exact .goto offset
    · exact absurd hlisted.2 (by decide)
    · exact absurd hlisted.2 (by decide)
    · exact absurd hret (hreturn hlisted.1.1.1)
  | wide op slot =>
    rw [opcode, isTerminal_eq_false_of_isLocal hlisted] at h
    cases h
  | interfaceCall => cases h
  | switch otherwise cases => exact .switch otherwise cases

end Instruction

/-! ### Code -/

namespace CodeAttribute

/-- The entries of an exception table keep to the instructions of a code array. -/
structure IsFormedEntry (size : Nat) (p : Pool) (offsets : List Nat) (e : ExceptionEntry) :
    Prop where
  start : e.start.toNat ∈ offsets
  nonempty : e.start < e.stop
  stop : e.stop.toNat ≠ size → e.stop.toNat ∈ offsets
  handler : e.handler.toNat ∈ offsets
  catchType : e.catchType ≠ 0 → ∃ name, p.get? e.catchType = some (.classRef name)

/-- Code consists of the given instructions, in a method with the given descriptor. -/
structure IsFormed (code : CodeAttribute) (p : Pool) (descriptor : String)
    (is : List (Nat × Instruction)) : Prop where
  /-- The instructions make up the code, and are what is decoded of it. -/
  partition : Listing.IsPartition 0 code.code is
  decoded : Listing.ofCode code.code = ⟨is, none⟩
  jumps : ∀ pc i, (pc, i) ∈ is → ∀ target ∈ i.targets pc,
    ∃ start : Nat, start ∈ is.map (·.1) ∧ target = start
  table : ∀ e ∈ code.table, IsFormedEntry code.code.length p (is.map (·.1)) e
  constants : ∀ pc i, (pc, i) ∈ is → ∀ index isKind, i.Names index isKind →
    ∃ k, p.get? index = some k ∧ isKind k = true
  /-- The result is what the descriptor says, if it is a descriptor of methods at all, and if
      no class in it has a parenthesis in its name. -/
  returns : ∀ params result, Descriptor.IsMethodOf params result descriptor.toList →
    (∀ d ∈ result :: params, ')' ∉ d) →
      ∀ pc i, (pc, i) ∈ is → Opcode.isReturn i.opcode = true → Opcode.Returns result i.opcode
  ends : ∃ pc i, is.getLast? = some (pc, i) ∧ i.Ends

variable {code : CodeAttribute} {p : Pool} {descriptor : String} {starts : Std.HashSet Nat}
  {offsets : List Nat}

theorem verifyJumps_eq_ok_iff (hstarts : ∀ n, starts.contains n = true ↔ n ∈ offsets) {pc : Nat}
    {targets : List Int} : verifyJumps starts pc targets = .ok () ↔
      ∀ target ∈ targets, ∃ start : Nat, start ∈ offsets ∧ target = start := by
  induction targets with
  | nil => simp [verifyJumps]
  | cons target rest ih =>
    rw [List.forall_mem_cons, ← ih, verifyJumps]
    have htarget : (∃ start : Nat, start ∈ offsets ∧ target = start) ↔
        ¬ (target < 0 ∨ (!starts.contains target.toNat) = true) := by
      rw [not_or, Bool.not_eq_true', Bool.not_eq_false, hstarts, Int.not_lt]
      constructor
      · rintro ⟨start, hstart, rfl⟩
        exact ⟨Int.natCast_nonneg start, hstart⟩
      · rintro ⟨hnonneg, hmem⟩
        exact ⟨target.toNat, hmem, (Int.toNat_of_nonneg hnonneg).symm⟩
    rw [htarget]
    split
    · rename_i hbad
      exact iff_of_false (fun h => by cases h) (fun h => h.1 hbad)
    · rename_i hgood
      exact ⟨fun h => ⟨hgood, h⟩, And.right⟩

theorem any_isClass_iff {k : Option Constant} :
    k.any Constant.isClass = true ↔ ∃ name, k = some (.classRef name) := by
  cases k with
  | none => simp
  | some k => cases k <;> simp [Constant.isClass]

theorem verifyTable_eq_ok_iff (hstarts : ∀ n, starts.contains n = true ↔ n ∈ offsets)
    {size n : Nat} {table : List ExceptionEntry} : verifyTable p starts size n table = .ok () ↔
      ∀ e ∈ table, IsFormedEntry size p offsets e := by
  induction table generalizing n with
  | nil => simp [verifyTable]
  | cons e rest ih =>
    rw [List.forall_mem_cons, ← ih (n := n + 1), verifyTable]
    -- The verifier looks at the range first and at the class that is caught then.
    have hentry : IsFormedEntry size p offsets e ↔
        (decide (e.start < e.stop) && starts.contains e.start.toNat &&
          (e.stop.toNat == size || starts.contains e.stop.toNat) &&
            starts.contains e.handler.toNat) = true ∧
          (e.catchType == 0 || (p.get? e.catchType).any Constant.isClass) = true := by
      simp only [Bool.and_eq_true, Bool.or_eq_true, decide_eq_true_eq, beq_iff_eq, hstarts,
        any_isClass_iff]
      exact ⟨fun h => ⟨⟨⟨⟨h.nonempty, h.start⟩, Classical.or_iff_not_imp_left.2 h.stop⟩, h.handler⟩,
          Classical.or_iff_not_imp_left.2 h.catchType⟩,
        fun ⟨⟨⟨⟨hnonempty, hstart⟩, hstop⟩, hhandler⟩, hcatch⟩ => ⟨hstart, hnonempty,
          Classical.or_iff_not_imp_left.1 hstop, hhandler, Classical.or_iff_not_imp_left.1 hcatch⟩⟩
    rw [hentry]
    split
    · rename_i hrange
      split
      · rename_i hcatch
        exact ⟨fun h => ⟨⟨hrange, hcatch⟩, h⟩, And.right⟩
      · rename_i hcatch
        exact iff_of_false (fun h => by cases h) (fun h => hcatch h.1.2)
    · rename_i hrange
      exact iff_of_false (fun h => by cases h) (fun h => hrange h.1.1)

/-- What code has to be like to be accepted. -/
theorem verify_eq_ok_iff : code.verify p descriptor = .ok () ↔
    (Listing.ofCode code.code).fault = none ∧
      (∀ e ∈ (Listing.ofCode code.code).instructions,
        verifyInstruction p code.maxLocals.toNat (returnFor descriptor) e.1 e.2 = .ok ()) ∧
      (∀ e ∈ (Listing.ofCode code.code).instructions, ∀ target ∈ e.2.targets e.1,
        ∃ start : Nat, start ∈ (Listing.ofCode code.code).instructions.map (·.1) ∧ target = start) ∧
      ((Listing.ofCode code.code).instructions.getLast?.any fun e =>
        Opcode.isTerminal e.2.opcode) = true ∧
      ∀ e ∈ code.table, IsFormedEntry code.code.length p
        ((Listing.ofCode code.code).instructions.map (·.1)) e := by
  have hstarts : ∀ n, (Std.HashSet.ofList
      ((Listing.ofCode code.code).instructions.map (·.1))).contains n = true ↔
        n ∈ (Listing.ofCode code.code).instructions.map (·.1) := by
    intro n
    rw [Std.HashSet.contains_ofList, List.contains_iff_mem]
  rw [verify, Except.bind_unit_eq_ok, Except.forM_eq_ok]
  cases hfault : (Listing.ofCode code.code).fault with
  | some fault => exact iff_of_false (fun h => by cases h.2) (fun h => by cases h.1)
  | none =>
    simp only [Except.bind_unit_eq_ok, Except.forM_eq_ok, true_and]
    refine and_congr_right fun _ => and_congr (forall₂_congr fun e _ =>
      verifyJumps_eq_ok_iff hstarts) ?_
    split
    · rename_i hlast
      rw [verifyTable_eq_ok_iff hstarts]
      exact ⟨fun h => ⟨hlast, h⟩, And.right⟩
    · rename_i hlast
      exact iff_of_false (fun h => by cases h) (fun h => hlast h.1)

/-- What the check of an instruction finds. -/
theorem verifyInstruction_eq_ok {maxLocals pc : Nat} {returnOp : UInt8} {i : Instruction}
    (h : verifyInstruction p maxLocals returnOp pc i = .ok ()) :
    (Opcode.isReturn i.opcode = true → i.opcode = returnOp) ∧
      ∀ index isKind, i.constant? = some (index, isKind) →
        ∃ k, p.get? index = some k ∧ isKind k = true := by
  rw [verifyInstruction] at h
  split at h
  · cases h
  rename_i hreturn
  refine ⟨fun hop => by_contra fun hne => hreturn ⟨hop, hne⟩, fun index isKind hconstant => ?_⟩
  rw [hconstant] at h
  simp only at h
  split at h
  · rename_i hany
    obtain ⟨k, hk, hkind⟩ := Option.any_eq_true _ _ |>.1 hany
    exact ⟨k, hk, hkind⟩
  · cases h

/-- Code that is accepted consists of instructions, and is well formed. -/
theorem isFormed_of_verify (h : code.verify p descriptor = .ok ()) :
    ∃ is, code.IsFormed p descriptor is := by
  obtain ⟨hfault, hinstructions, hjumps, hlast, htable⟩ := verify_eq_ok_iff.1 h
  have hpartition := Listing.isPartition_ofCode hfault
  refine ⟨_, {
    partition := hpartition
    decoded := by rw [← hfault]
    jumps := fun pc i hi => hjumps _ hi
    table := htable
    constants := fun pc i hi index isKind hnames =>
      (verifyInstruction_eq_ok (hinstructions _ hi)).2 index isKind hnames.constant?_eq
    returns := fun params result hmethod hnames pc i hi hreturn => ?_
    ends := ?_ }⟩
  · rw [(verifyInstruction_eq_ok (hinstructions _ hi)).1 hreturn]
    exact returns_returnFor hmethod (hnames result List.mem_cons_self)
  · obtain ⟨⟨pc, i⟩, hi, hterminal⟩ := Option.any_eq_true _ _ |>.1 hlast
    exact ⟨pc, i, hi, Instruction.ends_of_isTerminal
      (hpartition.isListed _ (List.mem_of_getLast? hi)) hterminal⟩

end CodeAttribute

/-! ### Class files -/

namespace Member

variable {m : Member} {p : Pool}

theorem exists_utf8_of_expectKind {i : UInt16} (h : expectKind p i Constant.isUtf8 = .ok ()) :
    ∃ s, p.utf8? i = some s := by
  rw [expectKind] at h
  split at h
  · cases h
  rename_i k hk
  cases k with
  | utf8 s => exact ⟨s, Pool.utf8?_eq_some.2 hk⟩
  | _ => cases h

/-- What a method with code has to be like to be accepted. -/
theorem verify_eq_ok_iff {code : CodeAttribute} (hcode : m.code? p = some code) :
    m.verify p = .ok () ↔ expectKind p m.name Constant.isUtf8 = .ok () ∧
      expectKind p m.descriptor Constant.isUtf8 = .ok () ∧
      (∀ i ∈ m.declaredFailures p, expectKind p i Constant.isClass = .ok ()) ∧
      m.isBodiless = false ∧ code.verify p ((p.utf8? m.descriptor).getD "") = .ok () := by
  simp only [verify, Except.bind_unit_eq_ok, Except.forM_eq_ok, hcode]
  cases m.isBodiless with
  | true => exact iff_of_false (fun h => by cases h.2.2.2) (fun h => by cases h.2.2.2.1)
  | false => simp only [true_and]

/-- The code of an accepted method is accepted with the method's descriptor. -/
theorem verify_code {code : CodeAttribute} (h : m.verify p = .ok ())
    (hcode : m.code? p = some code) :
    ∃ descriptor, p.utf8? m.descriptor = some descriptor ∧ code.verify p descriptor = .ok () := by
  obtain ⟨-, hdescriptor, -, -, hverify⟩ := (verify_eq_ok_iff hcode).1 h
  obtain ⟨descriptor, hdescriptor⟩ := exists_utf8_of_expectKind hdescriptor
  rw [hdescriptor, Option.getD_some] at hverify
  exact ⟨descriptor, hdescriptor, hverify⟩

end Member

namespace ClassFile

variable {bytes : List UInt8} {c : ClassFile}

/-- What a class file has to be like to be accepted. -/
theorem verify_eq_ok_iff : c.verify = .ok () ↔
    (minMajor ≤ c.major && c.major ≤ maxMajor) = true ∧ c.pool.verify = .ok () ∧
      c.verifyClass c.thisClass (.thisClass c.thisClass) = .ok () ∧
      c.verifyClass c.superClass (.superClass c.superClass) = .ok () ∧
      (∀ i ∈ c.interfaces, c.verifyClass i (.interface i) = .ok ()) ∧
      (∀ f ∈ c.fields, c.verifyField f = .ok ()) ∧ ∀ m ∈ c.methods, m.verify c.pool = .ok () := by
  rw [verify]
  split
  · rename_i hversion
    simp only [Except.bind_unit_eq_ok, Except.forM_eq_ok, Except.mapError_eq_ok, hversion, true_and]
  · rename_i hversion
    exact iff_of_false (fun h => by cases h) (fun h => hversion h.1)

theorem verify_of_ofVerifiedBytes (h : ofVerifiedBytes bytes = .ok c) : c.verify = .ok () := by
  rw [ofVerifiedBytes, Except.bind_eq_ok] at h
  obtain ⟨read, -, h⟩ := h
  rw [Except.bind_unit_eq_ok] at h
  obtain ⟨hverify, h⟩ := h
  cases h
  exact hverify

/-- The code of every method of an accepted class file is well formed. -/
theorem isFormed_ofVerifiedBytes (h : ofVerifiedBytes bytes = .ok c) {m : Member}
    (hm : m ∈ c.methods) {code : CodeAttribute} (hcode : m.code? c.pool = some code) :
    ∃ descriptor is, c.pool.utf8? m.descriptor = some descriptor ∧
      code.IsFormed c.pool descriptor is := by
  obtain ⟨-, -, -, -, -, -, hmethods⟩ := verify_eq_ok_iff.1 (verify_of_ofVerifiedBytes h)
  obtain ⟨descriptor, hdescriptor, hverify⟩ := Member.verify_code (hmethods m hm) hcode
  obtain ⟨is, hformed⟩ := CodeAttribute.isFormed_of_verify hverify
  exact ⟨descriptor, is, hdescriptor, hformed⟩

/-- Code with a handler and a switch, whose padding is not zero. -/
def switchingCode : CodeAttribute where
  maxStack := 1
  maxLocals := 1
  code := [
    0x1a,
    0xab, 0x07, 0x07, 0, 0, 0, 21, 0, 0, 0, 1, 0, 0, 0, 7, 0, 0, 0, 19,
    0x04, 0xac,
    0x03, 0xac,
    0x57, 0x03, 0xa7, 0xff, 0xfd]
  table := [⟨20, 22, 24, 4⟩]

/-- A static method with this code. -/
def switchingMethod : Member where
  access := 0x0009
  name := 5
  descriptor := 6
  attributes := [⟨7, switchingCode.encode⟩]

/-- A class whose only method is this one. -/
def switching : ClassFile where
  major := 49
  pool := .ofList [.utf8 "T", .classRef 1, .utf8 "java/lang/Object", .classRef 3, .utf8 "pick",
    .utf8 "(I)I", .utf8 "Code"]
  access := 0x21
  thisClass := 2
  superClass := 4
  interfaces := []
  fields := []
  methods := [switchingMethod]

theorem fits_switching : switching.Fits where
  pool := ⟨switching.pool.toList, by decide, rfl⟩
  poolSize := by decide
  texts := by
    simp only [switching, Pool.toList, Pool.ofList, List.forall_mem_cons, Constant.FitsText]
    refine ⟨?_, trivial, ?_, trivial, ?_, ?_, ?_, List.forall_mem_nil _⟩ <;> decide
  fewInterfaces := by decide
  fewFields := by decide
  fields := List.forall_mem_nil _
  fewMethods := by decide
  methods := by
    simp only [switching, switchingMethod, List.forall_mem_singleton]
    exact ⟨by decide, List.forall_mem_singleton.2 (by rw [FitsAttribute]; decide)⟩
  fewAttributes := by decide
  attributes := List.forall_mem_nil _

theorem verify_switchingCode : switchingCode.verify switching.pool "(I)I" = .ok () := by
  have hstarts : (Listing.ofCode switchingCode.code).instructions.map (·.1) =
      [0, 1, 20, 21, 22, 23, 24, 25, 26] := by decide +kernel
  have hentry : CodeAttribute.IsFormedEntry 29 switching.pool [0, 1, 20, 21, 22, 23, 24, 25, 26]
      ⟨20, 22, 24, 4⟩ :=
    { start := by decide
      nonempty := by decide
      stop := fun _ => by decide
      handler := by decide
      catchType := fun _ => ⟨3, by decide⟩ }
  refine CodeAttribute.verify_eq_ok_iff.2 ⟨by decide +kernel, by decide +kernel,
    by decide +kernel, by decide +kernel, ?_⟩
  rw [hstarts]
  exact List.forall_mem_singleton.2 hentry

theorem code?_switchingMethod : switchingMethod.code? switching.pool = some switchingCode := by
  decide

theorem ofVerifiedBytes_switching : ofVerifiedBytes switching.encode = .ok switching := by
  have hfailures : switchingMethod.declaredFailures switching.pool = [] := by decide
  have hmethod : switchingMethod.verify switching.pool = .ok () :=
    (Member.verify_eq_ok_iff code?_switchingMethod).2 ⟨by decide, by decide,
      by rw [hfailures]; exact List.forall_mem_nil _, by decide, verify_switchingCode⟩
  have hverify : switching.verify = .ok () := verify_eq_ok_iff.2 ⟨by decide, by decide,
    by decide, by decide, List.forall_mem_nil _, List.forall_mem_nil _,
    List.forall_mem_singleton.2 hmethod⟩
  rw [ofVerifiedBytes, ofBytes_encode fits_switching]
  change (do switching.verify; pure switching) = Except.ok switching
  rw [hverify]
  rfl

/-- The bytes of the class are accepted, and its code is well formed. -/
theorem isFormed_switchingCode : ofVerifiedBytes switching.encode = .ok switching ∧
    switchingMethod ∈ switching.methods ∧
    switchingMethod.code? switching.pool = some switchingCode ∧
    ∃ descriptor is, switching.pool.utf8? switchingMethod.descriptor = some descriptor ∧
      switchingCode.IsFormed switching.pool descriptor is :=
  ⟨ofVerifiedBytes_switching, List.mem_singleton.2 rfl, code?_switchingMethod,
    isFormed_ofVerifiedBytes ofVerifiedBytes_switching (List.mem_singleton.2 rfl)
      code?_switchingMethod⟩

end ClassFile

end ComponentViews
