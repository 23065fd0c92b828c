import Mathlib.Algebra.Group.Nat.Defs
import Mathlib.Data.List.Forall2
import ComponentViews.ClassFile.Reader
import ComponentViews.Proofs.ClassFile.ModifiedUtf8

/-!
# Reading undoes writing

A class file is read back from its bytes as it was written (`ClassFile.ofBytes_encode`), and
so is the code of a method from the contents of its attribute (`CodeAttribute.ofBytes?_encode`).
Lengths are written in 16 bits, so that this holds of a class file that *fits*: its texts take
no more than 65535 bytes each, and its lists have no more than 65535 entries.

The texts of a class file can be spelled in other ways than they are written, and it is read all
the same (`ClassFile.ofBytes_encodeSpelled`); Proofs/ClassFile/Canonical has more about them.

The proof follows the format. `Reads read bytes a` says that a reader takes exactly these
bytes for `a`, whatever comes behind them; readers compose as their bytes do (`Reads.bind`).
-/

namespace ComponentViews

/-! ### Words -/

namespace Word

theorem of16_bytes16 (w : UInt16) : of16 (w >>> 8).toUInt8 w.toUInt8 = w := by
  apply UInt16.toBitVec_inj.1
  apply BitVec.eq_of_getLsbD_eq
  intro i hi
  simp only [of16, UInt16.toBitVec_or, UInt16.toBitVec_shiftLeft, UInt8.toBitVec_toUInt16,
    UInt16.toBitVec_toUInt8, UInt16.toBitVec_shiftRight]
  simp
  grind

theorem of32_bytes32 (w : UInt32) :
    of32 (w >>> 24).toUInt8 (w >>> 16).toUInt8 (w >>> 8).toUInt8 w.toUInt8 = w := by
  apply UInt32.toBitVec_inj.1
  apply BitVec.eq_of_getLsbD_eq
  intro i hi
  simp only [of32, UInt32.toBitVec_or, UInt32.toBitVec_shiftLeft, UInt8.toBitVec_toUInt32,
    UInt32.toBitVec_toUInt8, UInt32.toBitVec_shiftRight]
  simp
  grind

theorem of64_words (w : UInt64) : of64 (w >>> 32).toUInt32 w.toUInt32 = w := by
  apply UInt64.toBitVec_inj.1
  apply BitVec.eq_of_getLsbD_eq
  intro i hi
  simp only [of64, UInt64.toBitVec_or, UInt64.toBitVec_shiftLeft, UInt32.toBitVec_toUInt64,
    UInt64.toBitVec_toUInt32, UInt64.toBitVec_shiftRight]
  simp
  grind

@[simp] theorem length_bytes16 (w : UInt16) : (bytes16 w).length = 2 := rfl

@[simp] theorem length_bytes32 (w : UInt32) : (bytes32 w).length = 4 := rfl

end Word

namespace ClassFile

/-! ### Readers -/

section

variable {α β : Type}

/-- A reader takes exactly these bytes for a value, whatever comes behind them. -/
def Reads (read : Read α) (bytes : List UInt8) (a : α) : Prop :=
  ∀ offset rest, read ⟨offset, bytes ++ rest⟩ = .ok (a, ⟨offset + bytes.length, rest⟩)

theorem reads_pure (a : α) : Reads (pure a) [] a := fun _ _ => rfl

theorem Reads.bind {read : Read α} {f : α → Read β} {bytes more : List UInt8} {a : α} {b : β}
    (ha : Reads read bytes a) (hb : Reads (f a) more b) :
    Reads (read >>= f) (bytes ++ more) b := by
  intro offset rest
  show (read _ >>= fun r => f r.1 r.2) = _
  rw [List.append_assoc, ha]
  show f a _ = _
  rw [hb, List.length_append, Nat.add_assoc]

/-- A reader whose last step takes no bytes. -/
theorem Reads.bind_nil {read : Read α} {f : α → Read β} {bytes : List UInt8} {a : α} {b : β}
    (ha : Reads read bytes a) (hb : Reads (f a) [] b) : Reads (read >>= f) bytes b := by
  rw [← List.append_nil bytes]
  exact ha.bind hb

/-- A reader that ends with what it has put together. -/
theorem Reads.map {read : Read α} {f : α → β} {bytes : List UInt8} {a : α}
    (ha : Reads read bytes a) : Reads (read >>= fun a => pure (f a)) bytes (f a) :=
  ha.bind_nil (reads_pure (f a))

/-- A reader that looks at its place first. -/
theorem reads_get {f : Cursor → Read β} {bytes : List UInt8} {b : β}
    (hb : ∀ c, Reads (f c) bytes b) : Reads (get >>= f) bytes b :=
  fun offset rest => hb ⟨offset, bytes ++ rest⟩ offset rest

theorem reads_byte (b : UInt8) : Reads Read.byte [b] b := fun _ _ => rfl

theorem reads_word16 (w : UInt16) : Reads Read.word16 (Word.bytes16 w) w := by
  intro offset rest
  rw [Word.bytes16, List.cons_append, List.singleton_append, Read.word16]
  simp only
  rw [Word.of16_bytes16]
  rfl

theorem reads_word32 (w : UInt32) : Reads Read.word32 (Word.bytes32 w) w := by
  intro offset rest
  rw [Word.bytes32, List.cons_append, List.cons_append, List.cons_append, List.singleton_append,
    Read.word32]
  simp only
  rw [Word.of32_bytes32]
  rfl

theorem reads_word64 (w : UInt64) : Reads Read.word64 (Word.bytes64 w) w := by
  have hlow := (reads_word32 w.toUInt32).map (f := Word.of64 (w >>> 32).toUInt32)
  rw [Word.of64_words] at hlow
  exact (reads_word32 (w >>> 32).toUInt32).bind hlow

theorem reads_take (bytes : List UInt8) : Reads (Read.take bytes.length) bytes bytes := by
  intro offset rest
  simp [Read.take]

/-- Items are read one after another. -/
theorem reads_repeatRead {read : Read α} {encode : α → List UInt8} {l : List α}
    (hl : ∀ a ∈ l, Reads read (encode a) a) (before : List α) :
    Reads (Read.repeatRead read l.length before) (l.flatMap encode) (before.reverse ++ l) := by
  induction l generalizing before with
  | nil =>
    rw [List.append_nil]
    exact reads_pure before.reverse
  | cons a l ih =>
    have hrest := ih (fun b hb => hl b (List.mem_cons_of_mem _ hb)) (a :: before)
    rw [List.reverse_cons, List.append_assoc, List.singleton_append] at hrest
    exact (hl a List.mem_cons_self).bind hrest

/-- A list is read after its length, which has to be one that can be written. -/
theorem reads_list {read : Read α} {encode : α → List UInt8} {l : List α}
    (hl : ∀ a ∈ l, Reads read (encode a) a) (hlength : l.length ≤ 65535) :
    Reads (Read.list read) (encodeList encode l) l := by
  refine (reads_word16 _).bind ?_
  rw [Constant.lengthWord, UInt16.toNat_ofNat_of_lt' (Nat.lt_succ_of_le hlength)]
  exact reads_repeatRead hl []

end

/-! ### Members -/

/-- An attribute whose length can be written. -/
def FitsAttribute (a : Attribute) : Prop := a.info.length < 2 ^ 32

/-- A field or method whose attributes can be written. -/
structure FitsMember (m : Member) : Prop where
  few : m.attributes.length ≤ 65535
  attributes : ∀ a ∈ m.attributes, FitsAttribute a

theorem reads_attr {a : Attribute} (ha : FitsAttribute a) : Reads Read.attr a.encode a := by
  rw [Attribute.encode, List.append_assoc]
  refine (reads_word16 a.name).bind ((reads_word32 _).bind ?_)
  rw [UInt32.toNat_ofNat_of_lt' ha]
  exact (reads_take a.info).map

theorem reads_member {m : Member} (hm : FitsMember m) : Reads Read.member m.encode m := by
  rw [Member.encode, List.append_assoc, List.append_assoc]
  refine (reads_word16 m.access).bind ((reads_word16 m.name).bind
    ((reads_word16 m.descriptor).bind ?_))
  exact (reads_list (fun a ha => reads_attr (hm.attributes a ha)) hm.few).map

/-! ### The constant pool -/

end ClassFile

/-- The bytes of a text take no more than can be written in 16 bits. -/
def Constant.FitsText : Constant → Prop
  | .utf8 s => (ModifiedUtf8.encode s).length ≤ 65535
  | _ => True

instance : DecidablePred Constant.FitsText
  | .utf8 s => inferInstanceAs (Decidable ((ModifiedUtf8.encode s).length ≤ 65535))
  | .integer _ | .float _ | .long _ | .double _ | .classRef _ | .string _ | .fieldRef _ _
  | .methodRef _ _ | .interfaceMethodRef _ _ | .nameAndType _ _ | .unusable => .isTrue trivial

/-- The bytes spell a constant: they are those that are written for it, but a text may be
    spelled in any way that is read. -/
def Constant.IsSpelledBy : Constant → List UInt8 → Prop
  | .utf8 s, bytes => ∃ text, ModifiedUtf8.decode? text = some s ∧ text.length ≤ 65535 ∧
      bytes = 1 :: Word.bytes16 (lengthWord text) ++ text
  | c, bytes => bytes = c.encode

theorem Constant.isSpelledBy_encode {c : Constant} (h : c.FitsText) : c.IsSpelledBy c.encode := by
  cases c with
  | utf8 s => exact ⟨ModifiedUtf8.encode s, ModifiedUtf8.decode?_encode s, h, rfl⟩
  | _ => rfl

namespace Pool

/-- Constants with the slots that they take. -/
def layout (cs : List Constant) : List Constant :=
  cs.flatMap fun c => if c.isWide then [c, .unusable] else [c]

/-- The entries of a pool are constants with the slots that they take. -/
def IsLaidOut (p : Pool) : Prop := ∃ cs, .unusable ∉ cs ∧ p.toList = layout cs

theorem layout_append (cs ds : List Constant) : layout (cs ++ ds) = layout cs ++ layout ds :=
  List.flatMap_append

end Pool

namespace ClassFile

theorem reads_constant {c : Constant} {bytes : List UInt8} (hc : c ≠ .unusable)
    (h : c.IsSpelledBy bytes) : Reads Read.constant bytes c := by
  refine reads_get fun place => ?_
  cases c with
  | utf8 s =>
    obtain ⟨text, hs, hlength, rfl⟩ := h
    refine (reads_byte 1).bind ((reads_word16 _).bind ?_)
    rw [Constant.lengthWord, UInt16.toNat_ofNat_of_lt' (Nat.lt_succ_of_le hlength)]
    refine (reads_take text).bind_nil ?_
    rw [hs]
    exact reads_pure _
  | integer n => exact h ▸ (reads_byte 3).bind (reads_word32 n).map
  | float n => exact h ▸ (reads_byte 4).bind (reads_word32 n).map
  | long n => exact h ▸ (reads_byte 5).bind (reads_word64 n).map
  | double n => exact h ▸ (reads_byte 6).bind (reads_word64 n).map
  | classRef name => exact h ▸ (reads_byte 7).bind (reads_word16 name).map
  | string text => exact h ▸ (reads_byte 8).bind (reads_word16 text).map
  | fieldRef a b => exact h ▸ (reads_byte 9).bind ((reads_word16 a).bind (reads_word16 b).map)
  | methodRef a b => exact h ▸ (reads_byte 10).bind ((reads_word16 a).bind (reads_word16 b).map)
  | interfaceMethodRef a b =>
    exact h ▸ (reads_byte 11).bind ((reads_word16 a).bind (reads_word16 b).map)
  | nameAndType a b => exact h ▸ (reads_byte 12).bind ((reads_word16 a).bind (reads_word16 b).map)
  | unusable => exact absurd rfl hc

/-- Entries are read until their slots are filled. -/
theorem reads_constants {cs : List Constant} {spellings : List (List UInt8)}
    (hcs : .unusable ∉ cs)
    (hspelled : List.Forall₂ Constant.IsSpelledBy (Pool.layout cs) spellings)
    (before : List Constant) :
    Reads (Read.constants (Pool.layout cs).length before) spellings.flatten
      (before.reverse ++ Pool.layout cs) := by
  induction cs generalizing before spellings with
  | nil =>
    cases hspelled
    rw [Pool.layout, List.flatMap_nil, List.append_nil]
    exact reads_pure before.reverse
  | cons c cs ih =>
    rw [List.mem_cons, not_or] at hcs
    rw [show Pool.layout (c :: cs) = (if c.isWide then [c, .unusable] else [c]) ++
      Pool.layout cs from rfl] at hspelled ⊢
    cases hwide : c.isWide with
    | true =>
      rw [hwide, if_pos rfl] at hspelled
      cases hspelled with
      | cons hspelled hsecond =>
      cases hsecond with
      | cons hunusable hrest =>
      have hc := reads_constant (Ne.symm hcs.1) hspelled
      have h := hc.bind (f := fun d => if d.isWide then
          Read.constants (Pool.layout cs).length (.unusable :: d :: before)
        else Read.constants ((Pool.layout cs).length + 1) (d :: before))
        (by rw [hwide, if_pos rfl]; exact ih hcs.2 hrest (.unusable :: c :: before))
      rw [List.reverse_cons, List.reverse_cons, List.append_assoc, List.append_assoc] at h
      cases hunusable
      exact h
    | false =>
      rw [hwide, if_neg (by simp)] at hspelled
      cases hspelled with
      | cons hspelled hrest =>
      have hc := reads_constant (Ne.symm hcs.1) hspelled
      have ih := ih hcs.2 hrest
      -- The reader is told how many slots are left, and stops where there are none.
      cases hlayout : Pool.layout cs with
      | nil =>
        rw [hlayout] at hrest
        cases hrest
        have h := hc.bind (f := fun d => if d.isWide then throw .poolOverrun
          else pure (d :: before).reverse)
          (by rw [hwide, if_neg (by simp)]; exact reads_pure _)
        rw [List.reverse_cons] at h
        simpa [Read.constants] using h
      | cons e rest =>
        rw [hlayout] at ih
        have h := hc.bind (f := fun d => if d.isWide then
            Read.constants rest.length (.unusable :: d :: before)
          else Read.constants (rest.length + 1) (d :: before))
          (by rw [hwide, if_neg (by simp)]; exact ih (c :: before))
        rw [List.reverse_cons, List.append_assoc] at h
        exact h

/-- A pool is read from bytes that spell its entries. -/
theorem reads_pool {p : Pool} {spellings : List (List UInt8)} (hp : p.IsLaidOut)
    (hsize : p.size ≤ Pool.maxSize)
    (hspelled : List.Forall₂ Constant.IsSpelledBy p.toList spellings) :
    Reads Read.pool (Word.bytes16 (UInt16.ofNat (p.size + 1)) ++ spellings.flatten)
      (.ofList p.toList) := by
  obtain ⟨cs, hcs, hlayout⟩ := hp
  have hlength : p.size = (Pool.layout cs).length := by
    rw [← hlayout]
    exact Array.length_toList.symm
  rw [hlayout] at hspelled ⊢
  have hread := (reads_constants hcs hspelled []).map (f := Pool.ofList)
  refine (reads_word16 _).bind ?_
  rw [UInt16.toNat_ofNat_of_lt' (show p.size + 1 < 65536 by rw [Pool.maxSize] at hsize; omega),
    hlength]
  exact hread

/-! ### Class files -/

/-- What can be written of a class file so that it can be read again. -/
structure Fits (c : ClassFile) : Prop where
  pool : c.pool.IsLaidOut
  poolSize : c.pool.size ≤ Pool.maxSize
  texts : ∀ k ∈ c.pool.toList, k.FitsText
  fewInterfaces : c.interfaces.length ≤ 65535
  fewFields : c.fields.length ≤ 65535
  fields : ∀ f ∈ c.fields, FitsMember f
  fewMethods : c.methods.length ≤ 65535
  methods : ∀ m ∈ c.methods, FitsMember m
  fewAttributes : c.attributes.length ≤ 65535
  attributes : ∀ a ∈ c.attributes, FitsAttribute a

/-- The bytes of a class file whose constants are spelled by the bytes given. -/
def encodeSpelled (c : ClassFile) (spellings : List (List UInt8)) : List UInt8 :=
  Word.bytes32 magic ++ Word.bytes16 c.minor ++ Word.bytes16 c.major ++
    (Word.bytes16 (UInt16.ofNat (c.pool.size + 1)) ++ spellings.flatten) ++
    Word.bytes16 c.access ++ Word.bytes16 c.thisClass ++ Word.bytes16 c.superClass ++
    encodeList Word.bytes16 c.interfaces ++ encodeList Member.encode c.fields ++
    encodeList Member.encode c.methods ++ encodeList Attribute.encode c.attributes

theorem encode_eq_encodeSpelled (c : ClassFile) :
    c.encode = c.encodeSpelled (c.pool.toList.map Constant.encode) := by
  rw [encode, encodeSpelled, Pool.encode, List.flatMap_def]

/-- A class file that fits is read however its texts are spelled; the pool that has been read
    shares no entries. -/
theorem ofBytes_encodeSpelled {c : ClassFile} {spellings : List (List UInt8)} (hc : c.Fits)
    (hspelled : List.Forall₂ Constant.IsSpelledBy c.pool.toList spellings) :
    ofBytes (c.encodeSpelled spellings) = .ok { c with pool := .ofList c.pool.toList } := by
  have hread : Reads Read.classFile (c.encodeSpelled spellings)
      { c with pool := .ofList c.pool.toList } := by
    rw [encodeSpelled]
    simp only [List.append_assoc]
    rw [← List.append_assoc (Word.bytes16 (UInt16.ofNat (c.pool.size + 1)))]
    refine (reads_word32 magic).bind ?_
    refine (reads_word16 c.minor).bind ((reads_word16 c.major).bind
      ((reads_pool hc.pool hc.poolSize hspelled).bind ((reads_word16 c.access).bind
        ((reads_word16 c.thisClass).bind ((reads_word16 c.superClass).bind ?_)))))
    refine (reads_list (fun w _ => reads_word16 w) hc.fewInterfaces).bind
      ((reads_list (fun m hm => reads_member (hc.fields m hm)) hc.fewFields).bind
        ((reads_list (fun m hm => reads_member (hc.methods m hm)) hc.fewMethods).bind ?_))
    exact (reads_list (fun a ha => reads_attr (hc.attributes a ha)) hc.fewAttributes).map
  have h := hread 0 []
  rw [List.append_nil] at h
  rw [ofBytes, h]
  rfl

/-- A class file that fits is read back as it was written. -/
theorem ofBytes_encode {c : ClassFile} (hc : c.Fits) :
    ofBytes c.encode = .ok { c with pool := .ofList c.pool.toList } := by
  rw [encode_eq_encodeSpelled]
  refine ofBytes_encodeSpelled hc
    (List.forall₂_map_right_iff.2 (List.forall₂_same.2 fun k hk => ?_))
  exact Constant.isSpelledBy_encode (hc.texts k hk)

end ClassFile

/-! ### Code -/

namespace CodeAttribute

open ClassFile (Reads reads_pure reads_word16 reads_word32 reads_take reads_list reads_attr
  FitsAttribute)

/-- Code whose lists can be written. -/
structure Fits (c : CodeAttribute) : Prop where
  code : c.code.length < 2 ^ 32
  fewEntries : c.table.length ≤ 65535
  fewAttributes : c.attributes.length ≤ 65535
  attributes : ∀ a ∈ c.attributes, FitsAttribute a

theorem reads_readEntry (e : ExceptionEntry) : Reads readEntry e.encode e := by
  rw [ExceptionEntry.encode, List.append_assoc, List.append_assoc]
  exact (reads_word16 e.start).bind ((reads_word16 e.stop).bind ((reads_word16 e.handler).bind
    (reads_word16 e.catchType).map))

theorem reads_read {c : CodeAttribute} (hc : c.Fits) : Reads read c.encode c := by
  rw [encode]
  simp only [List.append_assoc]
  refine (reads_word16 c.maxStack).bind ((reads_word16 c.maxLocals).bind
    ((reads_word32 _).bind ?_))
  rw [UInt32.toNat_ofNat_of_lt' hc.code]
  exact (reads_take c.code).bind
    ((reads_list (fun e _ => reads_readEntry e) hc.fewEntries).bind
      (reads_list (fun a ha => reads_attr (hc.attributes a ha)) hc.fewAttributes).map)

/-- Code that fits is read back from the contents of its attribute. -/
theorem ofBytes?_encode {c : CodeAttribute} (hc : c.Fits) : ofBytes? c.encode = some c := by
  have h := reads_read hc 0 []
  rw [List.append_nil] at h
  rw [ofBytes?, h]

end CodeAttribute

end ComponentViews
