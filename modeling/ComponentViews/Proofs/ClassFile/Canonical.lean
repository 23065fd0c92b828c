import ComponentViews.Proofs.Checks
import ComponentViews.Proofs.ClassFile.Decoding
import ComponentViews.Proofs.ClassFile.Reading

/-!
# What is read has been written, but for the spelling of texts

Whatever class file is read from bytes, these are the bytes that are written for it, in which
only the texts of the constant pool may be spelled otherwise (`ClassFile.exists_spellings`). So
a file is the one that is written for its class if and only if every text in it is spelled as
texts are written (`ClassFile.encode_eq_iff`).

A text can be spelled otherwise, since the reader takes a unit of UTF-16 in more bytes than it
needs (`ModifiedUtf8.exists_overlong`), and then different files are read as one class file
(`ClassFile.exists_overlong`). No spelling is shorter than the one that is written
(`ModifiedUtf8.length_encode_le`).
-/

namespace ComponentViews

/-! ### Texts -/

namespace Utf16

theorem ofText_append (a b : List Char) : ofText (a ++ b) = ofText a ++ ofText b :=
  List.flatMap_append

theorem toNat_ofNat {n : Nat} (h : n.isValidChar) : (Char.ofNat n).toNat = n := by
  rw [Char.ofNat, dif_pos h]
  rfl

/-- A unit that is no surrogate is a character by itself. -/
theorem units_ofNat {u : Nat} (hu : u < 0xD800 ∨ 0xDFFF < u) (hlt : u < 0x10000) :
    units (Char.ofNat u) = [u] := by
  have hvalid : u.isValidChar := by simp only [Nat.isValidChar]; omega
  rw [units, toNat_ofNat hvalid, if_pos hlt]

/-- Two surrogates are a character. -/
theorem units_ofSurrogates {high low : Nat} (hhigh : 0xD800 ≤ high ∧ high ≤ 0xDBFF)
    (hlow : 0xDC00 ≤ low ∧ low ≤ 0xDFFF) :
    units (Char.ofNat (0x10000 + (high - 0xD800) * 0x400 + (low - 0xDC00))) = [high, low] := by
  have hvalid : (0x10000 + (high - 0xD800) * 0x400 + (low - 0xDC00)).isValidChar := by
    simp only [Nat.isValidChar]
    omega
  rw [units, toNat_ofNat hvalid, if_neg (by omega), List.cons.injEq, List.cons.injEq]
  refine ⟨?_, ?_, rfl⟩
  · omega
  · omega

/-- Units that make a text are the units of the text. -/
theorem ofText_of_toText? {before text : List Char} {us : List Nat} (hus : ∀ u ∈ us, u < 0x10000)
    (h : toText? before us = some text) : ofText text = ofText before.reverse ++ us := by
  fun_induction toText? before us with
  | case1 before =>
    cases h
    rw [List.append_nil]
  | case2 before u rest hsingle ih =>
    rw [ih (fun v hv => hus v (List.mem_cons_of_mem _ hv)) h, List.reverse_cons, ofText_append,
      List.append_assoc]
    have hunits := units_ofNat hsingle (hus u List.mem_cons_self)
    simp [ofText, hunits]
  | case3 | case5 | case6 => cases h
  | case4 before u hnone hhigh low rest hlow ih =>
    rw [ih (fun v hv => hus v (List.mem_cons_of_mem _ (List.mem_cons_of_mem _ hv))) h,
      List.reverse_cons, ofText_append, List.append_assoc]
    have hunits := @units_ofSurrogates u _ (by omega) hlow
    simp [ofText, hunits]

end Utf16

namespace ModifiedUtf8

/-- The units that bytes spell, and how they are written: each fits into 16 bits, and all of
    them take no more bytes than have been read. -/
def AreSpelledBy (us : List Nat) (bytes : List UInt8) : Prop :=
  (∀ u ∈ us, u < 0x10000) ∧ (us.flatMap encodeUnit).length ≤ bytes.length

theorem AreSpelledBy.cons {u : Nat} {us : List Nat} {unit bytes : List UInt8}
    (h : AreSpelledBy us bytes) (hu : u < 0x10000) (hunit : (encodeUnit u).length ≤ unit.length) :
    AreSpelledBy (u :: us) (unit ++ bytes) := by
  refine ⟨List.forall_mem_cons.2 ⟨hu, h.1⟩, ?_⟩
  rw [List.flatMap_cons, List.length_append, List.length_append]
  exact Nat.add_le_add hunit h.2

theorem length_encodeUnit (u : Nat) :
    (encodeUnit u).length = if u ≠ 0 ∧ u < 0x80 then 1 else if u < 0x800 then 2 else 3 := by
  rw [encodeUnit]
  split
  · rfl
  split
  · rfl
  · rfl

theorem areSpelledBy_of_decodeUnits? {before us : List Nat} {bytes : List UInt8}
    (h : decodeUnits? before bytes = some us) :
    ∃ more, us = before.reverse ++ more ∧ AreSpelledBy more bytes := by
  -- A unit in front of those behind it, from the bytes of its own.
  have step : ∀ {before us : List Nat} {u : Nat} (unit : List UInt8) {rest}, u < 0x10000 →
      (encodeUnit u).length ≤ unit.length →
      (∃ more, us = (u :: before).reverse ++ more ∧ AreSpelledBy more rest) →
      ∃ more, us = before.reverse ++ more ∧ AreSpelledBy more (unit ++ rest) := by
    rintro before us u unit rest hu hunit ⟨more, rfl, hmore⟩
    exact ⟨u :: more, by simp, hmore.cons hu hunit⟩
  fun_induction decodeUnits? before bytes with
  | case1 before =>
    cases h
    exact ⟨[], by simp [AreSpelledBy]⟩
  | case2 before b rest n hn ih =>
    refine step [b] (by omega) ?_ (ih h)
    rw [length_encodeUnit, if_pos hn]
    exact Nat.le_refl 1
  | case3 before b n hn hb b2 rest unit ih =>
    refine step [b, b2] (by omega) ?_ (ih h)
    rw [length_encodeUnit, if_pos (c := unit < 0x800) (by omega)]
    simp only [List.length_cons, List.length_nil]
    split <;> omega
  | case5 before b n hn hb hb' b2 b3 rest unit ih =>
    refine step [b, b2, b3] (by omega) ?_ (ih h)
    rw [length_encodeUnit]
    simp only [List.length_cons, List.length_nil]
    split
    · omega
    · split <;> omega
  | case4 | case6 | case7 => cases h

/-- A text is written in no more bytes than it can be read from. -/
theorem length_encode_le {bytes : List UInt8} {s : String} (h : decode? bytes = some s) :
    (encode s).length ≤ bytes.length := by
  simp only [decode?, bind, Option.bind_eq_some_iff] at h
  obtain ⟨us, hus, text, htext, hs⟩ := h
  obtain ⟨more, rfl, hlt, hlength⟩ := areSpelledBy_of_decodeUnits? hus
  have hunits := Utf16.ofText_of_toText? hlt htext
  cases hs
  rw [encode, String.toList_ofList, hunits]
  exact hlength

/-! ### Longer spellings -/

/-- Two bytes that spell a unit, whether or not it needs them. -/
def twoBytes (u : Nat) : List UInt8 :=
  [UInt8.ofNat (0xC0 + u / 0x40), UInt8.ofNat (0x80 + u % 0x40)]

theorem decodeUnits?_twoBytes {u : Nat} (hu : u < 0x800) (units : List Nat) (rest : List UInt8) :
    decodeUnits? units (twoBytes u ++ rest) = decodeUnits? (u :: units) rest := by
  have htoNat : ∀ {n : Nat}, n < 256 → (UInt8.ofNat n).toNat = n :=
    fun hn => UInt8.toNat_ofNat_of_lt' hn
  rw [twoBytes, List.cons_append, List.singleton_append, decodeUnits?.eq_def]
  simp only
  rw [htoNat (by omega), if_neg (by omega), if_pos (by omega), htoNat (by omega)]
  congr 2
  omega

theorem decodeUnits?_append {us : List Nat} (hus : ∀ u ∈ us, u < 0x10000) (units : List Nat)
    (rest : List UInt8) :
    decodeUnits? units (us.flatMap encodeUnit ++ rest) =
      decodeUnits? (us.reverse ++ units) rest := by
  induction us generalizing units with
  | nil => rfl
  | cons u us ih =>
    rw [List.flatMap_cons, List.append_assoc, decodeUnits?_encodeUnit (hus u List.mem_cons_self),
      ih fun v hv => hus v (List.mem_cons_of_mem _ hv)]
    simp

/-- A text with a character that takes one byte is read from more bytes, too. -/
theorem exists_overlong {s : String} {c : Char} (hc : c ∈ s.toList) (hpos : c.toNat ≠ 0)
    (hlt : c.toNat < 0x80) :
    ∃ bytes, decode? bytes = some s ∧ bytes.length = (encode s).length + 1 := by
  obtain ⟨front, back, hs⟩ := List.append_of_mem hc
  have hunits : Utf16.ofText s.toList = Utf16.ofText front ++ c.toNat :: Utf16.ofText back := by
    have hc : Utf16.units c = [c.toNat] := if_pos (by omega)
    rw [hs, Utf16.ofText_append]
    simp [Utf16.ofText, hc]
  have hone : encodeUnit c.toNat = [UInt8.ofNat c.toNat] := if_pos ⟨hpos, hlt⟩
  refine ⟨(Utf16.ofText front).flatMap encodeUnit ++ (twoBytes c.toNat ++
    (Utf16.ofText back).flatMap encodeUnit), ?_, ?_⟩
  · rw [decode?, decodeUnits?_append (fun _ => Utf16.lt_of_mem_ofText),
      decodeUnits?_twoBytes (by omega), decodeUnits?_flatMap (fun _ => Utf16.lt_of_mem_ofText)]
    have hback : ((c.toNat :: ((Utf16.ofText front).reverse ++ [])).reverse ++
        Utf16.ofText back) = Utf16.ofText s.toList := by
      rw [hunits]
      simp
    simp only [bind, Option.bind_some]
    rw [hback, Utf16.toText?_ofText]
    simp [pure]
  · rw [encode, hunits]
    simp [twoBytes, hone]
    omega

end ModifiedUtf8

theorem Word.bytes64_of64 (high low : UInt32) :
    bytes64 (of64 high low) = bytes32 high ++ bytes32 low := by
  have hbits : ∀ {x y : UInt32}, (∀ i < 32, x.toBitVec.getLsbD i = y.toBitVec.getLsbD i) → x = y :=
    fun h => UInt32.toBitVec_inj.1 (BitVec.eq_of_getLsbD_eq h)
  rw [bytes64]
  congr 2
  · refine hbits fun i hi => ?_
    simp [of64]
    grind
  · refine hbits fun i hi => ?_
    simp [of64]

namespace ClassFile

/-! ### Readers -/

section

variable {α β : Type}

/-- Whatever a reader gives has been read from the bytes that are written for it. -/
def IsCanonical (read : Read α) (encode : α → List UInt8) : Prop :=
  ∀ c a c', read c = .ok (a, c') → c.rest = encode a ++ c'.rest

/-- The two steps of a reader that has succeeded. -/
theorem read_bind_eq_ok {read : Read α} {f : α → Read β} {c c' : Cursor} {b : β} :
    (read >>= f) c = .ok (b, c') ↔ ∃ a c₁, read c = .ok (a, c₁) ∧ f a c₁ = .ok (b, c') := by
  show (read c >>= fun r => f r.1 r.2) = _ ↔ _
  rw [Except.bind_eq_ok, Prod.exists]

theorem read_pure_eq_ok {a b : α} {c c' : Cursor} :
    (pure a : Read α) c = .ok (b, c') ↔ a = b ∧ c = c' := by
  show Except.ok (a, c) = .ok (b, c') ↔ _
  rw [Except.ok.injEq, Prod.mk.injEq]

theorem isCanonical_word16 : IsCanonical Read.word16 Word.bytes16 := by
  intro c w c' h
  unfold Read.word16 at h
  split at h
  · rename_i a b rest hrest
    cases h
    rw [hrest, Word.bytes16_of16]
    rfl
  · cases h

theorem isCanonical_word32 : IsCanonical Read.word32 Word.bytes32 := by
  intro c w c' h
  unfold Read.word32 at h
  split at h
  · rename_i a b d e rest hrest
    cases h
    rw [hrest, Word.bytes32_of32]
    rfl
  · cases h

theorem isCanonical_word64 : IsCanonical Read.word64 Word.bytes64 := by
  intro c w c' h
  simp only [Read.word64, read_bind_eq_ok, read_pure_eq_ok] at h
  obtain ⟨high, c₁, hhigh, low, c₂, hlow, rfl, rfl⟩ := h
  rw [isCanonical_word32 _ _ _ hhigh, isCanonical_word32 _ _ _ hlow, Word.bytes64_of64,
    List.append_assoc]

theorem eq_of_take {n : Nat} {c c' : Cursor} {bytes : List UInt8}
    (h : Read.take n c = .ok (bytes, c')) : c.rest = bytes ++ c'.rest ∧ bytes.length = n := by
  simp only [Read.take, List.splitAt_eq] at h
  split at h
  · rename_i hlength
    cases h
    exact ⟨(List.take_append_drop n c.rest).symm, hlength⟩
  · cases h

theorem isCanonical_repeatRead {read : Read α} {encode : α → List UInt8}
    (hread : IsCanonical read encode) {n : Nat} {before l : List α} {c c' : Cursor}
    (h : Read.repeatRead read n before c = .ok (l, c')) :
    ∃ more, l = before.reverse ++ more ∧ more.length = n ∧
      c.rest = more.flatMap encode ++ c'.rest := by
  induction n generalizing before c with
  | zero =>
    obtain ⟨rfl, rfl⟩ := read_pure_eq_ok.1 h
    exact ⟨[], by simp⟩
  | succ n ih =>
    obtain ⟨a, c₁, ha, hrest⟩ := read_bind_eq_ok.1 h
    obtain ⟨more, hl, hlength, hbytes⟩ := ih hrest
    refine ⟨a :: more, by simp [hl], by rw [List.length_cons, hlength], ?_⟩
    rw [hread _ _ _ ha, hbytes, List.flatMap_cons, List.append_assoc]

theorem isCanonical_list {read : Read α} {encode : α → List UInt8}
    (hread : IsCanonical read encode) : IsCanonical (Read.list read) (encodeList encode) := by
  intro c l c' h
  obtain ⟨n, c₁, hn, hitems⟩ := read_bind_eq_ok.1 h
  obtain ⟨more, rfl, hlength, hbytes⟩ := isCanonical_repeatRead hread hitems
  rw [isCanonical_word16 _ _ _ hn, hbytes, encodeList, Constant.lengthWord]
  simp [hlength]

end

/-! ### Members -/

theorem isCanonical_attr : IsCanonical Read.attr Attribute.encode := by
  intro c a c' h
  simp only [Read.attr, read_bind_eq_ok, read_pure_eq_ok] at h
  obtain ⟨name, c₁, hname, size, c₂, hsize, info, c₃, hinfo, rfl, rfl⟩ := h
  obtain ⟨hbytes, hlength⟩ := eq_of_take hinfo
  rw [isCanonical_word16 _ _ _ hname, isCanonical_word32 _ _ _ hsize, hbytes, Attribute.encode]
  simp [hlength]

theorem isCanonical_member : IsCanonical Read.member Member.encode := by
  intro c m c' h
  simp only [Read.member, read_bind_eq_ok, read_pure_eq_ok] at h
  obtain ⟨access, c₁, haccess, name, c₂, hname, descriptor, c₃, hdescriptor, attributes, c₄,
    hattributes, rfl, rfl⟩ := h
  rw [isCanonical_word16 _ _ _ haccess, isCanonical_word16 _ _ _ hname,
    isCanonical_word16 _ _ _ hdescriptor, isCanonical_list isCanonical_attr _ _ _ hattributes,
    Member.encode]
  simp only [List.append_assoc]

/-! ### The constant pool -/

theorem isCanonical_byte : IsCanonical Read.byte fun b => [b] := by
  intro c b c' h
  unfold Read.byte at h
  split at h
  · rename_i b rest hrest
    cases h
    exact hrest
  · cases h

/-- What a tag with one operand behind it is read from. -/
theorem eq_of_operand {α : Type} {read : Read α} {encode : α → List UInt8} {make : α → Constant}
    {tag : UInt8} {c c' : Cursor} {k : Constant} (hread : IsCanonical read encode)
    (hencode : ∀ a, (make a).encode = tag :: encode a)
    (h : (read >>= fun a => pure (make a)) c = .ok (k, c')) :
    (∃ a, k = make a) ∧ [tag] ++ c.rest = k.encode ++ c'.rest := by
  obtain ⟨a, c₁, ha, hk⟩ := read_bind_eq_ok.1 h
  obtain ⟨rfl, rfl⟩ := read_pure_eq_ok.1 hk
  refine ⟨⟨a, rfl⟩, ?_⟩
  rw [hencode, hread _ _ _ ha]
  rfl

/-- What a tag with two words behind it is read from. -/
theorem eq_of_pair {make : UInt16 → UInt16 → Constant} {tag : UInt8} {c c' : Cursor}
    {k : Constant} (hencode : ∀ a b, (make a b).encode = tag :: Word.bytes16 a ++ Word.bytes16 b)
    (h : Read.pair make c = .ok (k, c')) :
    (∃ a b, k = make a b) ∧ [tag] ++ c.rest = k.encode ++ c'.rest := by
  simp only [Read.pair, read_bind_eq_ok, read_pure_eq_ok] at h
  obtain ⟨a, c₁, ha, b, c₂, hb, rfl, rfl⟩ := h
  refine ⟨⟨a, b, rfl⟩, ?_⟩
  rw [hencode, isCanonical_word16 _ _ _ ha, isCanonical_word16 _ _ _ hb]
  simp

/-- A constant is read from bytes that spell it. -/
theorem isSpelledBy_of_constant {k : Constant} {c c' : Cursor}
    (h : Read.constant c = .ok (k, c')) :
    ∃ bytes, k.IsSpelledBy bytes ∧ c.rest = bytes ++ c'.rest := by
  obtain ⟨place, c₀, hplace, hconstant⟩ := read_bind_eq_ok.1 h
  cases hplace
  obtain ⟨tag, c₁, htag, hoperands⟩ := read_bind_eq_ok.1 hconstant
  -- One case for each tag that the reader knows; only the length of a text is not fixed.
  rw [isCanonical_byte _ _ _ htag]
  split at hoperands
  · obtain ⟨size, c₂, hsize, htake⟩ := read_bind_eq_ok.1 hoperands
    obtain ⟨text, c₃, htext, hdecode⟩ := read_bind_eq_ok.1 htake
    obtain ⟨hbytes, hlength⟩ := eq_of_take htext
    cases hs : ModifiedUtf8.decode? text with
    | none =>
      rw [hs] at hdecode
      cases hdecode
    | some s =>
      rw [hs] at hdecode
      obtain ⟨rfl, rfl⟩ := read_pure_eq_ok.1 hdecode
      refine ⟨_, ⟨text, hs, ?_, rfl⟩, ?_⟩
      · have := size.toNat_lt
        omega
      · rw [isCanonical_word16 _ _ _ hsize, hbytes, Constant.lengthWord, hlength]
        simp
  · obtain ⟨⟨n, rfl⟩, hbytes⟩ := eq_of_operand isCanonical_word32 (fun _ => rfl) hoperands
    exact ⟨_, rfl, hbytes⟩
  · obtain ⟨⟨n, rfl⟩, hbytes⟩ := eq_of_operand isCanonical_word32 (fun _ => rfl) hoperands
    exact ⟨_, rfl, hbytes⟩
  · obtain ⟨⟨n, rfl⟩, hbytes⟩ := eq_of_operand isCanonical_word64 (fun _ => rfl) hoperands
    exact ⟨_, rfl, hbytes⟩
  · obtain ⟨⟨n, rfl⟩, hbytes⟩ := eq_of_operand isCanonical_word64 (fun _ => rfl) hoperands
    exact ⟨_, rfl, hbytes⟩
  · obtain ⟨⟨n, rfl⟩, hbytes⟩ := eq_of_operand isCanonical_word16 (fun _ => rfl) hoperands
    exact ⟨_, rfl, hbytes⟩
  · obtain ⟨⟨n, rfl⟩, hbytes⟩ := eq_of_operand isCanonical_word16 (fun _ => rfl) hoperands
    exact ⟨_, rfl, hbytes⟩
  · obtain ⟨⟨a, b, rfl⟩, hbytes⟩ := eq_of_pair (fun _ _ => rfl) hoperands
    exact ⟨_, rfl, hbytes⟩
  · obtain ⟨⟨a, b, rfl⟩, hbytes⟩ := eq_of_pair (fun _ _ => rfl) hoperands
    exact ⟨_, rfl, hbytes⟩
  · obtain ⟨⟨a, b, rfl⟩, hbytes⟩ := eq_of_pair (fun _ _ => rfl) hoperands
    exact ⟨_, rfl, hbytes⟩
  · obtain ⟨⟨a, b, rfl⟩, hbytes⟩ := eq_of_pair (fun _ _ => rfl) hoperands
    exact ⟨_, rfl, hbytes⟩
  · cases hoperands

/-- Entries are read from bytes that spell them, one after another; the second slot of a wide
    entry is spelled by none. -/
theorem areSpelledBy_of_constants {n : Nat} {before entries : List Constant} {c c' : Cursor}
    (h : Read.constants n before c = .ok (entries, c')) :
    ∃ more spellings, entries = before.reverse ++ more ∧ more.length = n ∧
      List.Forall₂ Constant.IsSpelledBy more spellings ∧
      c.rest = spellings.flatten ++ c'.rest := by
  induction n using Nat.strongRecOn generalizing before c with
  | ind n ih =>
    -- With one slot left no wide entry fits, so this case stands apart.
    match n with
    | 0 =>
      obtain ⟨rfl, rfl⟩ := read_pure_eq_ok.1 h
      exact ⟨[], [], by simp⟩
    | 1 =>
      obtain ⟨k, c₁, hk, hrest⟩ := read_bind_eq_ok.1 h
      obtain ⟨bytes, hspelled, hbytes⟩ := isSpelledBy_of_constant hk
      split at hrest
      · cases hrest
      · obtain ⟨rfl, rfl⟩ := read_pure_eq_ok.1 hrest
        exact ⟨[k], [bytes], by simp, rfl, .cons hspelled .nil, by simpa using hbytes⟩
    | n + 2 =>
      obtain ⟨k, c₁, hk, hrest⟩ := read_bind_eq_ok.1 h
      obtain ⟨bytes, hspelled, hbytes⟩ := isSpelledBy_of_constant hk
      split at hrest
      · obtain ⟨more, spellings, rfl, hlength, hmore, hrest⟩ := ih n (by omega) hrest
        refine ⟨k :: .unusable :: more, bytes :: [] :: spellings, by simp, by simp [hlength],
          .cons hspelled (.cons rfl hmore), ?_⟩
        rw [hbytes, hrest]
        simp
      · obtain ⟨more, spellings, rfl, hlength, hmore, hrest⟩ := ih (n + 1) (by omega) hrest
        refine ⟨k :: more, bytes :: spellings, by simp, by simp [hlength],
          .cons hspelled hmore, ?_⟩
        rw [hbytes, hrest]
        simp

theorem areSpelledBy_of_pool {p : Pool} {c c' : Cursor} (h : Read.pool c = .ok (p, c')) :
    ∃ spellings, List.Forall₂ Constant.IsSpelledBy p.toList spellings ∧
      c.rest = Word.bytes16 (UInt16.ofNat (p.size + 1)) ++ spellings.flatten ++ c'.rest := by
  obtain ⟨w, c₁, hw, hentries⟩ := read_bind_eq_ok.1 h
  cases hslots : w.toNat with
  | zero =>
    rw [hslots] at hentries
    cases hentries
  | succ slots =>
    rw [hslots] at hentries
    obtain ⟨entries, c₂, hconstants, hp⟩ := read_bind_eq_ok.1 hentries
    obtain ⟨rfl, rfl⟩ := read_pure_eq_ok.1 hp
    obtain ⟨more, spellings, rfl, hlength, hspelled, hbytes⟩ := areSpelledBy_of_constants hconstants
    refine ⟨spellings, hspelled, ?_⟩
    have hsize : (Pool.ofList entries).size = slots := hlength
    rw [isCanonical_word16 _ _ _ hw, hbytes, hsize, ← hslots, UInt16.ofNat_toNat,
      List.append_assoc]

/-! ### Class files -/

theorem areSpelledBy_of_classFile {f : ClassFile} {c c' : Cursor}
    (h : Read.classFile c = .ok (f, c')) :
    ∃ spellings, List.Forall₂ Constant.IsSpelledBy f.pool.toList spellings ∧
      c.rest = f.encodeSpelled spellings ++ c'.rest := by
  simp only [Read.classFile] at h
  obtain ⟨found, c₁, hfound, h⟩ := read_bind_eq_ok.1 h
  split at h
  · rename_i hmagic
    simp only [read_bind_eq_ok, read_pure_eq_ok] at h
    obtain ⟨minor, c₂, hminor, major, c₃, hmajor, pool, c₄, hpool, access, c₅, haccess, this, c₆,
      hthis, super, c₇, hsuper, interfaces, c₈, hinterfaces, fields, c₉, hfields, methods, c₁₀,
      hmethods, attributes, c₁₁, hattributes, rfl, rfl⟩ := h
    obtain ⟨spellings, hspelled, hbytes⟩ := areSpelledBy_of_pool hpool
    refine ⟨spellings, hspelled, ?_⟩
    rw [isCanonical_word32 _ _ _ hfound, hmagic, isCanonical_word16 _ _ _ hminor,
      isCanonical_word16 _ _ _ hmajor, hbytes, isCanonical_word16 _ _ _ haccess,
      isCanonical_word16 _ _ _ hthis, isCanonical_word16 _ _ _ hsuper,
      isCanonical_list isCanonical_word16 _ _ _ hinterfaces,
      isCanonical_list isCanonical_member _ _ _ hfields,
      isCanonical_list isCanonical_member _ _ _ hmethods,
      isCanonical_list isCanonical_attr _ _ _ hattributes, encodeSpelled]
    simp only [List.append_assoc]
  · obtain ⟨_, _, hthrow, -⟩ := read_bind_eq_ok.1 h
    cases hthrow

/-- What is read has been written, but for the spelling of the texts in its pool. -/
theorem exists_spellings {bytes : List UInt8} {c : ClassFile} (h : ofBytes bytes = .ok c) :
    ∃ spellings, List.Forall₂ Constant.IsSpelledBy c.pool.toList spellings ∧
      bytes = c.encodeSpelled spellings := by
  obtain ⟨⟨f, cursor⟩, hread, hrest⟩ := Except.bind_eq_ok.1 h
  obtain ⟨spellings, hspelled, hbytes⟩ := areSpelledBy_of_classFile hread
  simp only at hrest
  split at hrest
  · rename_i hnil
    cases hrest
    rw [hnil, List.append_nil] at hbytes
    exact ⟨spellings, hspelled, hbytes⟩
  · cases hrest

theorem encodeSpelled_inj {c : ClassFile} {spellings others : List (List UInt8)} :
    c.encodeSpelled spellings = c.encodeSpelled others ↔ spellings.flatten = others.flatten := by
  simp [encodeSpelled]

end ClassFile

/-- A constant's bytes end where those do that are written for it, if these come in their
    place. -/
theorem Constant.IsSpelledBy.eq_of_append {k : Constant} {bytes rest rest' : List UInt8}
    (h : k.IsSpelledBy bytes) (heq : bytes ++ rest = k.encode ++ rest') :
    bytes = k.encode ∧ rest = rest' := by
  have hlength : bytes.length = k.encode.length := by
    cases k with
    | utf8 s =>
      obtain ⟨text, hs, htext, rfl⟩ := h
      -- The lengths stand in front of the texts.
      have hfront : (1 :: Word.bytes16 (lengthWord text)) ++ (text ++ rest) =
          (1 :: Word.bytes16 (lengthWord (ModifiedUtf8.encode s))) ++
            (ModifiedUtf8.encode s ++ rest') := by simpa [encode] using heq
      have hwords := (List.append_inj hfront rfl).1
      have hword := congrArg (fun l => Word.of16 (l.getD 1 0) (l.getD 2 0)) hwords
      simp only [Word.bytes16, List.getD_cons_succ, List.getD_cons_zero, Word.of16_bytes16] at hword
      have hlengths := congrArg UInt16.toNat hword
      rw [lengthWord, lengthWord, UInt16.toNat_ofNat_of_lt' (Nat.lt_succ_of_le htext),
        UInt16.toNat_ofNat_of_lt' (Nat.lt_succ_of_le
          (Nat.le_trans (ModifiedUtf8.length_encode_le hs) htext))] at hlengths
      simp [encode, hlengths]
    | _ => rw [h]
  exact List.append_inj heq hlength

namespace ClassFile

theorem eq_of_flatten {constants : List Constant} {spellings : List (List UInt8)}
    (h : List.Forall₂ Constant.IsSpelledBy constants spellings)
    (heq : spellings.flatten = (constants.map Constant.encode).flatten) :
    spellings = constants.map Constant.encode := by
  induction h with
  | nil => rfl
  | cons hk _ ih =>
    obtain ⟨hbytes, hrest⟩ := hk.eq_of_append heq
    rw [List.map_cons, hbytes, ih hrest]

/-- A file is the one that is written for its class exactly if each constant is spelled as it is
    written. -/
theorem encode_eq_iff {c : ClassFile} {spellings : List (List UInt8)}
    (h : List.Forall₂ Constant.IsSpelledBy c.pool.toList spellings) :
    c.encode = c.encodeSpelled spellings ↔ spellings = c.pool.toList.map Constant.encode := by
  rw [encode_eq_encodeSpelled, encodeSpelled_inj]
  exact ⟨fun heq => eq_of_flatten h heq.symm, fun heq => by rw [heq]⟩

/-- A class file with a text that can be spelled longer is read from bytes that are not
    written for it. -/
theorem exists_overlong {c : ClassFile} (hc : c.Fits) {s : String} {ch : Char}
    (hs : .utf8 s ∈ c.pool.toList) (hch : ch ∈ s.toList) (hpos : ch.toNat ≠ 0)
    (hlt : ch.toNat < 0x80) (hroom : (ModifiedUtf8.encode s).length < 65535) :
    ∃ bytes, bytes ≠ c.encode ∧ ofBytes bytes = ofBytes c.encode := by
  obtain ⟨text, hdecode, hlength⟩ := ModifiedUtf8.exists_overlong hch hpos hlt
  obtain ⟨front, back, hpool⟩ := List.append_of_mem hs
  have hwritten : ∀ l : List Constant, (∀ k ∈ l, k ∈ c.pool.toList) →
      List.Forall₂ Constant.IsSpelledBy l (l.map Constant.encode) := fun l hl =>
    List.forall₂_map_right_iff.2 (List.forall₂_same.2 fun k hk =>
      Constant.isSpelledBy_encode (hc.texts k (hl k hk)))
  have hspelled : List.Forall₂ Constant.IsSpelledBy c.pool.toList
      (front.map Constant.encode ++ (1 :: Word.bytes16 (Constant.lengthWord text) ++ text) ::
        back.map Constant.encode) := by
    rw [hpool]
    exact List.rel_append (hwritten front fun k hk => by simp [hpool, hk])
      (.cons ⟨text, hdecode, by omega, rfl⟩ (hwritten back fun k hk => by simp [hpool, hk]))
  refine ⟨_, fun heq => ?_, (ofBytes_encodeSpelled hc hspelled).trans (ofBytes_encode hc).symm⟩
  -- The longer text makes the pool longer.
  rw [encode_eq_encodeSpelled, encodeSpelled_inj, hpool] at heq
  have hlengths := congrArg List.length heq
  simp [Constant.encode, hlength] at hlengths

end ClassFile

end ComponentViews
