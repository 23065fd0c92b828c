import ComponentViews.Text.ModifiedUtf8

/-!
# Modified UTF-8 loses nothing

Every text can be told from the bytes that a class file spells it with
(`ModifiedUtf8.decode?_encode`), whatever characters are in it: NUL takes two bytes, and a
character beyond the first plane takes the six bytes of its two surrogates.
-/

namespace ComponentViews

namespace Utf16

/-- The characters before do not matter for how the units that follow are read. -/
theorem toText?_units (text : List Char) (c : Char) (rest : List Nat) :
    toText? text (units c ++ rest) = toText? (c :: text) rest := by
  have hvalid : c.toNat < 0xD800 ∨ (0xDFFF < c.toNat ∧ c.toNat < 0x110000) := by
    have := c.valid
    simp only [UInt32.isValidChar, Nat.isValidChar] at this
    show c.val.toNat < 0xD800 ∨ (0xDFFF < c.val.toNat ∧ c.val.toNat < 0x110000)
    omega
  rw [units]
  split
  · rw [List.singleton_append, toText?.eq_def]
    simp only
    rw [if_pos (by omega), Char.ofNat_toNat]
  · -- Two surrogates; the character is put together again from what they carry.
    rw [List.cons_append, List.singleton_append, toText?.eq_def]
    simp only
    rw [if_neg (by omega), if_neg (by omega), if_pos (by omega)]
    have hback : 0x10000 + (0xD800 + (c.toNat - 0x10000) / 0x400 - 0xD800) * 0x400 +
        (0xDC00 + (c.toNat - 0x10000) % 0x400 - 0xDC00) = c.toNat := by
      omega
    rw [hback, Char.ofNat_toNat]

theorem toText?_ofText (text : List Char) : toText? [] (ofText text) = some text := by
  suffices h : ∀ before, toText? before (ofText text) = some (before.reverse ++ text) by
    simpa using h []
  induction text with
  | nil => simp [ofText, toText?]
  | cons c text ih =>
    intro before
    rw [show ofText (c :: text) = units c ++ ofText text from rfl, toText?_units, ih]
    simp

theorem lt_of_mem_ofText {text : List Char} {u : Nat} (hu : u ∈ ofText text) : u < 0x10000 := by
  obtain ⟨c, -, hc⟩ := List.mem_flatMap.1 hu
  exact units_lt hc

end Utf16

namespace ModifiedUtf8

theorem decodeUnits?_encodeUnit {u : Nat} (hu : u < 0x10000) (units : List Nat)
    (rest : List UInt8) :
    decodeUnits? units (encodeUnit u ++ rest) = decodeUnits? (u :: units) rest := by
  have htoNat : ∀ {n : Nat}, n < 256 → (UInt8.ofNat n).toNat = n :=
    fun hn => UInt8.toNat_ofNat_of_lt' hn
  rw [encodeUnit]
  split
  · rw [List.singleton_append, decodeUnits?.eq_def]
    simp only
    rw [htoNat (by omega), if_pos (by omega)]
  split
  · rw [List.cons_append, List.singleton_append, decodeUnits?.eq_def]
    simp only
    rw [htoNat (by omega), if_neg (by omega), if_pos (by omega), htoNat (by omega)]
    congr 2
    omega
  · rw [List.cons_append, List.cons_append, List.singleton_append, decodeUnits?.eq_def]
    simp only
    rw [htoNat (by omega), if_neg (by omega), if_neg (by omega), if_pos (by omega),
      htoNat (by omega), htoNat (by omega)]
    congr 2
    omega

theorem decodeUnits?_flatMap {us : List Nat} (hus : ∀ u ∈ us, u < 0x10000) (units : List Nat) :
    decodeUnits? units (us.flatMap encodeUnit) = some (units.reverse ++ us) := by
  induction us generalizing units with
  | nil => simp [decodeUnits?]
  | cons u us ih =>
    rw [List.flatMap_cons, decodeUnits?_encodeUnit (hus u List.mem_cons_self),
      ih fun v hv => hus v (List.mem_cons_of_mem _ hv)]
    simp

/-- A text can be told from its bytes. -/
theorem decode?_encode (s : String) : decode? (encode s) = some s := by
  rw [decode?, encode, decodeUnits?_flatMap fun _ hu => Utf16.lt_of_mem_ofText hu]
  simp [Utf16.toText?_ofText]

end ModifiedUtf8

end ComponentViews
