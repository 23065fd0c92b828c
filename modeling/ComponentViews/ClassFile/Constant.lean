import Std.Data.TreeMap
import ComponentViews.ClassFile.Word
import ComponentViews.Text.ModifiedUtf8

/-!
# Constants

The entries of a constant pool. Floating-point numbers are their bits, so that two
that print alike can be different entries.
-/

namespace ComponentViews

/-- An entry of a constant pool. -/
inductive Constant where
  | utf8 (s : String)
  | integer (n : UInt32)
  | float (bits : UInt32)
  | long (n : UInt64)
  | double (bits : UInt64)
  | classRef (name : UInt16)
  | string (text : UInt16)
  | fieldRef (owner nameAndType : UInt16)
  | methodRef (owner nameAndType : UInt16)
  | interfaceMethodRef (owner nameAndType : UInt16)
  | nameAndType (name descriptor : UInt16)
  /-- The second slot of a long or double. -/
  | unusable
deriving DecidableEq, Repr, Inhabited

namespace Constant

/-- An entry that takes two slots. -/
def isWide : Constant → Bool
  | long _ | double _ => true
  | _ => false

/-- A text. -/
def isUtf8 : Constant → Bool
  | utf8 _ => true
  | _ => false

/-- The name of a class. -/
def isClass : Constant → Bool
  | classRef _ => true
  | _ => false

/-- The name and type of a member. -/
def isNameAndType : Constant → Bool
  | nameAndType _ _ => true
  | _ => false

/-- A length as the word that is written for it. -/
def lengthWord {α : Type} (l : List α) : UInt16 := UInt16.ofNat l.length

/-- The bytes of an entry: its tag and its contents. -/
def encode : Constant → List UInt8
  | utf8 s =>
    let text := ModifiedUtf8.encode s
    1 :: Word.bytes16 (lengthWord text) ++ text
  | integer n => 3 :: Word.bytes32 n
  | float bits => 4 :: Word.bytes32 bits
  | long n => 5 :: Word.bytes64 n
  | double bits => 6 :: Word.bytes64 bits
  | classRef name => 7 :: Word.bytes16 name
  | string text => 8 :: Word.bytes16 text
  | fieldRef owner nat => 9 :: Word.bytes16 owner ++ Word.bytes16 nat
  | methodRef owner nat => 10 :: Word.bytes16 owner ++ Word.bytes16 nat
  | interfaceMethodRef owner nat => 11 :: Word.bytes16 owner ++ Word.bytes16 nat
  | nameAndType name descriptor => 12 :: Word.bytes16 name ++ Word.bytes16 descriptor
  | unusable => []

/-! ### Order -/

/-- What tells an entry from others: its kind, the numbers in it and its text. -/
def key : Constant → Nat × Nat × Nat × String
  | utf8 s => (0, 0, 0, s)
  | integer n => (1, n.toNat, 0, "")
  | float bits => (2, bits.toNat, 0, "")
  | long n => (3, n.toNat, 0, "")
  | double bits => (4, bits.toNat, 0, "")
  | classRef name => (5, name.toNat, 0, "")
  | string text => (6, text.toNat, 0, "")
  | fieldRef owner nat => (7, owner.toNat, nat.toNat, "")
  | methodRef owner nat => (8, owner.toNat, nat.toNat, "")
  | interfaceMethodRef owner nat => (9, owner.toNat, nat.toNat, "")
  | nameAndType name descriptor => (10, name.toNat, descriptor.toNat, "")
  | unusable => (11, 0, 0, "")

theorem key_injective {a b : Constant} (h : a.key = b.key) : a = b := by
  cases a <;> cases b <;>
    simp_all [key, UInt16.toNat_inj, UInt32.toNat_inj, UInt64.toNat_inj]

/-- Entries in an order in which equal ones can be found: by kind, by numbers and by text. -/
def compareKeys : Constant → Constant → Ordering :=
  compareLex (compareOn (·.key.1)) (compareLex (compareOn (·.key.2.1))
    (compareLex (compareOn (·.key.2.2.1)) (compareOn (·.key.2.2.2))))

instance : Ord Constant := ⟨compareKeys⟩

instance : Std.TransCmp compareKeys := by
  unfold compareKeys
  infer_instance

instance : Std.TransOrd Constant := inferInstanceAs (Std.TransCmp compareKeys)

instance : Std.LawfulEqOrd Constant where
  eq_of_compare {a b} h := by
    have h : compareKeys a b = .eq := h
    simp only [compareKeys, compareLex_eq_eq, compareOn, Std.LawfulEqCmp.compare_eq_iff_eq] at h
    obtain ⟨hkind, hfirst, hsecond, htext⟩ := h
    exact key_injective (Prod.ext hkind (Prod.ext hfirst (Prod.ext hsecond htext)))

end Constant

end ComponentViews
