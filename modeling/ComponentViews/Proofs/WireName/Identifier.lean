import ComponentViews.Text.Case
import ComponentViews.WireName.Idl
import Mathlib.Data.List.Basic

/-!
# Identifiers

An *identifier* of the interface language is a text of letters, digits and underscores that
does not begin with an underscore (`Idl.IsIdentifier`). Whatever characters a name has, its
escaped form is one (`Idl.isIdentifier_escapeIdentifier`), and it stays one when words are
appended: the names of types (`Idl.isWord_typeName`) and underscores.

Identifiers are ASCII, where the lower-case form of a text has its length
(`Text.length_lowercase`).
-/

namespace ComponentViews

namespace Text

/-! ### Letter case of ASCII texts -/

/-- In ASCII each character is put in lower case on its own. -/
theorem lowercaseChars_of_ascii {cs : List Char} (hcs : ∀ c ∈ cs, c.toNat < 0x80) :
    lowercaseChars cs = cs.map Char.toLower := by
  suffices h : ∀ before, lowercaseChars.go before cs = cs.map Char.toLower from h []
  induction cs with
  | nil => exact fun _ => rfl
  | cons c rest ih =>
    intro before
    have hc := hcs c List.mem_cons_self
    rw [lowercaseChars.go, if_neg (by omega), lowerChar, if_pos hc,
      ih fun d hd => hcs d (List.mem_cons_of_mem _ hd)]
    rfl

theorem length_lowercase {s : String} (hs : ∀ c ∈ s.toList, c.toNat < 0x80) :
    (lowercase s).toList.length = s.toList.length := by
  rw [lowercase, lowercaseChars_of_ascii hs, String.toList_ofList, List.length_map]

end Text

namespace Idl

/-! ### Words -/

/-- A text of letters, digits and underscores. -/
def IsWord (s : String) : Prop := ∀ c ∈ s.toList, isIdentifierChar c = true

instance (s : String) : Decidable (IsWord s) := List.decidableBAll _ s.toList

variable {s t : String}

theorem isWord_append : IsWord (s ++ t) ↔ IsWord s ∧ IsWord t := by
  simp [IsWord, or_imp, forall_and]

theorem IsWord.append (hs : IsWord s) (ht : IsWord t) : IsWord (s ++ t) :=
  isWord_append.2 ⟨hs, ht⟩

theorem IsWord.intercalate {parts : List String} (hs : IsWord s) (hparts : ∀ p ∈ parts, IsWord p) :
    IsWord (s.intercalate parts) := by
  intro c hc
  rw [String.toList_intercalate] at hc
  induction parts with
  | nil => simp at hc
  | cons p rest ih =>
    have hp := hparts p List.mem_cons_self
    cases rest with
    | nil => exact hp c (by simpa [List.intercalate] using hc)
    | cons q rest =>
      rw [List.map_cons, List.map_cons, List.intercalate, List.intersperse_cons_cons,
        List.flatten_cons, List.flatten_cons, List.mem_append, List.mem_append] at hc
      rcases hc with hc | hc | hc
      · exact hp c hc
      · exact hs c hc
      · exact ih (fun r hr => hparts r (List.mem_cons_of_mem _ hr)) hc

theorem isWord_repr (n : Nat) : IsWord n.repr := by
  intro c hc
  rw [Nat.toList_repr] at hc
  have hdigit := Nat.isDigit_of_mem_toDigits (by decide) (by decide) hc
  rw [isIdentifierChar, Char.isAlphanum, hdigit]
  simp

theorem toNat_lt_of_isIdentifierChar {c : Char} (hc : isIdentifierChar c = true) :
    c.toNat < 0x80 := by
  delta isIdentifierChar Char.isAlphanum Char.isAlpha Char.isUpper Char.isLower Char.isDigit at hc
  simp only [Bool.or_eq_true, Bool.and_eq_true, decide_eq_true_eq, beq_iff_eq, ge_iff_le,
    UInt32.le_iff_toNat_le] at hc
  change ((((65 ≤ c.toNat ∧ c.toNat ≤ 90) ∨ (97 ≤ c.toNat ∧ c.toNat ≤ 122)) ∨
    (48 ≤ c.toNat ∧ c.toNat ≤ 57)) ∨ c = '_') at hc
  rcases hc with ((hc | hc) | hc) | rfl
  · omega
  · omega
  · omega
  · decide

theorem IsWord.ascii (hs : IsWord s) : ∀ c ∈ s.toList, c.toNat < 0x80 :=
  fun c hc => toNat_lt_of_isIdentifierChar (hs c hc)

/-- A word does not keep its letters when something is appended. -/
theorem IsWord.lowercase_append_ne (hs : IsWord s) (ht : IsWord t) (hne : t ≠ "") :
    Text.lowercase (s ++ t) ≠ Text.lowercase s := by
  intro heq
  have hlength : (Text.lowercase (s ++ t)).toList.length = (Text.lowercase s).toList.length := by
    rw [heq]
  rw [Text.length_lowercase (hs.append ht).ascii, Text.length_lowercase hs.ascii,
    String.toList_append, List.length_append, Nat.add_eq_left, List.length_eq_zero_iff,
    String.toList_eq_nil_iff] at hlength
  exact hne hlength

/-! ### Escaped names -/

theorem isIdentifierChar_hexDigit : ∀ n < 16, isIdentifierChar (hexDigit n) = true := by decide

theorem isIdentifierChar_of_mem_escapeChar {c d : Char} (hd : d ∈ escapeChar c) :
    isIdentifierChar d = true := by
  rw [escapeChar] at hd
  split at hd
  · rename_i hc
    rw [List.mem_singleton.1 hd]
    exact hc
  · obtain ⟨u, -, hd⟩ := List.mem_flatMap.1 hd
    simp only [escapeUnit, List.mem_cons, List.not_mem_nil, or_false] at hd
    rcases hd with rfl | rfl | rfl | rfl | rfl
    · decide
    all_goals exact isIdentifierChar_hexDigit _ (Nat.mod_lt _ (by decide))

theorem isWord_escapeIdentifier (name : String) : IsWord (escapeIdentifier name) := by
  intro c hc
  rw [escapeIdentifier, String.toList_ofList, escapeChars, List.mem_append] at hc
  rcases hc with hc | hc
  · split at hc
    · rw [List.mem_singleton.1 hc]
      decide
    · exact absurd hc List.not_mem_nil
  · obtain ⟨d, -, hc⟩ := List.mem_flatMap.1 hc
    exact isIdentifierChar_of_mem_escapeChar hc

/-- What a character is escaped to does not begin with an underscore, unless it is one. -/
theorem head?_escapeChar {c : Char} (hc : c ≠ '_') :
    ∃ d rest, escapeChar c = d :: rest ∧ d ≠ '_' := by
  rw [escapeChar]
  split
  · exact ⟨c, [], rfl, hc⟩
  · have hne : Utf16.units c ≠ [] := by
      rw [Utf16.units]
      split <;> simp
    obtain ⟨u, us, hunits⟩ := List.exists_cons_of_ne_nil hne
    rw [hunits, List.flatMap_cons, escapeUnit, List.cons_append]
    exact ⟨'U', _, rfl, by decide⟩

/-! ### Identifiers -/

/-- A name of the interface language: a word that does not begin with an underscore. -/
structure IsIdentifier (name : String) : Prop where
  nonempty : name ≠ ""
  word : IsWord name
  start : name.toList.head? ≠ some '_'

theorem isIdentifier_escapeIdentifier {name : String} (hname : name ≠ "") :
    IsIdentifier (escapeIdentifier name) := by
  obtain ⟨c, rest, hcs⟩ := List.exists_cons_of_ne_nil fun h => hname (String.toList_eq_nil_iff.1 h)
  have hbegins : ∃ d more, escapeChars name.toList = d :: more ∧ d ≠ '_' := by
    rw [hcs, escapeChars, List.head?_cons]
    by_cases hc : c = '_'
    · rw [hc, if_pos rfl]
      exact ⟨'J', _, rfl, by decide⟩
    · obtain ⟨d, more, hd, hne⟩ := head?_escapeChar hc
      rw [if_neg (by simpa using hc), List.flatMap_cons, hd]
      exact ⟨d, _, rfl, hne⟩
  obtain ⟨d, more, hd, hne⟩ := hbegins
  constructor
  · intro hempty
    have hnil := String.toList_eq_nil_iff.2 hempty
    rw [escapeIdentifier, String.toList_ofList, hd] at hnil
    cases hnil
  · exact isWord_escapeIdentifier name
  · rw [escapeIdentifier, String.toList_ofList, hd, List.head?_cons]
    simpa using hne

/-- An identifier stands for itself. -/
theorem IsIdentifier.escapeIdentifier_eq {name : String} (hname : IsIdentifier name) :
    escapeIdentifier name = name := by
  have hchars : name.toList.flatMap escapeChar = name.toList := by
    have hself : ∀ c ∈ name.toList, escapeChar c = [c] := fun c hc => if_pos (hname.word c hc)
    rw [List.flatMap_congr hself, List.flatMap_singleton']
  rw [escapeIdentifier, escapeChars, if_neg hname.start, List.nil_append, hchars,
    String.ofList_toList]

theorem IsIdentifier.append (hs : IsIdentifier s) (ht : IsWord t) : IsIdentifier (s ++ t) where
  nonempty := fun h => hs.nonempty (by
    rw [← String.toList_eq_nil_iff, String.toList_append, List.append_eq_nil_iff] at h
    exact String.toList_eq_nil_iff.1 h.1)
  word := hs.word.append ht
  start := by
    obtain ⟨c, rest, hcs⟩ := List.exists_cons_of_ne_nil fun h =>
      hs.nonempty (String.toList_eq_nil_iff.1 h)
    have hstart := hs.start
    rw [hcs] at hstart
    rw [String.toList_append, hcs]
    exact hstart

/-! ### Names of types -/

theorem isWord_elementParts (name : String) :
    (∀ outer ∈ (elementParts name).1, IsWord outer) ∧ IsWord (elementParts name).2 := by
  have hsegments : ∀ p ∈ (Dotted.segments name).map escapeIdentifier, IsWord p := by
    intro p hp
    obtain ⟨segment, -, rfl⟩ := List.mem_map.1 hp
    exact isWord_escapeIdentifier segment
  have hlast : ∀ {parts : List String}, (∀ p ∈ parts, IsWord p) → IsWord (parts.getLastD "") := by
    intro parts hparts
    rw [List.getLastD_eq_getLast?]
    cases hlast : parts.getLast? with
    | none => decide
    | some p => exact hparts p (List.mem_of_getLast? hlast)
  rw [elementParts]
  split
  · rename_i p _
    exact ⟨fun _ h => absurd h (by simp), by cases p <;> decide⟩
  -- Three classes have names of their own; any other one has those of its segments.
  rw [classParts]
  split
  · exact ⟨fun outer h => by rw [← Option.some.inj h]; decide, by decide⟩
  split
  · exact ⟨fun outer h => by rw [← Option.some.inj h]; decide, by decide⟩
  split
  · exact ⟨fun _ h => absurd h (by simp), by decide⟩
  dsimp only
  split
  · exact ⟨fun _ h => absurd h (by simp), hlast hsegments⟩
  · refine ⟨fun outer h => ?_, hlast hsegments⟩
    rw [← Option.some.inj h]
    exact IsWord.intercalate (by decide) fun p hp => hsegments p (List.dropLast_subset _ hp)

theorem isWord_typeName (ty : Ty) : IsWord (typeName ty) := by
  obtain ⟨houter, hsimple⟩ := isWord_elementParts ty.name
  rw [typeName]
  generalize elementParts ty.name = parts at houter hsimple ⊢
  obtain ⟨outer, simple⟩ := parts
  have hsequence : IsWord s!"seq{ty.dims}_{simple}" :=
    .append (.append (.append (by decide) (isWord_repr ty.dims)) (by decide)) hsimple
  cases outer with
  | none =>
    dsimp only
    split
    · exact .append (by decide) hsequence
    · exact hsimple
  | some outer =>
    have houterWord : IsWord (outer ++ "_") := (houter outer rfl).append (by decide)
    dsimp only
    split
    · exact .append (by decide) (houterWord.append hsequence)
    · exact houterWord.append hsimple

end Idl

end ComponentViews
