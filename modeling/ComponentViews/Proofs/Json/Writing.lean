import ComponentViews.Json.Parser
import ComponentViews.Json.Printer
import ComponentViews.Proofs.Checks

/-!
# Reading undoes writing

A value is read back from the text that is written for it, whatever stands behind it, if nothing in
it is broken off and there is no number in it (`Json.IsWhole.readsBack`). So a reader finds in a
text that has been written what it finds in the value itself (`Json.readText_compact`).

The reader is driven by fuel. A value takes no more of it than twice the length of its text, since
every item of an array and every entry of an object has a character of its own beside it.
-/

namespace ComponentViews

theorem Text.Hex.digit?_digitChar {n : Nat} (h : n < 16) : digit? (digitChar n) = some n := by
  have hall : ∀ n < 16, digit? (digitChar n) = some n := by decide
  exact hall n h

namespace Json

/-! ### Strings -/

theorem hexUnit_digits {a b c d : Char} {x y z w : Nat} (ha : Text.Hex.digit? a = some x)
    (hb : Text.Hex.digit? b = some y) (hc : Text.Hex.digit? c = some z)
    (hd : Text.Hex.digit? d = some w) (rest : List Char) :
    hexUnit (a :: b :: c :: d :: rest) = .ok (((x * 16 + y) * 16 + z) * 16 + w, rest) := by
  have hsize : ¬ ((a :: b :: c :: d :: rest).take 4).foldr (fun c n => c.utf8Size + n) 0 < 4 := by
    have hpos := fun c : Char => c.utf8Size_pos
    have := hpos a
    have := hpos b
    have := hpos c
    have := hpos d
    simp only [List.take_succ_cons, List.take_zero, List.foldr_cons, List.foldr_nil]
    omega
  rw [hexUnit, if_neg hsize]
  simp only [ha, hb, hc, hd]

/-- A character is scanned from what is written for it. -/
theorem scanString_escapeChar (c : Char) (fuel : Nat) (text rest : List Char) :
    scanString (fuel + 1) (some text) (escapeChar c ++ rest) =
      scanString fuel (some (c :: text)) rest := by
  unfold escapeChar
  split
  · rfl
  · rfl
  · rfl
  · rfl
  · rfl
  · rfl
  · rfl
  · rename_i hquote hbackslash _ _ _ _ _
    split
    · -- Controls are written in four digits, of which the first two are zeros.
      rename_i hcontrol
      have hunit := hexUnit_digits (a := '0') (b := '0') (x := 0) (y := 0) (by decide) (by decide)
        (Text.Hex.digit?_digitChar (show c.toNat / 16 < 16 by omega))
        (Text.Hex.digit?_digitChar (show c.toNat % 16 < 16 by omega)) rest
      have hvalue : ((0 * 16 + 0) * 16 + c.toNat / 16) * 16 + c.toNat % 16 = c.toNat := by omega
      rw [hvalue] at hunit
      have hbyte : (UInt8.ofNat c.toNat).toNat = c.toNat :=
        UInt8.toNat_ofNat_of_lt' (Nat.lt_of_lt_of_le hcontrol (by decide))
      rw [Text.Hex.encodeByte, hbyte]
      show scanString (fuel + 1) (some text)
        ('\\' :: 'u' :: '0' :: '0' :: Text.Hex.digitChar (c.toNat / 16) ::
          Text.Hex.digitChar (c.toNat % 16) :: rest) = _
      rw [scanString, hunit]
      simp only
      rw [if_pos (.inl (by omega)), Option.map_some, Char.ofNat_toNat]
    · rename_i hvisible
      rw [List.singleton_append, scanString, if_neg hvisible, Option.map_some]
      all_goals simp_all

theorem length_escapeChar_pos (c : Char) : 0 < (escapeChar c).length := by
  unfold escapeChar
  split <;> try simp
  split <;> simp

/-- The characters of a string are scanned up to its closing quote. -/
theorem scanString_flatMap {cs : List Char} {fuel : Nat}
    (hfuel : (cs.flatMap escapeChar).length < fuel) (text rest : List Char) :
    scanString fuel (some text) (cs.flatMap escapeChar ++ '"' :: rest) =
      .ok (some (text.reverse ++ cs), rest) := by
  induction cs generalizing fuel text with
  | nil =>
    obtain ⟨fuel, rfl⟩ : ∃ n, fuel = n + 1 := ⟨fuel - 1, by simp at hfuel; omega⟩
    simp [scanString]
  | cons c cs ih =>
    have hpos := length_escapeChar_pos c
    rw [List.flatMap_cons, List.length_append] at hfuel
    obtain ⟨fuel, rfl⟩ : ∃ n, fuel = n + 1 := ⟨fuel - 1, by omega⟩
    rw [List.flatMap_cons, List.append_assoc, scanString_escapeChar, ih (by omega)]
    simp

theorem parseString_quote (s : String) (rest : List Char) :
    parseString (s.toList.flatMap escapeChar ++ '"' :: rest) = (string s, some rest) := by
  rw [parseString, scanString_flatMap (by simp only [List.length_append, List.length_cons]; omega)]
  simp

/-! ### Values -/

/-- Nothing in the value is broken off, and there is no number in it. -/
inductive IsWhole : Json → Prop
  | null : IsWhole null
  | bool (b : Bool) : IsWhole (bool b)
  | string (s : String) : IsWhole (string s)
  | list {items : List Json} (hitems : ∀ j ∈ items, IsWhole j) : IsWhole (ofList items)
  | entries {entries : List (String × Json)} (hentries : ∀ e ∈ entries, IsWhole e.2) :
    IsWhole (ofEntries entries)

attribute [simp] IsWhole.null IsWhole.bool IsWhole.string

@[simp] theorem IsWhole.ofOption {α : Type} {write : α → Json} (hwrite : ∀ a, (write a).IsWhole)
    (value : Option α) : (ofOption write value).IsWhole := by
  cases value with
  | none => exact .null
  | some a => exact hwrite a

@[simp] theorem IsWhole.map {α : Type} {write : α → Json} (hwrite : ∀ a, (write a).IsWhole)
    (values : List α) : (ofList (values.map write)).IsWhole :=
  .list fun _ hj => by
    obtain ⟨a, -, rfl⟩ := List.mem_map.1 hj
    exact hwrite a

/-- A value is read back from its text, with fuel of twice the length, whatever stands behind. -/
def ReadsBack (j : Json) : Prop :=
  ∀ fuel rest, 2 * (write j).length ≤ fuel → parseValue fuel (write j ++ rest) = (j, some rest)

/-- The text of a value begins neither with a blank nor with the end of an array. -/
theorem IsWhole.write_eq_cons {j : Json} (hj : j.IsWhole) :
    ∃ c cs, write j = c :: cs ∧ isSpace c = false ∧ c ≠ ']' := by
  cases hj with
  | null => exact ⟨'n', _, rfl, by decide, by decide⟩
  | bool b =>
    cases b with
    | true => exact ⟨'t', _, rfl, by decide, by decide⟩
    | false => exact ⟨'f', _, rfl, by decide, by decide⟩
  | string s => exact ⟨'"', _, by rw [write, quote]; rfl, by decide, by decide⟩
  | list => exact ⟨'[', _, by rw [ofList, write]; rfl, by decide, by decide⟩
  | entries => exact ⟨'\x7b', _, by rw [ofEntries, write]; rfl, by decide, by decide⟩

theorem readsBack_null : ReadsBack null := by
  intro fuel rest hfuel
  obtain ⟨fuel, rfl⟩ : ∃ n, fuel = n + 1 := ⟨fuel - 1, by simp [write] at hfuel; omega⟩
  rfl

theorem readsBack_bool (b : Bool) : ReadsBack (bool b) := by
  intro fuel rest hfuel
  obtain ⟨fuel, rfl⟩ : ∃ n, fuel = n + 1 := ⟨fuel - 1, by
    cases b <;> simp [write] at hfuel <;> omega⟩
  cases b <;> rfl

theorem readsBack_string (s : String) : ReadsBack (string s) := by
  intro fuel rest hfuel
  obtain ⟨fuel, rfl⟩ : ∃ n, fuel = n + 1 := ⟨fuel - 1, by simp [write, quote] at hfuel; omega⟩
  have htext : write (string s) ++ rest = '"' :: (s.toList.flatMap escapeChar ++ '"' :: rest) := by
    simp [write, quote]
  rw [htext]
  exact parseString_quote s rest

/-! ### Arrays -/

theorem writeItems_cons (j : Json) (items : List Json) :
    writeItems (j :: items) = write j ++ items.flatMap fun j => ',' :: write j := by
  induction items generalizing j with
  | nil => simp [writeItems]
  | cons next items ih => rw [writeItems, ih, List.flatMap_cons, List.cons_append]; simp

theorem parseItem_write {j : Json} (hj : ReadsBack j) {fuel : Nat}
    (hfuel : 2 * (write j).length ≤ fuel) (items : List Json) (rest : List Char) :
    parseItem (fuel + 1) items (write j ++ rest) = parseItems fuel (j :: items) rest := by
  rw [parseItem, hj fuel rest hfuel]

/-- The items that follow others are read up to the end of the array. -/
theorem parseItems_flatMap {items : List Json} (hitems : ∀ j ∈ items, ReadsBack j)
    {before : List Json} (hbefore : before ≠ []) {fuel : Nat}
    (hfuel : 2 * (items.flatMap fun j => ',' :: write j).length + 2 ≤ fuel) (rest : List Char) :
    parseItems fuel before ((items.flatMap fun j => ',' :: write j) ++ ']' :: rest) =
      (ofList (before.reverse ++ items), some rest) := by
  induction items generalizing before fuel with
  | nil =>
    obtain ⟨fuel, rfl⟩ : ∃ n, fuel = n + 1 := ⟨fuel - 1, by omega⟩
    rw [List.append_nil]
    rfl
  | cons j items ih =>
    obtain ⟨hj, hitems⟩ := List.forall_mem_cons.1 hitems
    simp only [List.flatMap_cons, List.cons_append, List.length_cons, List.length_append] at hfuel
    obtain ⟨fuel, rfl⟩ : ∃ n, fuel = n + 2 := ⟨fuel - 2, by omega⟩
    have hempty : before.isEmpty = false := by simpa using hbefore
    -- One step reads the comma and one the item; its text pays for both.
    have hcomma : parseItems (fuel + 2) before (((j :: items).flatMap fun j => ',' :: write j) ++
        ']' :: rest) = parseItem (fuel + 1) before
          (write j ++ ((items.flatMap fun j => ',' :: write j) ++ ']' :: rest)) := by
      rw [List.flatMap_cons, List.cons_append, List.cons_append, List.append_assoc, parseItems,
        skipSpace, List.dropWhile_cons_of_neg (by decide)]
      simp [hempty]
    rw [hcomma, parseItem_write hj (by omega), ih hitems (by simp) (by omega)]
    simp

/-- The first item of an array stands behind no comma. -/
theorem parseItems_write {j : Json} (hwhole : j.IsWhole) (hj : ReadsBack j) {fuel : Nat}
    (hfuel : 2 * (write j).length ≤ fuel) (rest : List Char) :
    parseItems (fuel + 2) [] (write j ++ rest) = parseItems fuel [j] rest := by
  obtain ⟨c, cs, hwrite, hspace, hend⟩ := hwhole.write_eq_cons
  have hfirst : parseItems (fuel + 2) [] (write j ++ rest) =
      parseItem (fuel + 1) [] (write j ++ rest) := by
    rw [hwrite, List.cons_append, parseItems, skipSpace,
      List.dropWhile_cons_of_neg (by simp [hspace])]
    simp only
    split <;> simp_all
  rw [hfirst, parseItem_write hj hfuel]

theorem readsBack_ofList {items : List Json} (hitems : ∀ j ∈ items, j.IsWhole ∧ ReadsBack j) :
    ReadsBack (ofList items) := by
  intro fuel rest hfuel
  cases items with
  | nil =>
    obtain ⟨fuel, rfl⟩ : ∃ n, fuel = n + 2 := ⟨fuel - 2, by
      simp [write, writeItems, ofList] at hfuel; omega⟩
    rfl
  | cons j items =>
    obtain ⟨⟨hwhole, hj⟩, hitems⟩ := List.forall_mem_cons.1 hitems
    have htext : write (ofList (j :: items)) ++ rest = '[' :: (write j ++
        ((items.flatMap fun j => ',' :: write j) ++ ']' :: rest)) := by
      rw [ofList, write, writeItems_cons]
      simp
    have hpos : 0 < (write j).length := by
      obtain ⟨c, cs, hwrite, -⟩ := hwhole.write_eq_cons
      simp [hwrite]
    have hlength := congrArg List.length htext
    simp only [List.length_append, List.length_cons] at hlength
    obtain ⟨fuel, rfl⟩ : ∃ n, fuel = n + 3 := ⟨fuel - 3, by omega⟩
    rw [htext]
    show parseItems (fuel + 2) [] _ = _
    rw [parseItems_write hwhole hj (by omega),
      parseItems_flatMap (fun j hj => (hitems j hj).2) (by simp) (by omega)]
    rfl

/-! ### Objects -/

/-- The text of an entry of an object. -/
def writeEntry (e : String × Json) : List Char := quote e.1 ++ ':' :: write e.2

theorem writeEntries_cons (e : String × Json) (entries : List (String × Json)) :
    writeEntries ((e :: entries).map fun (key, value) => (some key, value)) =
      writeEntry e ++ entries.flatMap fun e => ',' :: writeEntry e := by
  induction entries generalizing e with
  | nil => simp [writeEntries, writeEntry]
  | cons next entries ih =>
    simp only [List.map_cons] at ih ⊢
    rw [writeEntries, ih]
    · simp [writeEntry]
    · simp

theorem parseEntry_write {e : String × Json} (he : ReadsBack e.2) {fuel : Nat}
    (hfuel : 2 * (writeEntry e).length ≤ fuel) (entries : List (Option String × Json))
    (rest : List Char) :
    parseEntry (fuel + 1) entries (writeEntry e ++ rest) =
      parseEntries fuel ((some e.1, e.2) :: entries) rest := by
  have htext : writeEntry e ++ rest = '"' :: (e.1.toList.flatMap escapeChar ++
      '"' :: (':' :: (write e.2 ++ rest))) := by
    simp [writeEntry, quote]
  have hlength := congrArg List.length htext
  simp only [List.length_append, List.length_cons] at hlength
  rw [htext, parseEntry,
    scanString_flatMap (by simp only [List.length_append, List.length_cons]; omega)]
  simp only [skipSpace]
  rw [List.dropWhile_cons_of_neg (by decide)]
  simp only
  rw [he fuel rest (by omega)]
  simp

/-- The entries that follow others are read up to the end of the object. -/
theorem parseEntries_flatMap {entries : List (String × Json)}
    (hentries : ∀ e ∈ entries, ReadsBack e.2) {before : List (Option String × Json)}
    (hbefore : before ≠ []) {fuel : Nat}
    (hfuel : 2 * (entries.flatMap fun e => ',' :: writeEntry e).length + 2 ≤ fuel)
    (rest : List Char) :
    parseEntries fuel before ((entries.flatMap fun e => ',' :: writeEntry e) ++ '\x7d' :: rest) =
      (object (before.reverse ++ entries.map fun (key, value) => (some key, value)) none,
        some rest) := by
  induction entries generalizing before fuel with
  | nil =>
    obtain ⟨fuel, rfl⟩ : ∃ n, fuel = n + 1 := ⟨fuel - 1, by omega⟩
    rw [List.map_nil, List.append_nil]
    rfl
  | cons e entries ih =>
    obtain ⟨he, hentries⟩ := List.forall_mem_cons.1 hentries
    simp only [List.flatMap_cons, List.cons_append, List.length_cons, List.length_append] at hfuel
    obtain ⟨fuel, rfl⟩ : ∃ n, fuel = n + 2 := ⟨fuel - 2, by omega⟩
    have hempty : before.isEmpty = false := by simpa using hbefore
    have hcomma : parseEntries (fuel + 2) before (((e :: entries).flatMap fun e =>
        ',' :: writeEntry e) ++ '\x7d' :: rest) = parseEntry (fuel + 1) before
          (writeEntry e ++ ((entries.flatMap fun e => ',' :: writeEntry e) ++ '\x7d' :: rest)) := by
      rw [List.flatMap_cons, List.cons_append, List.cons_append, List.append_assoc, parseEntries,
        skipSpace, List.dropWhile_cons_of_neg (by decide)]
      rw [hempty, writeEntry, quote]
      rfl
    rw [hcomma, parseEntry_write he (by omega), ih hentries (by simp) (by omega)]
    simp

theorem readsBack_ofEntries {entries : List (String × Json)}
    (hentries : ∀ e ∈ entries, ReadsBack e.2) : ReadsBack (ofEntries entries) := by
  intro fuel rest hfuel
  cases entries with
  | nil =>
    obtain ⟨fuel, rfl⟩ : ∃ n, fuel = n + 2 := ⟨fuel - 2, by
      simp [write, writeEntries, ofEntries] at hfuel; omega⟩
    rfl
  | cons e entries =>
    obtain ⟨he, hentries⟩ := List.forall_mem_cons.1 hentries
    have htext : write (ofEntries (e :: entries)) ++ rest = '\x7b' :: (writeEntry e ++
        ((entries.flatMap fun e => ',' :: writeEntry e) ++ '\x7d' :: rest)) := by
      rw [ofEntries, write, writeEntries_cons]
      simp
    have hpos : 0 < (writeEntry e).length := by simp [writeEntry, quote]
    have hlength := congrArg List.length htext
    simp only [List.length_append, List.length_cons] at hlength
    -- The fuel is at least the length of the text, which has two braces and an entry.
    obtain ⟨fuel, rfl⟩ : ∃ n, fuel = n + 3 := ⟨fuel - 3, by omega⟩
    have hfirst : parseEntries (fuel + 2) [] (writeEntry e ++
        ((entries.flatMap fun e => ',' :: writeEntry e) ++ '\x7d' :: rest)) =
          parseEntry (fuel + 1) [] (writeEntry e ++
            ((entries.flatMap fun e => ',' :: writeEntry e) ++ '\x7d' :: rest)) := rfl
    rw [htext, parseValue, skipSpace, List.dropWhile_cons_of_neg (by decide)]
    simp only
    rw [hfirst, parseEntry_write he (by omega), parseEntries_flatMap hentries (by simp) (by omega)]
    rfl

/-! ### Texts -/

theorem IsWhole.readsBack {j : Json} (hj : j.IsWhole) : ReadsBack j := by
  induction hj with
  | null => exact readsBack_null
  | bool b => exact readsBack_bool b
  | string s => exact readsBack_string s
  | list hitems ih => exact readsBack_ofList fun j hj => ⟨hitems j hj, ih j hj⟩
  | entries _ ih => exact readsBack_ofEntries ih

/-- What has been read from a text has been read from a value. -/
theorem exists_of_readText {α : Type} {read : Reader α} {text : String} {a : α}
    (h : readText read text = .ok a) : ∃ j, read j = .ok a := by
  obtain ⟨b, hb, h⟩ := Except.bind_eq_ok.1 h
  obtain ⟨-, h⟩ | ⟨-, h⟩ := ite_eq_iff.1 h
  · cases h
    exact ⟨_, hb⟩
  · cases h

/-- A reader finds in the text of a value what it finds in the value. -/
theorem readText_compact {α : Type} {read : Reader α} {j : Json} (hj : j.IsWhole) :
    readText read (compact j) = read j := by
  have hparse := hj.readsBack (3 * (write j).length + 4) [] (by omega)
  rw [List.append_nil] at hparse
  rw [readText, compact, String.toList_ofList, hparse]
  cases hread : read j <;> simp [bind, Except.bind, hread]

end Json

end ComponentViews
