import ComponentViews.Json.Basic
import ComponentViews.Proofs.Checks

/-!
# Lists, options and records in JSON

What is written item by item is read back so (`Json.readList_ofList`, `Json.readOption_ofOption`,
`Json.readEntries_ofEntries`), and a record that is written with all its fields, each under its
name, is read back field by field (`Json.Fills.readRecord`).

In the other direction, what holds of every value that a reader gives holds of all the items that
are read by it (`Json.forall_of_readList`, `Json.forall_of_readOption`); and a record that has been
read has every property that the blank record has and no field destroys, whichever of the fields are
there, in whatever order and form (`Json.holds_of_readRecord`).
-/

namespace ComponentViews.Json

section

variable {ρ α : Type}

/-! ### Words, lists, options and entries -/

theorem readWord_string {ofWord? : String → Option α} {word : String} {a : α}
    (h : ofWord? word = some a) : readWord ofWord? (string word) = .ok a := by
  rw [readWord, h]

theorem readSpelled_string {ofText? : String → Option α} {text : String} {a : α}
    (h : ofText? text = some a) : readSpelled ofText? (string text) = .ok a := by
  simp [readSpelled, readString, h, bind, Except.bind]

theorem exists_of_readSpelled {ofText? : String → Option α} {j : Json} {a : α}
    (h : readSpelled ofText? j = .ok a) : ∃ text, ofText? text = some a := by
  obtain ⟨text, -, h⟩ := Except.bind_eq_ok.1 h
  split at h
  · rename_i b hb
    cases h
    exact ⟨text, hb⟩
  · cases h

theorem readList_ofList {read : Reader α} {write : α → Json} {values : List α}
    (h : ∀ a ∈ values, read (write a) = .ok a) :
    readList read (ofList (values.map write)) = .ok values := by
  rw [ofList, readList, Except.mapM_map_eq_ok h]
  rfl

theorem forall_of_readList {read : Reader α} {P : α → Prop}
    (hread : ∀ j a, read j = .ok a → P a) {j : Json} {values : List α}
    (h : readList read j = .ok values) : ∀ a ∈ values, P a := by
  intro a ha
  cases j with
  | array items broken =>
    simp only [readList, Except.bind_eq_ok] at h
    obtain ⟨read, hitems, -, -, hvalues⟩ := h
    cases hvalues
    obtain ⟨item, -, hitem⟩ := Except.mem_of_mapM_eq_ok hitems a ha
    exact hread item a hitem
  | _ => simp [readList] at h

theorem readOption_of_ne_null (read : Reader α) {j : Json} (hj : j ≠ null) :
    readOption read j = some <$> read j := by
  cases j with
  | null => exact absurd rfl hj
  | _ => rfl

theorem readOption_ofOption {read : Reader α} {write : α → Json} (hnull : ∀ a, write a ≠ null)
    {value : Option α} (h : ∀ a ∈ value, read (write a) = .ok a) :
    readOption read (ofOption write value) = .ok value := by
  cases value with
  | none => rfl
  | some a =>
    rw [ofOption, readOption_of_ne_null read (hnull a), h a rfl]
    rfl

theorem forall_of_readOption {read : Reader α} {P : α → Prop}
    (hread : ∀ j a, read j = .ok a → P a) {j : Json} {value : Option α}
    (h : readOption read j = .ok value) : ∀ a ∈ value, P a := by
  intro a ha
  by_cases hj : j = null
  · subst hj
    cases h
    cases ha
  · rw [readOption_of_ne_null read hj] at h
    cases hvalue : read j with
    | error fault => rw [hvalue] at h; cases h
    | ok b =>
      rw [hvalue] at h
      cases h
      cases ha
      exact hread j a hvalue

theorem readEntries_ofEntries {read : Reader α} {write : α → Json} {entries : List (String × α)}
    (h : ∀ e ∈ entries, read (write e.2) = .ok e.2) :
    readEntries read (ofEntries (entries.map fun (key, a) => (key, write a))) = .ok entries := by
  rw [ofEntries, List.map_map, readEntries, Except.mapM_map_eq_ok]
  · rfl
  · intro e he
    show (do return (e.1, ← read (write e.2))) = _
    rw [h e he]
    rfl

/-! ### Records that are written in full -/

theorem Field.read_mandatory {name : String} {read : Reader α} {set : α → ρ → ρ} {value : Json}
    {a : α} (h : read value = .ok a) : (mandatory name read set).read value = .ok (set a) := by
  show set <$> read value = .ok (set a)
  rw [h]
  rfl

theorem Field.read_optional {name : String} {read : Reader α} {set : α → ρ → ρ} {value : Json}
    {a : α} (h : read value = .ok a) : (optional name read set).read value = .ok (set a) :=
  @Field.read_mandatory _ _ name _ _ _ _ h

/-- Reading the entries, one for each of the fields and in their order, makes `filled` of
    `record`. -/
inductive Fills : List (Field ρ) → List (String × Json) → ρ → ρ → Prop
  | nil (record : ρ) : Fills [] [] record record
  | cons {field : Field ρ} {fields : List (Field ρ)} {value : Json}
    {entries : List (String × Json)} {change : ρ → ρ} {record filled : ρ}
    (hfield : field.read value = .ok change) (hrest : Fills fields entries (change record) filled) :
    Fills (field :: fields) ((field.name, value) :: entries) record filled

namespace Fills

variable {fields : List (Field ρ)} {entries : List (String × Json)} {record filled : ρ}
  {name : String} {read : Reader α} {set : α → ρ → ρ} {value : Json} {a : α}

theorem mandatory (hread : read value = .ok a)
    (hrest : Fills fields entries (set a record) filled) :
    Fills (.mandatory name read set :: fields) ((name, value) :: entries) record filled :=
  .cons (Field.read_mandatory hread) hrest

theorem optional (hread : read value = .ok a)
    (hrest : Fills fields entries (set a record) filled) :
    Fills (.optional name read set :: fields) ((name, value) :: entries) record filled :=
  .cons (Field.read_optional hread) hrest

/-- The entries of the fields behind others are read one by one. -/
theorem foldlM_readEntry (h : Fills fields entries record filled) (before : List (Field ρ))
    (found : List String) (hnodup : ((before ++ fields).map (·.name)).Nodup)
    (hfound : ∀ name, name ∈ found ↔ name ∈ before.map (·.name)) :
    ∃ all, (entries.map fun (key, value) => (some key, value)).foldlM
        (readEntry (before ++ fields)) (record, found) = .ok (filled, all) ∧
      ∀ name, name ∈ all ↔ name ∈ (before ++ fields).map (·.name) := by
  induction h generalizing before found with
  | nil record => exact ⟨found, rfl, by simpa using hfound⟩
  | @cons field fields value entries change record filled hfield hrest ih =>
    -- The fields found are those before this one, so it is looked up under its name and is new.
    have hnew : field.name ∉ before.map (·.name) := by
      rw [List.map_append, List.nodup_append] at hnodup
      exact fun hmem => hnodup.2.2 _ hmem _ (List.mem_map_of_mem List.mem_cons_self) rfl
    have hfind : (before ++ field :: fields).find? (·.name == field.name) = some field := by
      rw [List.find?_append, List.find?_eq_none.2, Option.none_or, List.find?_cons_of_pos (by simp)]
      intro other hother heq
      exact hnew (List.mem_map.2 ⟨other, hother, beq_iff_eq.1 heq⟩)
    have hentry : readEntry (before ++ field :: fields) (record, found) (some field.name, value) =
        .ok (change record, field.name :: found) := by
      rw [readEntry, hfind]
      simp only
      rw [if_neg (by rw [List.contains_iff_mem, hfound]; exact hnew), hfield]
      rfl
    have hsplit : before ++ field :: fields = (before ++ [field]) ++ fields := by simp
    rw [List.map_cons, List.foldlM_cons, hentry]
    rw [hsplit] at hnodup ⊢
    exact ih (before ++ [field]) (field.name :: found) hnodup fun name => by simp [hfound, or_comm]

/-- A record is read from the object of all its fields. -/
theorem readRecord (h : Fills fields entries record filled)
    (hnodup : (fields.map (·.name)).Nodup) :
    readRecord record fields (ofEntries entries) = .ok filled := by
  obtain ⟨all, hfold, hall⟩ := h.foldlM_readEntry [] [] hnodup fun _ => Iff.rfl
  -- Every field has been found, whether it is required or not.
  have hrequired : (fields.all fun f => !f.required || all.contains f.name) = true := by
    refine List.all_eq_true.2 fun f hf => ?_
    rw [List.contains_iff_mem.2 ((hall f.name).2 (List.mem_map_of_mem hf)), Bool.or_true]
  rw [List.nil_append] at hfold
  rw [ofEntries, Json.readRecord, hfold]
  exact if_pos hrequired

end Fills

/-! ### What is kept -/

/-- No value of the field destroys the property. -/
def Field.Keeps (P : ρ → Prop) (field : Field ρ) : Prop :=
  ∀ value change, field.read value = .ok change → ∀ record, P record → P (change record)

variable {P : ρ → Prop} {name : String} {read : Reader α} {set : α → ρ → ρ}

theorem Field.Keeps.mandatory
    (h : ∀ value a, read value = .ok a → ∀ record, P record → P (set a record)) :
    (Field.mandatory name read set).Keeps P := by
  intro value change hread
  change set <$> read value = .ok change at hread
  cases hvalue : read value with
  | error fault => rw [hvalue] at hread; cases hread
  | ok a =>
    rw [hvalue] at hread
    cases hread
    exact h value a hvalue

theorem Field.Keeps.optional
    (h : ∀ value a, read value = .ok a → ∀ record, P record → P (set a record)) :
    (Field.optional name read set).Keeps P := @Field.Keeps.mandatory _ _ P name _ _ h

/-- None of the fields destroys the property. -/
def Keep (P : ρ → Prop) (fields : List (Field ρ)) : Prop := ∀ field ∈ fields, field.Keeps P

variable {fields : List (Field ρ)}

theorem Keep.nil : Keep P [] := List.forall_mem_nil _

theorem Keep.mandatory
    (h : ∀ value a, read value = .ok a → ∀ record, P record → P (set a record))
    (hrest : Keep P fields) : Keep P (.mandatory name read set :: fields) :=
  List.forall_mem_cons.2 ⟨.mandatory h, hrest⟩

theorem Keep.optional
    (h : ∀ value a, read value = .ok a → ∀ record, P record → P (set a record))
    (hrest : Keep P fields) : Keep P (.optional name read set :: fields) :=
  List.forall_mem_cons.2 ⟨.optional h, hrest⟩

theorem holds_of_readEntry (hfields : Keep P fields) {record filled : ρ}
    {found all : List String} {entry : Option String × Json} (hrecord : P record)
    (h : readEntry fields (record, found) entry = .ok (filled, all)) : P filled := by
  obtain ⟨key, value⟩ := entry
  cases key with
  | none => cases h
  | some key =>
    rw [readEntry] at h
    split at h
    · -- A field that is not known is skipped.
      obtain ⟨-, -, h⟩ := Except.bind_eq_ok.1 h
      cases h
      exact hrecord
    · rename_i field hfield
      split at h
      · cases h
      · obtain ⟨change, hchange, h⟩ := Except.bind_eq_ok.1 h
        cases h
        exact hfields field (List.mem_of_find?_eq_some hfield) value change hchange record hrecord

theorem holds_of_foldlM_readEntry (hfields : Keep P fields)
    {entries : List (Option String × Json)} {record filled : ρ} {found all : List String}
    (hrecord : P record)
    (h : entries.foldlM (readEntry fields) (record, found) = .ok (filled, all)) : P filled := by
  induction entries generalizing record found with
  | nil =>
    cases h
    exact hrecord
  | cons entry entries ih =>
    rw [List.foldlM_cons] at h
    obtain ⟨⟨next, names⟩, hentry, h⟩ := Except.bind_eq_ok.1 h
    exact ih (holds_of_readEntry hfields hrecord hentry) h

theorem holds_of_readItems (hfields : Keep P fields) {broken : Option Fault}
    {items : List Json} {record filled : ρ} (hrecord : P record)
    (h : readItems broken fields items record = .ok filled) : P filled := by
  -- Along the fields and not the items: there may be fewer of these, and then defaults remain.
  induction fields generalizing items record with
  | nil =>
    cases items with
    | nil =>
      obtain ⟨-, -, h⟩ := Except.bind_eq_ok.1 h
      cases h
      exact hrecord
    | cons item items => cases h
  | cons field fields ih =>
    obtain ⟨hfield, hfields⟩ := List.forall_mem_cons.1 hfields
    cases items with
    | nil =>
      obtain ⟨-, -, h⟩ := Except.bind_eq_ok.1 h
      split at h
      · cases h
      · exact ih hfields hrecord h
    | cons item items =>
      obtain ⟨change, hchange, h⟩ := Except.bind_eq_ok.1 h
      exact ih hfields (hfield item change hchange record hrecord) h

/-- A record that has been read has each property that the blank one has and no field destroys. -/
theorem holds_of_readRecord {blank record : ρ} {j : Json} (hblank : P blank)
    (hfields : Keep P fields) (h : readRecord blank fields j = .ok record) : P record := by
  cases j with
  | object entries broken =>
    rw [readRecord] at h
    obtain ⟨⟨filled, all⟩, hfold, h⟩ := Except.bind_eq_ok.1 h
    obtain ⟨-, -, h⟩ := Except.bind_eq_ok.1 h
    split at h
    · cases h
      exact holds_of_foldlM_readEntry hfields hblank hfold
    · cases h
  | array items broken => exact holds_of_readItems hfields hblank h
  | _ => cases h

end

end ComponentViews.Json
