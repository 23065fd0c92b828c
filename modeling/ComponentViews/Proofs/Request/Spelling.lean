import ComponentViews.Proofs.Checks
import ComponentViews.Modifiers
import ComponentViews.Ty.Basic

/-!
# Fixed spellings

The texts of types and the words for modifiers can be spelled in several ways: with blanks and
brackets apart, in any order and more than once. What has been read is spelled in one way, and that
spelling is read as the same again: a type that has been read from any text is read from its own
(`Ty.parse?_text_of_parse?`), and modifiers that have been read from any words are read from theirs,
and from all lists of the same words (`Modifiers.ofWords_words`, `Modifiers.ofWords_congr`).
-/

namespace ComponentViews

/-! ### Types -/

namespace Ty

/-- The type has a text of its own: its name does without blanks and brackets, and there are no
    arrays of `void`. -/
structure IsSpelled (ty : Ty) : Prop where
  nonempty : ty.name ≠ ""
  plain : ∀ c ∈ ty.name.toList, Text.isBlank c = false ∧ c ≠ '[' ∧ c ≠ ']'
  result : ty.name = "void" → ty.dims = 0

theorem takeBrackets_pair (text : List Char) : takeBrackets (']' :: '[' :: text) =
    ((takeBrackets text).1 + 1, (takeBrackets text).2) := rfl

theorem takeBrackets_of_plain {name : List Char}
    (hname : ∀ c ∈ name, Text.isBlank c = false ∧ c ≠ '[' ∧ c ≠ ']') :
    takeBrackets name = (0, name) := by
  cases name with
  | nil => rfl
  | cons c name =>
    obtain ⟨hblank, -, hclose⟩ := hname c List.mem_cons_self
    unfold takeBrackets
    split
    · exact absurd (List.cons.inj ‹_›).1 hclose
    · simp_all
    · simp_all

theorem takeBrackets_replicate {name : List Char}
    (hname : ∀ c ∈ name, Text.isBlank c = false ∧ c ≠ '[' ∧ c ≠ ']') (dims : Nat) :
    takeBrackets ((List.replicate dims [']', '[']).flatten ++ name) = (dims, name) := by
  induction dims with
  | zero => exact takeBrackets_of_plain hname
  | succ dims ih =>
    rw [List.replicate_succ, List.flatten_cons, List.append_assoc, List.cons_append,
      List.cons_append, List.nil_append, takeBrackets_pair, ih]

/-- A type is read from its text. -/
theorem parse?_text {ty : Ty} (h : ty.IsSpelled) : parse? ty.text = some ty := by
  have hreverse : ty.text.toList.reverse =
      (List.replicate ty.dims [']', '[']).flatten ++ ty.name.toList.reverse := by
    rw [text, String.toList_ofList, List.reverse_append, List.reverse_flatten, List.map_replicate,
      List.reverse_replicate]
    rfl
  have hname : ∀ c ∈ ty.name.toList.reverse, Text.isBlank c = false ∧ c ≠ '[' ∧ c ≠ ']' :=
    fun c hc => h.plain c (List.mem_reverse.1 hc)
  have hdrop : Text.dropBlank ty.name.toList = ty.name.toList := by
    rw [Text.dropBlank]
    cases hname : ty.name.toList with
    | nil => rfl
    | cons c cs =>
      rw [List.dropWhile_cons_of_neg]
      simp [(h.plain c (by simp [hname])).1]
  -- The text is read from its end, where the brackets are.
  rw [parse?, hreverse, takeBrackets_replicate hname]
  simp only [List.reverse_reverse, hdrop]
  rw [if_neg, if_neg]
  · rw [String.ofList_toList]
  · rintro ⟨hvoid, hpos⟩
    have := h.result (String.toList_inj.1 hvoid)
    omega
  · have hnonempty := h.nonempty
    have hplain := h.plain
    simp only [Bool.or_eq_true, List.isEmpty_iff, List.any_eq_true, beq_iff_eq, not_or]
    refine ⟨by simpa using hnonempty, ?_⟩
    rintro ⟨c, hc, hbad⟩
    have := hplain c hc
    simp_all

/-- What has been read from a text has a text of its own. -/
theorem isSpelled_of_parse? {text : String} {ty : Ty} (h : parse? text = some ty) :
    ty.IsSpelled := by
  simp only [parse?] at h
  split at h
  · cases h
  · rename_i hbase
    split at h
    · cases h
    · rename_i hvoid
      simp only [Option.some.injEq] at h
      subst h
      simp only [Bool.or_eq_true, List.isEmpty_iff, List.any_eq_true, beq_iff_eq, not_or,
        not_exists, not_and] at hbase hvoid
      refine ⟨?_, ?_, ?_⟩
      · simpa using hbase.1
      · rw [String.toList_ofList]
        intro c hc
        have := hbase.2 c hc
        simp_all
      · intro hname
        have := hvoid (by rw [← hname, String.toList_ofList])
        simpa using this

theorem isSpelled_void : void.IsSpelled :=
  isSpelled_of_parse? (show parse? "void" = some void by decide)

/-- The text of a type that has been read, in whatever spelling, is read as the same type. -/
theorem parse?_text_of_parse? {text : String} {ty : Ty} (h : parse? text = some ty) :
    parse? ty.text = some ty := parse?_text (isSpelled_of_parse? h)

end Ty

/-! ### Modifiers -/

namespace Modifiers

/-- The flag of a word. -/
def flag? (word : String) : Option UInt16 := wordTable.lookup word

theorem flag?_eq_some_iff {word : String} {flag : UInt16} :
    flag? word = some flag ↔ (word, flag) ∈ wordTable := by
  constructor
  · intro h
    obtain ⟨front, back, htable, -⟩ := List.lookup_eq_some_iff.1 h
    exact htable ▸ List.mem_append_right _ List.mem_cons_self
  · have hall : ∀ e ∈ wordTable, flag? e.1 = some e.2 := by decide
    exact hall (word, flag)

/-- The flags that words stand for, one by one. -/
theorem mapM_eq_ok_iff {ε : Type} {f : String → Except ε UInt16}
    (hf : ∀ word flag, f word = .ok flag ↔ flag? word = some flag) {words : List String}
    {flags : List UInt16} : words.mapM f = .ok flags ↔
      (∀ word ∈ words, (flag? word).isSome = true) ∧ words.filterMap flag? = flags := by
  induction words generalizing flags with
  | nil => exact ⟨fun h => ⟨by simp, Except.ok.inj h⟩, fun h => congrArg Except.ok h.2⟩
  | cons word words ih =>
    rw [List.mapM_cons, List.forall_mem_cons, List.filterMap_cons]
    simp only [Except.bind_eq_ok, ih, hf]
    cases flag? word with
    | none => simp
    | some flag =>
      constructor
      · rintro ⟨_, hflag, _, ⟨hknown, rfl⟩, hflags⟩
        cases hflag
        exact ⟨⟨rfl, hknown⟩, Except.ok.inj hflags⟩
      · rintro ⟨⟨-, hknown⟩, rfl⟩
        exact ⟨_, rfl, _, ⟨hknown, rfl⟩, rfl⟩

/-- The flags that words stand for, combined. -/
theorem ofWords_eq_ok {words : List String} {m : Modifiers} : ofWords words = .ok m ↔
    (∀ word ∈ words, (flag? word).isSome = true) ∧
      m.bits = (words.filterMap flag?).foldl (· ||| ·) 0 := by
  rw [ofWords, Except.bind_eq_ok]
  refine (exists_congr fun flags => and_congr_left'
    (mapM_eq_ok_iff fun word flag => ?_)).trans ⟨?_, ?_⟩
  · rw [flag?]
    cases wordTable.lookup word <;> simp
  · rintro ⟨_, ⟨hknown, rfl⟩, hm⟩
    exact ⟨hknown, congrArg Modifiers.bits (Except.ok.inj hm).symm⟩
  · rintro ⟨hknown, hbits⟩
    exact ⟨_, ⟨hknown, rfl⟩, by rw [← hbits]; rfl⟩

theorem getLsbD_foldl_or (flags : List UInt16) (first : UInt16) (i : Nat) :
    (flags.foldl (· ||| ·) first).toBitVec.getLsbD i =
      (first.toBitVec.getLsbD i || flags.any fun flag => flag.toBitVec.getLsbD i) := by
  induction flags generalizing first with
  | nil => simp
  | cons flag flags ih => rw [List.foldl_cons, ih, List.any_cons]; simp [Bool.or_assoc]

/-- It makes no difference in which order flags are combined, and how often. -/
theorem foldl_or_congr {flags others : List UInt16} (h : ∀ flag, flag ∈ flags ↔ flag ∈ others) :
    flags.foldl (· ||| ·) 0 = others.foldl (· ||| ·) 0 := by
  refine UInt16.toBitVec_inj.1 (BitVec.eq_of_getLsbD_eq fun i _ => ?_)
  rw [getLsbD_foldl_or, getLsbD_foldl_or]
  congr 1
  rw [Bool.eq_iff_iff, List.any_eq_true, List.any_eq_true]
  exact exists_congr fun flag => and_congr_left fun _ => h flag

theorem and_foldl_or_ne_zero {flags : List UInt16} {first flag : UInt16} :
    (flags.foldl (· ||| ·) first) &&& flag ≠ 0 ↔
      first &&& flag ≠ 0 ∨ ∃ other ∈ flags, other &&& flag ≠ 0 := by
  induction flags generalizing first with
  | nil => simp
  | cons next flags ih =>
    have hor : (first ||| next) &&& flag ≠ 0 ↔ first &&& flag ≠ 0 ∨ next &&& flag ≠ 0 := by
      have hdistrib : (first ||| next) &&& flag = first &&& flag ||| next &&& flag := by
        refine UInt16.toBitVec_inj.1 (BitVec.eq_of_getLsbD_eq fun i _ => ?_)
        simp [Bool.and_or_distrib_right]
      rw [hdistrib, Ne, UInt16.or_eq_zero_iff, not_and_or]
    rw [List.foldl_cons, ih, hor]
    simp [or_assoc]

/-- Each word has a flag of its own. -/
theorem eq_of_common_flag : ∀ e ∈ wordTable, ∀ other ∈ wordTable,
    other.2 &&& e.2 ≠ 0 ↔ other = e := by decide

/-- The words for modifiers that have been read are the words that they have been read from. -/
theorem mem_words_iff {words : List String} {m : Modifiers} (h : ofWords words = .ok m)
    {word : String} : word ∈ m.words ↔ word ∈ words := by
  obtain ⟨hknown, hbits⟩ := ofWords_eq_ok.1 h
  -- A flag is set if it meets one of those combined, and each flag meets none but itself.
  have hhas : ∀ flag, m.has flag = true ↔
      ∃ other ∈ words.filterMap flag?, other &&& flag ≠ 0 := by
    intro flag
    rw [has, bne_iff_ne, hbits, and_foldl_or_ne_zero]
    simp
  simp only [Modifiers.words, List.mem_map, List.mem_filter, hhas, List.mem_filterMap,
    flag?_eq_some_iff]
  constructor
  · rintro ⟨e, ⟨he, other, ⟨spelled, hspelled, hother⟩, hcommon⟩, rfl⟩
    obtain rfl := (eq_of_common_flag e he (spelled, other) hother).1 hcommon
    exact hspelled
  · intro hword
    obtain ⟨flag, hflag⟩ := Option.isSome_iff_exists.1 (hknown word hword)
    rw [flag?_eq_some_iff] at hflag
    exact ⟨_, ⟨hflag, flag, ⟨word, hword, hflag⟩, (eq_of_common_flag _ hflag _ hflag).2 rfl⟩, rfl⟩

/-- Lists of the same words are read as the same modifiers. -/
theorem ofWords_congr {words others : List String} {m : Modifiers} (h : ofWords words = .ok m)
    (hwords : ∀ word, word ∈ words ↔ word ∈ others) : ofWords others = .ok m := by
  obtain ⟨hknown, hbits⟩ := ofWords_eq_ok.1 h
  refine ofWords_eq_ok.2 ⟨fun word hword => hknown word ((hwords word).2 hword), ?_⟩
  rw [hbits]
  refine foldl_or_congr fun flag => ?_
  simp only [List.mem_filterMap, hwords]

/-- Modifiers that have been read are read from their words. -/
theorem ofWords_words {words : List String} {m : Modifiers} (h : ofWords words = .ok m) :
    ofWords m.words = .ok m := ofWords_congr h fun _ => (mem_words_iff h).symm

/-- The modifiers are those of their words. -/
def IsSpelled (m : Modifiers) : Prop := ofWords m.words = .ok m

theorem isSpelled_interfaceMethod : interfaceMethod.IsSpelled :=
  @ofWords_words ["public", "abstract"] _ rfl

end Modifiers

end ComponentViews
