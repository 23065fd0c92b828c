import ComponentViews.Proofs.WireName.Legal
import Mathlib

/-!
# Words of wire names

What is appended to tell names apart is set off by underscores: one before the place of each
capital, and two before the type of each parameter. So a name falls into words (`Idl.words`), which
are the same for names that differ by letter case only. Neither numbers nor the names of types have
empty words, so that an empty word only stands where something new begins, and from the words of a
name it can be read what it has been made from: its letters, the places of its capitals and the
types (`NameCandidate.eq_of_words_distinguished`).
-/

namespace ComponentViews

/-- What comes before the first separator can be told from the whole. -/
theorem List.append_inj_of_not_mem {α : Type} {x : α} {a b r s : List α} (ha : x ∉ a) (hb : x ∉ b)
    (hr : r = [] ∨ r.head? = some x) (hs : s = [] ∨ s.head? = some x) (h : a ++ r = b ++ s) :
    a = b ∧ r = s := by
  -- By induction on the part in front; where one of the two ends first, the separator would be in
  -- the other.
  induction a generalizing b with
  | nil =>
    cases b with
    | nil => exact ⟨rfl, h⟩
    | cons y b =>
      rw [List.nil_append] at h
      subst h
      simp only [List.cons_append, reduceCtorEq, List.head?_cons, Option.some.injEq,
        false_or] at hr
      exact absurd (hr ▸ List.mem_cons_self) hb
  | cons y a ih =>
    cases b with
    | nil =>
      rw [List.nil_append] at h
      subst h
      simp only [List.cons_append, reduceCtorEq, List.head?_cons, Option.some.injEq,
        false_or] at hs
      exact absurd (hs ▸ List.mem_cons_self) ha
    | cons z b =>
      rw [List.cons_append, List.cons_append, List.cons.injEq] at h
      obtain ⟨rfl, h⟩ := h
      obtain ⟨rfl, hrest⟩ := ih (fun hx => ha (List.mem_cons_of_mem _ hx))
        (fun hx => hb (List.mem_cons_of_mem _ hx)) h
      exact ⟨rfl, hrest⟩

namespace Text

/-! ### Characters -/

/-- A capital is moved to its lower-case form, and nothing else is. -/
theorem toLower_cases (c : Char) :
    (c.isUpper = true ∧ 65 ≤ c.toNat ∧ c.toNat ≤ 90 ∧ c.toLower.toNat = c.toNat + 32) ∨
      c.isUpper = false ∧ c.toLower = c := by
  rw [Char.toLower]
  split
  · rename_i h
    have hmin : 65 ≤ c.toNat := UInt32.le_iff_toNat_le.1 h.1
    have hmax : c.toNat ≤ 90 := UInt32.le_iff_toNat_le.1 h.2
    refine .inl ⟨by simpa [Char.isUpper] using h, hmin, hmax, ?_⟩
    have hmoved : (c.val + ('a'.val - 'A'.val)).toNat = (c.toNat + 32) % 2 ^ 32 :=
      UInt32.toNat_add _ _
    exact hmoved.trans (Nat.mod_eq_of_lt (by omega))
  · rename_i h
    exact .inr ⟨by simpa [Char.isUpper] using h, rfl⟩

theorem toLower_ne_underscore {c : Char} (h : c ≠ '_') : c.toLower ≠ '_' := by
  intro hlower
  rcases toLower_cases c with ⟨-, hmin, hmax, hmoved⟩ | ⟨-, hsame⟩
  · rw [hlower] at hmoved
    have hunderscore : '_'.toNat = 95 := rfl
    omega
  · exact h (hsame ▸ hlower)

/-- A character is known by its lower-case form and by whether it is a capital. -/
theorem eq_of_toLower_eq {c d : Char} (h : c.toLower = d.toLower)
    (hupper : c.isUpper = d.isUpper) : c = d := by
  rcases toLower_cases c with ⟨hc, -, -, hcmoved⟩ | ⟨hc, hcsame⟩ <;>
    rcases toLower_cases d with ⟨hd, -, -, hdmoved⟩ | ⟨hd, hdsame⟩
  · have hmoved := congrArg Char.toNat h
    exact Char.toNat_inj.1 (by omega)
  · simp [hc, hd] at hupper
  · simp [hc, hd] at hupper
  · rw [← hcsame, h, hdsame]

theorem toLower_of_isDigit {c : Char} (h : c.isDigit = true) : c.toLower = c := by
  rcases toLower_cases c with ⟨-, hmin, -⟩ | ⟨-, hsame⟩
  · have hmax : c.toNat ≤ 57 :=
      UInt32.le_iff_toNat_le.1 (of_decide_eq_true (Bool.and_eq_true_iff.1 h).2)
    omega
  · exact hsame

/-! ### Parts -/

theorem splitAt_append (sep : Char) (cs ds : List Char) :
    splitAt sep (cs ++ sep :: ds) = splitAt sep cs ++ splitAt sep ds := by
  induction cs with
  | nil => simp [splitAt]
  | cons c cs ih =>
    rw [List.cons_append, splitAt, splitAt, ih]
    split
    · rfl
    · obtain ⟨part, parts, hparts⟩ := List.exists_cons_of_ne_nil (splitAt_ne_nil sep cs)
      rw [hparts]
      rfl

theorem splitAt_of_not_mem {sep : Char} {cs : List Char} (h : sep ∉ cs) :
    splitAt sep cs = [cs] := by
  induction cs with
  | nil => rfl
  | cons c cs ih =>
    rw [List.mem_cons, not_or] at h
    rw [splitAt, if_neg (Ne.symm h.1), ih h.2]

end Text

namespace Idl

variable {s t : String}

/-! ### Words -/

/-- The words of a name, in lower case. -/
def words (s : String) : List (List Char) := Text.splitAt '_' (s.toList.map Char.toLower)

theorem words_ne_nil (s : String) : words s ≠ [] := Text.splitAt_ne_nil _ _

/-- Names that differ by letter case only have the same words. -/
theorem words_congr (hs : IsWord s) (ht : IsWord t) (h : Text.lowercase s = Text.lowercase t) :
    words s = words t := by
  rw [Text.lowercase, Text.lowercase, String.ofList_inj, Text.lowercaseChars_of_ascii hs.ascii,
    Text.lowercaseChars_of_ascii ht.ascii] at h
  rw [words, words, h]

theorem words_append (s t : String) : words (s ++ "_" ++ t) = words s ++ words t := by
  have h : (s ++ "_" ++ t).toList.map Char.toLower =
      s.toList.map Char.toLower ++ '_' :: t.toList.map Char.toLower := by
    simp only [String.toList_append, List.map_append, List.append_assoc]
    rfl
  rw [words, h, Text.splitAt_append, words, words]

theorem words_underscore (s : String) : words (s ++ "_") = words s ++ [[]] := by
  have h := words_append s ""
  rwa [String.append_empty] at h

/-- Two underscores leave an empty word between them. -/
theorem words_underscores (s t : String) : words (s ++ "__" ++ t) = words s ++ [] :: words t := by
  have h : s ++ "__" ++ t = s ++ "_" ++ "_" ++ t := by
    have hsplit : s ++ "_" ++ "_" = s ++ "__" := String.append_assoc
    rw [hsplit]
  rw [h, words_append, words_underscore, List.append_assoc]
  rfl

theorem words_of_not_mem (h : '_' ∉ s.toList) : words s = [s.toList.map Char.toLower] := by
  refine Text.splitAt_of_not_mem fun hmem => ?_
  obtain ⟨c, hc, hlower⟩ := List.mem_map.1 hmem
  exact Text.toLower_ne_underscore (fun heq => h (heq ▸ hc)) hlower

/-- Texts that are joined by what leaves the words `between` them. -/
theorem words_intercalate {sep : String} (between : List (List Char))
    (hsep : ∀ s t, words (s ++ sep ++ t) = words s ++ (between ++ words t)) (s : String)
    (parts : List String) : words (sep.intercalate (s :: parts)) =
      words s ++ parts.flatMap fun t => between ++ words t := by
  induction parts generalizing s with
  | nil => simp
  | cons t parts ih =>
    rw [String.intercalate_cons_cons, hsep, ih, List.flatMap_cons, List.append_assoc]

theorem isDigit_of_mem_repr {n : Nat} {c : Char} (hc : c ∈ n.repr.toList) : c.isDigit = true := by
  rw [Nat.toList_repr] at hc
  exact Nat.isDigit_of_mem_toDigits (by decide) (by decide) hc

theorem words_repr (n : Nat) : words n.repr = [n.repr.toList] := by
  have hsame : ∀ c ∈ n.repr.toList, c.toLower = c :=
    fun c hc => Text.toLower_of_isDigit (isDigit_of_mem_repr hc)
  rw [words_of_not_mem (fun h => absurd (isDigit_of_mem_repr h) (by decide)),
    List.map_congr_left hsame, List.map_id']

/-- The word of the dimensions of an array. -/
theorem words_seq (n : Nat) : words ("seq" ++ n.repr) = ["seq".toList ++ n.repr.toList] := by
  have hsame : ∀ c ∈ ("seq" ++ n.repr).toList, c.toLower = c := by
    rw [String.toList_append, List.forall_mem_append]
    refine ⟨?_, fun c hc => Text.toLower_of_isDigit (isDigit_of_mem_repr hc)⟩
    have hseq : "seq".toList = ['s', 'e', 'q'] := rfl
    rw [hseq, List.forall_mem_cons, List.forall_mem_cons, List.forall_mem_singleton]
    exact ⟨rfl, rfl, rfl⟩
  have hword : '_' ∉ ("seq" ++ n.repr).toList := by
    rw [String.toList_append, List.mem_append, not_or]
    exact ⟨by decide, fun h => absurd (isDigit_of_mem_repr h) (by decide)⟩
  rw [words_of_not_mem hword, List.map_congr_left hsame, List.map_id', String.toList_append]

/-! ### Names of types -/

/-- The words of the module of a type. -/
def moduleWords (outer : Option String) : List (List Char) := outer.elim [] words

/-- The words of a type: for an array there is the word of its dimensions before the simple name. -/
theorem words_typeName (ty : Ty) : words (typeName ty) =
    if ty.isArray then
      words "org_omg_boxedRMI" ++ (moduleWords (elementParts ty.name).1 ++
        (words ("seq" ++ ty.dims.repr) ++ words (elementParts ty.name).2))
    else moduleWords (elementParts ty.name).1 ++ words (elementParts ty.name).2 := by
  have hseq : ∀ simple : String, words s!"seq{ty.dims}_{simple}" =
      words ("seq" ++ ty.dims.repr) ++ words simple :=
    fun simple => words_append ("seq" ++ ty.dims.repr) simple
  have hboxed : ∀ rest : String, words ("org_omg_boxedRMI_" ++ rest) =
      words "org_omg_boxedRMI" ++ words rest := words_append "org_omg_boxedRMI"
  rw [typeName]
  generalize elementParts ty.name = parts
  obtain ⟨outer, simple⟩ := parts
  cases outer <;> dsimp only <;> split
  · rw [hboxed, hseq]
    rfl
  · rfl
  · rw [hboxed, words_append, hseq]
    rfl
  · exact words_append _ _

/-! ### Basic types -/

/-- The names of the primitive types and of strings. -/
def basicNames : List String := Known.string :: Primitive.all.map Primitive.name

/-- The words of a type of the name that is no array. -/
def elementWords (name : String) : List (List Char) :=
  moduleWords (elementParts name).1 ++ words (elementParts name).2

theorem elementWords_injOn : ∀ a ∈ basicNames, ∀ b ∈ basicNames,
    elementWords a = elementWords b → a = b := by
  decide

theorem elementWords_ne_boxed : ∀ a ∈ basicNames,
    (elementWords a).head? ≠ some "org".toList := by
  decide

theorem nil_not_mem_elementWords : ∀ a ∈ basicNames, [] ∉ elementWords a := by
  decide

theorem module_of_mem_basicNames : ∀ a ∈ basicNames,
    (elementParts a).1 = none ∨ (elementParts a).1 = some "CORBA" := by
  decide

end Idl

/-- A primitive type, the type of strings, or an array of these. -/
def Ty.IsBasic (ty : Ty) : Prop :=
  (Primitive.ofName? ty.name).isSome = true ∨ ty.name = Known.string

instance (ty : Ty) : Decidable ty.IsBasic := inferInstanceAs (Decidable (_ ∨ _))

theorem Ty.IsBasic.mem_basicNames {ty : Ty} (h : ty.IsBasic) : ty.name ∈ Idl.basicNames := by
  rcases h with h | h
  · obtain ⟨p, hp⟩ := Option.isSome_iff_exists.1 h
    rw [← Primitive.name_of_ofName?_eq_some hp]
    exact List.mem_cons_of_mem _ (List.mem_map_of_mem p.mem_all)
  · exact h ▸ List.mem_cons_self

namespace Idl

variable {a b : Ty}

/-- What names of arrays begin with. -/
theorem words_boxed : words "org_omg_boxedRMI" =
    ["org".toList, "omg".toList, "boxedrmi".toList] := by
  decide

theorem moduleWords_corba : moduleWords (some "CORBA") = ["corba".toList] := by
  decide

/-- No word of a basic type is empty. -/
theorem nil_not_mem_words_typeName (ha : a.IsBasic) : [] ∉ words (typeName a) := by
  have helement := nil_not_mem_elementWords _ ha.mem_basicNames
  rw [elementWords, List.mem_append, not_or] at helement
  rw [words_typeName, words_seq]
  split
  · have hboxed : [] ∉ words "org_omg_boxedRMI" := by
      rw [words_boxed]
      decide
    simpa [hboxed] using helement
  · simpa using helement

/-- Arrays are told apart by the words after those that all arrays have. -/
theorem eq_of_words_array (ha : a.IsBasic) (hb : b.IsBasic) {m n : Nat}
    (h : moduleWords (elementParts a.name).1 ++
        (words ("seq" ++ m.repr) ++ words (elementParts a.name).2) =
      moduleWords (elementParts b.name).1 ++
        (words ("seq" ++ n.repr) ++ words (elementParts b.name).2)) :
    m = n ∧ a.name = b.name := by
  have hne : ∀ n : Nat, "seq".toList ++ n.repr.toList ≠ "corba".toList :=
    fun n h => absurd (List.cons.inj h).1 (by decide)
  have hmodule : (elementParts a.name).1 = (elementParts b.name).1 := by
    rw [words_seq, words_seq] at h
    rcases module_of_mem_basicNames _ ha.mem_basicNames with hma | hma <;>
      rcases module_of_mem_basicNames _ hb.mem_basicNames with hmb | hmb <;>
      rw [hma, hmb] at h ⊢
    · rw [moduleWords_corba] at h
      exact absurd (List.cons.inj h).1 (hne m)
    · rw [moduleWords_corba] at h
      exact absurd (List.cons.inj h).1.symm (hne n)
  rw [hmodule, List.append_cancel_left_eq, words_seq, words_seq] at h
  obtain ⟨hdims, hsimple⟩ := List.cons.inj h
  have hsimple : words (elementParts a.name).2 = words (elementParts b.name).2 := hsimple
  have hnames : elementWords a.name = elementWords b.name := by
    rw [elementWords, elementWords, hmodule, hsimple]
  exact ⟨Nat.repr_injective (String.toList_inj.1 (List.append_cancel_left hdims)),
    elementWords_injOn _ ha.mem_basicNames _ hb.mem_basicNames hnames⟩

/-- Basic types are told apart by their words. -/
theorem eq_of_words_typeName (ha : a.IsBasic) (hb : b.IsBasic)
    (h : words (typeName a) = words (typeName b)) : a = b := by
  have hdims : ∀ ty : Ty, ty.isArray = false → ty.dims = 0 := fun ty hty => by
    simpa [Ty.isArray] using hty
  have hext : a.name = b.name → a.dims = b.dims → a = b := by
    cases a
    cases b
    rintro rfl rfl
    rfl
  rw [words_typeName, words_typeName] at h
  cases hisa : a.isArray <;> cases hisb : b.isArray <;>
    simp only [hisa, hisb, Bool.false_eq_true, if_false, if_true] at h
  · have hname := elementWords_injOn _ ha.mem_basicNames _ hb.mem_basicNames h
    exact hext hname ((hdims a hisa).trans (hdims b hisb).symm)
  · rw [words_boxed] at h
    exact absurd (congrArg List.head? h) (elementWords_ne_boxed _ ha.mem_basicNames)
  · rw [words_boxed] at h
    exact absurd (congrArg List.head? h).symm (elementWords_ne_boxed _ hb.mem_basicNames)
  · obtain ⟨hdims, hname⟩ := eq_of_words_array ha hb (List.append_cancel_left h)
    exact hext hname hdims

/-! ### Lists of types -/

/-- There are no words, or the first one is empty: what comes before has come to its end. -/
def BeginsAnew (ws : List (List Char)) : Prop := ws = [] ∨ ws.head? = some []

theorem BeginsAnew.append {ws ts : List (List Char)} (hws : BeginsAnew ws) (hts : BeginsAnew ts) :
    BeginsAnew (ws ++ ts) := by
  rcases hws with rfl | hws
  · exact hts
  · exact .inr (by rw [List.head?_append, hws, Option.some_or])

theorem beginsAnew_of_tail {tail : List (List Char)} (h : tail = [] ∨ tail = [[]]) :
    BeginsAnew tail :=
  h.imp_right (congrArg List.head?)

/-- The words of types after the first one. -/
def laterWords (params : List Ty) : List (List Char) :=
  params.flatMap fun ty => [] :: words (typeName ty)

theorem words_types (ty : Ty) (params : List Ty) :
    words ("__".intercalate ((ty :: params).map typeName)) =
      words (typeName ty) ++ laterWords params := by
  rw [List.map_cons, words_intercalate [[]] words_underscores, List.flatMap_map]
  rfl

variable {params params' : List Ty} {tail : List (List Char)}

theorem beginsAnew_laterWords (params : List Ty) : BeginsAnew (laterWords params) := by
  cases params with
  | nil => exact .inl rfl
  | cons ty params => exact .inr rfl

/-- The first of several types is told from those after it. -/
theorem eq_of_firstWords (ha : a.IsBasic) (hb : b.IsBasic) (htail : tail = [] ∨ tail = [[]])
    (h : words (typeName a) ++ laterWords params =
      words (typeName b) ++ (laterWords params' ++ tail)) :
    a = b ∧ laterWords params = laterWords params' ++ tail := by
  obtain ⟨hwords, hafter⟩ := List.append_inj_of_not_mem (nil_not_mem_words_typeName ha)
    (nil_not_mem_words_typeName hb) (beginsAnew_laterWords params)
    ((beginsAnew_laterWords params').append (beginsAnew_of_tail htail)) h
  exact ⟨eq_of_words_typeName ha hb hwords, hafter⟩

/-- Lists of types are told apart by their words, and no list is another one with an empty word
    at its end. -/
theorem eq_of_laterWords (hp : ∀ ty ∈ params, ty.IsBasic) (hp' : ∀ ty ∈ params', ty.IsBasic)
    (htail : tail = [] ∨ tail = [[]]) (h : laterWords params = laterWords params' ++ tail) :
    params = params' ∧ tail = [] := by
  induction params generalizing params' with
  | nil =>
    obtain ⟨hnil, htail⟩ := List.nil_eq_append_iff.1 h
    cases params' with
    | nil => exact ⟨rfl, htail⟩
    | cons b params' => cases hnil
  | cons a params ih =>
    rw [List.forall_mem_cons] at hp
    have hlater : laterWords (a :: params) = [] :: (words (typeName a) ++ laterWords params) := rfl
    rw [hlater] at h
    cases params' with
    | nil =>
      have hne : words (typeName a) ++ laterWords params ≠ [] :=
        List.append_ne_nil_of_left_ne_nil (words_ne_nil _) _
      -- A type has a word behind the empty one, which the tail does not have.
      rcases htail with rfl | rfl
      · cases h
      · exact absurd (List.cons.inj h).2 hne
    | cons b params' =>
      rw [List.forall_mem_cons] at hp'
      have hlater' : laterWords (b :: params') ++ tail =
          [] :: (words (typeName b) ++ (laterWords params' ++ tail)) :=
        congrArg ([] :: ·) (List.append_assoc ..)
      rw [hlater'] at h
      obtain ⟨rfl, hafter⟩ := eq_of_firstWords hp.1 hp'.1 htail (List.cons.inj h).2
      obtain ⟨rfl, htail⟩ := ih hp.2 hp'.2 hafter
      exact ⟨rfl, htail⟩

/-- So are the lists of the types of parameters. -/
theorem eq_of_words_types (hp : ∀ ty ∈ params, ty.IsBasic) (hp' : ∀ ty ∈ params', ty.IsBasic)
    (htail : tail = [] ∨ tail = [[]])
    (h : words ("__".intercalate (params.map typeName)) =
      words ("__".intercalate (params'.map typeName)) ++ tail) : params = params' ∧ tail = [] := by
  have hnone : words ("__".intercalate ([].map typeName)) = [[]] := rfl
  -- No word of a type is empty, so no list of types reads like the empty one.
  have hne : ∀ ty : Ty, ty.IsBasic → ∀ rest rest' : List (List Char),
      words (typeName ty) ++ rest ≠ [] :: rest' := by
    intro ty hty rest rest' h
    obtain ⟨word, words', hwords⟩ := List.exists_cons_of_ne_nil (words_ne_nil (typeName ty))
    have hmem := nil_not_mem_words_typeName hty
    rw [hwords] at h hmem
    exact hmem ((List.cons.inj h).1 ▸ List.mem_cons_self)
  cases params with
  | nil =>
    cases params' with
    | nil =>
      rw [hnone] at h
      exact ⟨rfl, (List.cons.inj h).2.symm⟩
    | cons b params' =>
      rw [hnone, words_types, List.append_assoc] at h
      exact absurd h.symm (hne b (hp' b List.mem_cons_self) _ _)
  | cons a params =>
    have ha := hp a List.mem_cons_self
    cases params' with
    | nil =>
      rw [hnone, words_types] at h
      exact absurd h (hne a ha _ _)
    | cons b params' =>
      rw [words_types, words_types, List.append_assoc] at h
      rw [List.forall_mem_cons] at hp hp'
      obtain ⟨rfl, hafter⟩ := eq_of_firstWords hp.1 hp'.1 htail h
      obtain ⟨rfl, htail⟩ := eq_of_laterWords hp.2 hp'.2 htail hafter
      exact ⟨rfl, htail⟩

end Idl

namespace NameCandidate

open Idl

/-! ### Letter case -/

/-- The words of the places of capitals. -/
def placeWords (places : List Nat) : List (List Char) :=
  if places = [] then [[]] else places.map fun n => n.repr.toList

theorem words_places (places : List Nat) :
    words ("_".intercalate (places.map Nat.repr)) = placeWords places := by
  cases places with
  | nil => rfl
  | cons place places =>
    have hplace : ∀ n : Nat, ([] : List (List Char)) ++ words n.repr = [n.repr.toList] := words_repr
    rw [List.map_cons, words_intercalate [] words_append, words_repr,
      List.flatMap_map, placeWords, if_neg (List.cons_ne_nil _ _), List.map_cons,
      List.map_eq_flatMap]
    simp only [hplace]
    rfl

theorem words_caseMangle {name : String} (h : '_' ∉ name.toList) : words (caseMangle name) =
    name.toList.map Char.toLower :: placeWords (capitalPlaces 0 name.toList) := by
  rw [caseMangle, words_append, words_of_not_mem h, words_places]
  rfl

/-- The places of capitals are told from what comes after them. -/
theorem eq_of_placeWords {places places' : List Nat} {rest rest' : List (List Char)}
    (hrest : BeginsAnew rest) (hrest' : BeginsAnew rest')
    (h : placeWords places ++ rest = placeWords places' ++ rest') :
    places = places' ∧ rest = rest' := by
  have hne : ∀ n : Nat, n.repr.toList ≠ [] := fun n h =>
    Nat.repr_ne_empty (String.toList_eq_nil_iff.1 h)
  have hmem : ∀ places : List Nat, [] ∉ places.map fun n => n.repr.toList := by
    intro places hmem
    obtain ⟨n, -, hn⟩ := List.mem_map.1 hmem
    exact hne n hn
  rw [placeWords, placeWords] at h
  split at h <;> split at h
  · rename_i hnil hnil'
    exact ⟨hnil.trans hnil'.symm, List.append_cancel_left h⟩
  · rename_i hcons
    obtain ⟨n, rest, rfl⟩ := List.exists_cons_of_ne_nil hcons
    exact absurd (List.cons.inj h).1.symm (hne n)
  · rename_i hcons _
    obtain ⟨n, rest, rfl⟩ := List.exists_cons_of_ne_nil hcons
    exact absurd (List.cons.inj h).1 (hne n)
  · obtain ⟨hplaces, hrest⟩ := List.append_inj_of_not_mem (hmem _) (hmem _) hrest hrest' h
    have hinj : Function.Injective fun n : Nat => n.repr.toList :=
      fun m n h => Nat.repr_injective (String.toList_inj.1 h)
    exact ⟨List.map_injective_iff.2 hinj hplaces, hrest⟩

theorem le_of_mem_capitalPlaces {cs : List Char} {i place : Nat}
    (h : place ∈ capitalPlaces i cs) : i ≤ place := by
  induction cs generalizing i with
  | nil => simp [capitalPlaces] at h
  | cons c cs ih =>
    rw [capitalPlaces] at h
    split at h
    · rcases List.mem_cons.1 h with rfl | h
      · exact le_rfl
      · exact (Nat.le_succ i).trans (ih h)
    · exact (Nat.le_succ i).trans (ih h)

/-- A name is known by its letters and the places of its capitals. -/
theorem eq_of_capitalPlaces {cs ds : List Char} (hcs : ∀ c ∈ cs, c.toNat < 0x80)
    (hds : ∀ d ∈ ds, d.toNat < 0x80) (hletters : cs.map Char.toLower = ds.map Char.toLower)
    {i : Nat} (hplaces : capitalPlaces i cs = capitalPlaces i ds) : cs = ds := by
  induction cs generalizing ds i with
  | nil => exact (List.map_eq_nil_iff.1 hletters.symm).symm
  | cons c cs ih =>
    obtain ⟨d, ds, rfl, hletter, hrest⟩ := List.map_eq_cons_iff.1 hletters.symm
    rw [List.forall_mem_cons] at hcs hds
    rw [capitalPlaces, capitalPlaces, Text.isUppercase, if_pos hcs.1, Text.isUppercase,
      if_pos hds.1] at hplaces
    have hlater : ∀ cs ds : List Char, i :: capitalPlaces (i + 1) cs ≠ capitalPlaces (i + 1) ds :=
      fun cs ds h => absurd (le_of_mem_capitalPlaces (h ▸ List.mem_cons_self)) (by omega)
    have hupper : c.isUpper = d.isUpper := by
      cases hc : c.isUpper <;> cases hd : d.isUpper <;>
        simp only [hc, hd, if_true, if_false, Bool.false_eq_true] at hplaces
      · rfl
      · exact absurd hplaces.symm (hlater ds cs)
      · exact absurd hplaces (hlater cs ds)
      · rfl
    obtain rfl := Text.eq_of_toLower_eq hletter.symm hupper
    refine congrArg _ (ih hcs.2 hds.2 hrest.symm (i := i + 1) ?_)
    split at hplaces
    · exact (List.cons.inj hplaces).2
    · exact hplaces

/-! ### Names that are told apart -/

/-- A name with the places of its capitals, if `mangled`, and with the types of its parameters, if
    `overloaded`. -/
def distinguished (op : Operation) (mangled overloaded : Bool) : String :=
  let spelled := if mangled then caseMangle op.name else op.name
  if overloaded then overloadName spelled op.params else spelled

/-- What the words of a name say of its capitals. -/
def markWords (op : Operation) (mangled : Bool) : List (List Char) :=
  if mangled then placeWords (capitalPlaces 0 op.name.toList) else []

/-- What they say of the types of its parameters. -/
def typeWords (op : Operation) (overloaded : Bool) : List (List Char) :=
  if overloaded then [] :: words ("__".intercalate (op.params.map typeName)) else []

theorem beginsAnew_typeWords (op : Operation) (overloaded : Bool) :
    BeginsAnew (typeWords op overloaded) := by
  cases overloaded
  · exact .inl rfl
  · exact .inr rfl

theorem isIdentifier_distinguished {op : Operation} (h : IsIdentifier op.name)
    (mangled overloaded : Bool) : IsIdentifier (distinguished op mangled overloaded) := by
  have hspelled : IsIdentifier (if mangled then caseMangle op.name else op.name) := by
    split
    · exact isIdentifier_caseMangle h
    · exact h
  rw [distinguished]
  split
  · exact isIdentifier_overloadName hspelled _
  · exact hspelled

theorem words_distinguished {op : Operation} (h : '_' ∉ op.name.toList)
    (mangled overloaded : Bool) : words (distinguished op mangled overloaded) =
      op.name.toList.map Char.toLower :: (markWords op mangled ++ typeWords op overloaded) := by
  have hspelled : words (if mangled then caseMangle op.name else op.name) =
      op.name.toList.map Char.toLower :: markWords op mangled := by
    cases mangled
    · exact words_of_not_mem h
    · exact words_caseMangle h
  rw [distinguished, typeWords]
  cases overloaded
  · exact hspelled.trans (congrArg _ (List.append_nil _).symm)
  · exact (words_underscores _ _).trans (by rw [hspelled]; rfl)

/-- Names of different operations differ otherwise than by letter case, also if one of them gets
    an underscore, provided that names of the same letters are mangled and those of the same
    spelling get the types of their parameters. -/
theorem eq_of_words_distinguished {a b : Operation} {ma oa mb ob : Bool}
    (ha : ∀ c ∈ a.name.toList, c.isAlpha = true) (hb : ∀ c ∈ b.name.toList, c.isAlpha = true)
    (hpa : ∀ ty ∈ a.params, ty.IsBasic) (hpb : ∀ ty ∈ b.params, ty.IsBasic)
    (hmangled : a.name.toList.map Char.toLower = b.name.toList.map Char.toLower →
      (a.name = b.name ∧ ma = mb) ∨ ma = true ∧ mb = true)
    (hoverloaded : a.name = b.name → oa = true ∧ ob = true) {tail : List (List Char)}
    (htail : tail = [] ∨ tail = [[]])
    (h : words (distinguished a ma oa) = words (distinguished b mb ob) ++ tail) :
    a.name = b.name ∧ a.params = b.params ∧ tail = [] := by
  have hword : ∀ {op : Operation}, (∀ c ∈ op.name.toList, c.isAlpha = true) →
      '_' ∉ op.name.toList := fun h hmem => absurd (h _ hmem) (by decide)
  have hascii : ∀ {op : Operation}, (∀ c ∈ op.name.toList, c.isAlpha = true) →
      ∀ c ∈ op.name.toList, c.toNat < 0x80 := fun h c hc =>
    toNat_lt_of_isIdentifierChar (by simp [isIdentifierChar, Char.isAlphanum, h c hc])
  rw [words_distinguished (hword ha), words_distinguished (hword hb), List.cons_append,
    List.append_assoc] at h
  obtain ⟨hletters, hrest⟩ := List.cons.inj h
  obtain ⟨hname, htypes⟩ : a.name = b.name ∧ typeWords a oa = typeWords b ob ++ tail := by
    rcases hmangled hletters with ⟨hname, rfl⟩ | ⟨rfl, rfl⟩
    · rw [markWords, markWords, hname] at hrest
      exact ⟨hname, List.append_cancel_left hrest⟩
    · obtain ⟨hplaces, htypes⟩ := eq_of_placeWords (beginsAnew_typeWords a oa)
        ((beginsAnew_typeWords b ob).append (beginsAnew_of_tail htail)) hrest
      exact ⟨String.toList_inj.1 (eq_of_capitalPlaces (hascii ha) (hascii hb) hletters hplaces),
        htypes⟩
  obtain ⟨rfl, rfl⟩ := hoverloaded hname
  exact ⟨hname, eq_of_words_types hpa hpb htail (List.cons.inj htypes).2⟩

end NameCandidate

end ComponentViews
