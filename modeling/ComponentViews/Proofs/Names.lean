import ComponentViews.Proofs.Code.Kinds
import ComponentViews.Proofs.Descriptor.Slots
import ComponentViews.Code.Emission
import ComponentViews.Operation
import ComponentViews.Verification.Code

/-!
# Plain names

Where names are dotted identifiers (`IsClassName`), types can be told from their descriptors
(`Ty.descriptor_append_injective`), methods from the text that is made of name and descriptor
(`Method.IsPlain.label_injective`), and a method returns the way its descriptor says
(`Method.IsPlain.returnFor_descriptor`).

Operations are looked up by a key, the name with the descriptors of the parameters in parentheses.
Descriptors behind one another are read in one way only, since none begins another, so that
operations have one key if and only if they have one signature (`Operation.signatureKey_eq_iff`).
Nothing is asked of their names, as the parenthesis that opens the parameters is the last one of
the key (`signature_injective`).
-/

namespace ComponentViews

/-- A text without any of the given characters. -/
def Text.Lacks (chars : List Char) (s : String) : Prop :=
  (s.toList.all fun c => !chars.contains c) = true

instance (chars : List Char) (s : String) : Decidable (Text.Lacks chars s) :=
  inferInstanceAs (Decidable (_ = true))

theorem Text.Lacks.not_mem {chars : List Char} {s : String} (h : Lacks chars s) {c : Char}
    (hc : c ∈ chars) : c ∉ s.toList := by
  intro hmem
  simpa [hc] using List.all_eq_true.1 h c hmem

theorem Text.Lacks.mono {chars fewer : List Char} {s : String} (h : Lacks chars s)
    (hfewer : fewer ⊆ chars) : Lacks fewer s := by
  rw [Lacks, List.all_eq_true]
  intro c hc
  simpa using fun hmem => h.not_mem (hfewer hmem) hc

/-- A name that classes can have: it is no keyword, and nothing in it ends a part of a descriptor.
    Dotted identifiers are such names. -/
structure IsClassName (name : String) : Prop where
  nonempty : name ≠ ""
  plain : Text.Lacks [';', '/', ')'] name
  isReference : (Ty.named name).isReference = true

instance (name : String) : Decidable (IsClassName name) :=
  decidable_of_iff (name ≠ "" ∧ Text.Lacks [';', '/', ')'] name ∧
    (Ty.named name).isReference = true) ⟨fun h => ⟨h.1, h.2.1, h.2.2⟩, fun h => ⟨h.1, h.2, h.3⟩⟩

namespace Ty

/-- The type is primitive or that of a class, or an array of such. -/
def IsPlain (ty : Ty) : Prop := (Primitive.ofName? ty.name).isSome = true ∨ IsClassName ty.name

instance (ty : Ty) : Decidable ty.IsPlain := inferInstanceAs (Decidable (_ ∨ _))

/-- The type is plain, or there is no result. -/
def IsPlainResult (ty : Ty) : Prop := ty = .void ∨ ty.IsPlain

instance (ty : Ty) : Decidable ty.IsPlainResult := inferInstanceAs (Decidable (_ ∨ _))

variable {ty : Ty} {named checked : Prop}

theorem isPlain_named {name : String} (h : IsClassName name) : (Ty.named name).IsPlain := .inr h

namespace IsPlain

theorem lacks (h : ty.IsPlain) : Text.Lacks [';', '/', ')'] ty.name := by
  rcases h with h | h
  · obtain ⟨p, hp⟩ := Option.isSome_iff_exists.1 h
    rw [← Primitive.name_of_ofName?_eq_some hp]
    cases p <;> decide
  · exact h.plain

theorem not_mem (h : ty.IsPlain) {c : Char} (hc : c ∈ [';', '/', ')']) : c ∉ ty.name.toList :=
  h.lacks.not_mem hc

/-- Plain types have values. -/
theorem isVoid (h : ty.IsPlain) : ty.isVoid = false := by
  rcases h with h | h
  · have hne : ty.name ≠ "void" := fun heq => by
      rw [heq] at h
      exact absurd h (by decide)
    simp [Ty.isVoid, hne]
  · have hvoid := isVoid_of_isReference h.isReference
    simp only [Ty.isVoid, Ty.named] at hvoid ⊢
    simpa using fun _ => hvoid

/-- Plain types can stand in descriptors. -/
theorem isWritable (h : ty.IsPlain) : ty.IsWritable := by
  rcases h with hp | hc
  · obtain ⟨p, hp⟩ := Option.isSome_iff_exists.1 hp
    exact isWritable_of_ofName? hp
  · refine isWritable_of_not_mem hc.nonempty (hc.plain.not_mem (by simp)) fun hvoid => ?_
    have := hc.isReference
    rw [hvoid] at this
    exact absurd this (by decide)

theorem fits (h : ty.IsPlain) : ty.Fits named checked where
  value := h.isVoid
  legible _ := h.not_mem (by simp)
  writable _ := h.isWritable

end IsPlain

@[simp] theorem isPlain_handled {name : String} (h : name ∈ Known.handledClasses) :
    (Ty.named name).IsPlain := by
  have hall : ∀ name ∈ Known.handledClasses, (Ty.named name).IsPlain := by decide +kernel
  exact hall name h

end Ty

/-- The classes that generated code handles have plain names. -/
instance {named checked : Prop} : Known.AreFit named checked :=
  ⟨fun _ hname => (Ty.isPlain_handled hname).fits⟩

/-! ### Types from descriptors -/

/-- A text is cut in one way at the first of its separators. -/
theorem eq_of_append_cons_eq {α : Type} {sep : α} {a b s t : List α} (ha : sep ∉ a) (hb : sep ∉ b)
    (h : a ++ sep :: s = b ++ sep :: t) : a = b ∧ s = t := by
  induction a generalizing b with
  | nil =>
    cases b with
    | nil => exact ⟨rfl, (List.cons.inj h).2⟩
    | cons c b => exact absurd (List.mem_cons.2 (.inl (List.cons.inj h).1)) hb
  | cons c a ih =>
    rw [List.mem_cons, not_or] at ha
    cases b with
    | nil => exact absurd (List.cons.inj h).1.symm ha.1
    | cons d b =>
      rw [List.mem_cons, not_or] at hb
      obtain ⟨rfl, htail⟩ := List.cons.inj h
      obtain ⟨rfl, rfl⟩ := ih ha.2 hb.2 htail
      exact ⟨rfl, rfl⟩

/-- Names without slashes are told apart when slashes stand for their dots. -/
theorem slashed_injective {a b : String} (ha : '/' ∉ a.toList) (hb : '/' ∉ b.toList)
    (h : Dotted.slashed a = Dotted.slashed b) : a = b := by
  have hback : ∀ s : String, '/' ∉ s.toList →
      (Dotted.slashed s).toList.map (fun c => if c = '/' then '.' else c) = s.toList := by
    intro s hs
    rw [Dotted.slashed, Text.replaceChar, String.toList_ofList, List.map_map]
    refine (List.map_congr_left fun c hc => ?_).trans (List.map_id _)
    have hne : c ≠ '/' := fun heq => hs (heq ▸ hc)
    by_cases hdot : c = '.' <;> simp [hdot, hne]
  rw [← String.toList_inj, ← hback a ha, ← hback b hb, h]

namespace Ty

/-- The innermost element is spelled by a letter, or by the name of a class. -/
theorem elementDescriptor_cases (name : String) :
    (∃ p : Primitive, name = p.name ∧ elementDescriptor name = [p.letter]) ∨
      name = "void" ∧ elementDescriptor name = ['V'] ∨
      Primitive.ofName? name = none ∧
        elementDescriptor name = 'L' :: (Dotted.slashed name).toList ++ [';'] := by
  rw [elementDescriptor]
  cases hp : Primitive.ofName? name with
  | some p => exact .inl ⟨p, (Primitive.name_of_ofName?_eq_some hp).symm, rfl⟩
  | none =>
    by_cases hvoid : name = "void"
    · exact .inr (.inl ⟨hvoid, by simp [hvoid]⟩)
    · exact .inr (.inr ⟨rfl, by simp [hvoid]⟩)

/-- A plain type is spelled by a letter, or by the name of a class. -/
theorem IsPlain.elementDescriptor_cases {ty : Ty} (h : ty.IsPlain) :
    (∃ p : Primitive, ty.name = p.name ∧ elementDescriptor ty.name = [p.letter]) ∨
      Primitive.ofName? ty.name = none ∧
        elementDescriptor ty.name = 'L' :: (Dotted.slashed ty.name).toList ++ [';'] := by
  rcases Ty.elementDescriptor_cases ty.name with hp | ⟨hvoid, -⟩ | hclass
  · exact .inl hp
  · rcases h with h | h
    · rw [hvoid] at h
      exact absurd h (by decide)
    · have := h.isReference
      rw [hvoid] at this
      exact absurd this (by decide)
  · exact .inr hclass

/-- An element is told from its descriptor, whatever comes behind it. -/
theorem elementDescriptor_append_injective {a b : String} (ha : Text.Lacks [';', '/'] a)
    (hb : Text.Lacks [';', '/'] b) {s t : List Char}
    (h : elementDescriptor a ++ s = elementDescriptor b ++ t) : a = b ∧ s = t := by
  have hsemicolon : ∀ {name : String}, Text.Lacks [';', '/'] name →
      ';' ∉ (Dotted.slashed name).toList :=
    fun hname => not_mem_slashed (by decide) (hname.not_mem (by simp))
  rcases elementDescriptor_cases a with ⟨p, hpa, hda⟩ | ⟨hva, hda⟩ | ⟨-, hda⟩ <;>
    rcases elementDescriptor_cases b with ⟨q, hqb, hdb⟩ | ⟨hvb, hdb⟩ | ⟨-, hdb⟩ <;>
      rw [hda, hdb] at h
  · obtain ⟨hletter, hrest⟩ := List.cons.inj h
    exact ⟨by rw [hpa, hqb, Primitive.letter_injective hletter], hrest⟩
  · exact absurd (List.cons.inj h).1 (by cases p <;> decide)
  · exact absurd (List.cons.inj h).1 (by cases p <;> decide)
  · exact absurd (List.cons.inj h).1.symm (by cases q <;> decide)
  · exact ⟨hva.trans hvb.symm, (List.cons.inj h).2⟩
  · exact absurd (List.cons.inj h).1 (by decide)
  · exact absurd (List.cons.inj h).1.symm (by cases q <;> decide)
  · exact absurd (List.cons.inj h).1 (by decide)
  · -- The name of a class ends at the semicolon.
    rw [List.cons_append, List.cons_append, List.append_assoc, List.append_assoc] at h
    obtain ⟨hnames, hrest⟩ := eq_of_append_cons_eq (hsemicolon ha) (hsemicolon hb)
      (List.cons.inj h).2
    exact ⟨slashed_injective (ha.not_mem (by simp)) (hb.not_mem (by simp))
      (String.toList_inj.1 hnames), hrest⟩

/-- The descriptor of an element does not begin with a bracket. -/
theorem elementDescriptor_append_ne_bracket (name : String) (s rest : List Char) :
    elementDescriptor name ++ s ≠ '[' :: rest := by
  rcases elementDescriptor_cases name with ⟨p, -, hd⟩ | ⟨-, hd⟩ | ⟨-, hd⟩ <;> rw [hd]
  · cases p <;> simp [Primitive.letter]
  · simp
  · simp

/-- A type is told from its descriptor, whatever comes behind it. -/
theorem descriptor_append_injective {a b : Ty} (ha : Text.Lacks [';', '/'] a.name)
    (hb : Text.Lacks [';', '/'] b.name) {s t : List Char}
    (h : a.descriptor.toList ++ s = b.descriptor.toList ++ t) : a = b ∧ s = t := by
  -- The descriptor of an element begins with no bracket, so the brackets can be counted.
  have hreplicate : ∀ m n, List.replicate m '[' ++ (elementDescriptor a.name ++ s) =
      List.replicate n '[' ++ (elementDescriptor b.name ++ t) →
        m = n ∧ elementDescriptor a.name ++ s = elementDescriptor b.name ++ t := by
    intro m
    induction m with
    | zero =>
      intro n heq
      cases n with
      | zero => exact ⟨rfl, heq⟩
      | succ n => exact absurd heq (elementDescriptor_append_ne_bracket _ _ _)
    | succ m ih =>
      intro n heq
      cases n with
      | zero => exact absurd heq.symm (elementDescriptor_append_ne_bracket _ _ _)
      | succ n =>
        obtain ⟨rfl, helement⟩ := ih n (List.cons.inj heq).2
        exact ⟨rfl, helement⟩
  rw [descriptor, descriptor, String.toList_ofList, String.toList_ofList, List.append_assoc,
    List.append_assoc] at h
  obtain ⟨hdims, helement⟩ := hreplicate _ _ h
  obtain ⟨hname, hrest⟩ := elementDescriptor_append_injective ha hb helement
  cases a
  cases b
  simp only at hdims hname
  exact ⟨by rw [hdims, hname], hrest⟩

theorem descriptor_ne_nil (ty : Ty) : ty.descriptor.toList ≠ [] := by
  rw [descriptor, String.toList_ofList]
  rcases elementDescriptor_cases ty.name with ⟨p, -, hd⟩ | ⟨-, hd⟩ | ⟨-, hd⟩ <;> simp [hd]

/-- Lists of types are told from their descriptors. -/
theorem params_injective {a b : List Ty} (ha : ∀ ty ∈ a, Text.Lacks [';', '/'] ty.name)
    (hb : ∀ ty ∈ b, Text.Lacks [';', '/'] ty.name)
    (h : (a.flatMap fun ty => ty.descriptor.toList) = b.flatMap fun ty => ty.descriptor.toList) :
    a = b := by
  induction a generalizing b with
  | nil =>
    cases b with
    | nil => rfl
    | cons ty b => exact absurd (List.append_eq_nil_iff.1 h.symm).1 ty.descriptor_ne_nil
  | cons ty a ih =>
    cases b with
    | nil => exact absurd (List.append_eq_nil_iff.1 h).1 ty.descriptor_ne_nil
    | cons ty' b =>
      rw [List.forall_mem_cons] at ha hb
      obtain ⟨hty, hrest⟩ := descriptor_append_injective ha.1 hb.1 h
      rw [hty, ih ha.2 hb.2 hrest]

/-- A descriptor has no parentheses but those in the name. -/
theorem not_mem_descriptor {ty : Ty} {c : Char} (hc : c ∈ ['(', ')']) (h : c ∉ ty.name.toList) :
    c ∉ ty.descriptor.toList := by
  have hslashed : c ∉ (Dotted.slashed ty.name).toList :=
    not_mem_slashed (fun heq => by simp [heq] at hc) h
  have hcases : c = '(' ∨ c = ')' := by simpa using hc
  rw [descriptor, String.toList_ofList, List.mem_append, not_or]
  constructor
  · rcases hcases with rfl | rfl <;> simp
  rcases elementDescriptor_cases ty.name with ⟨p, -, hd⟩ | ⟨-, hd⟩ | ⟨-, hd⟩ <;> rw [hd]
  · rcases hcases with rfl | rfl <;> cases p <;> decide
  · rcases hcases with rfl | rfl <;> decide
  · rcases hcases with rfl | rfl <;> simp [hslashed]

end Ty

/-- A name and parameters are told from the text of a signature, which ends at its last
    parenthesis. -/
theorem signature_injective {a b : String} {as bs : List Ty}
    (has : ∀ ty ∈ as, Text.Lacks [';', '/', '('] ty.name)
    (hbs : ∀ ty ∈ bs, Text.Lacks [';', '/', '('] ty.name)
    (h : a ++ paramsDescriptor as = b ++ paramsDescriptor bs) : a = b ∧ as = bs := by
  have hnone : ∀ {types : List Ty}, (∀ ty ∈ types, Text.Lacks [';', '/', '('] ty.name) →
      '(' ∉ (types.flatMap fun ty => ty.descriptor.toList).reverse := by
    intro types htypes hmem
    obtain ⟨ty, hty, hmem⟩ := List.mem_flatMap.1 (List.mem_reverse.1 hmem)
    exact Ty.not_mem_descriptor (by simp) ((htypes ty hty).not_mem (by simp)) hmem
  have hlists := congrArg String.toList h
  simp only [String.toList_append, toList_paramsDescriptor, ← List.append_assoc] at hlists
  have hreversed := congrArg List.reverse (List.append_cancel_right hlists)
  simp only [List.reverse_append, List.reverse_cons, List.append_assoc,
    List.singleton_append] at hreversed
  obtain ⟨htypes, hnames⟩ := eq_of_append_cons_eq (hnone has) (hnone hbs) hreversed
  exact ⟨String.toList_inj.1 (List.reverse_inj.1 hnames),
    Ty.params_injective (fun ty hty => (has ty hty).mono (by simp))
      (fun ty hty => (hbs ty hty).mono (by simp)) (List.reverse_inj.1 htypes)⟩

/-! ### Operations -/

namespace Operation

variable {op other : Operation}

theorem sameSignature_iff :
    op.sameSignature other = true ↔ op.name = other.name ∧ op.params = other.params := by
  simp [sameSignature]

/-- The key of an operation tells its signature. -/
theorem signatureKey_eq_iff (hparams : ∀ ty ∈ op.params, Text.Lacks [';', '/', '('] ty.name)
    (hothers : ∀ ty ∈ other.params, Text.Lacks [';', '/', '('] ty.name) :
    (op.signatureKey = other.signatureKey ↔ op.sameSignature other = true) ∧
      (op.sameSignature other = true ↔ op.name = other.name ∧ op.params = other.params) := by
  refine ⟨⟨fun h => sameSignature_iff.2 (signature_injective hparams hothers h), fun h => ?_⟩,
    sameSignature_iff⟩
  obtain ⟨hname, htypes⟩ := sameSignature_iff.1 h
  rw [signatureKey, signatureKey, hname, htypes]

/-- Numbers are told from instances of the class that has their letter for its name. -/
theorem signatureKey_eq_iff_letters :
    let numbers : Operation := { name := "add", params := [⟨"int", 1⟩, ⟨"acme.Item", 0⟩] }
    let letters : Operation := { name := "add", params := [⟨"I", 1⟩, ⟨"acme.Item", 0⟩] }
    (∀ ty ∈ numbers.params, Text.Lacks [';', '/', '('] ty.name) ∧
      (∀ ty ∈ letters.params, Text.Lacks [';', '/', '('] ty.name) ∧
        numbers.signatureKey ≠ letters.signatureKey := by
  intro numbers letters
  have hnumbers : ∀ ty ∈ numbers.params, Text.Lacks [';', '/', '('] ty.name := by decide
  have hletters : ∀ ty ∈ letters.params, Text.Lacks [';', '/', '('] ty.name := by decide
  refine ⟨hnumbers, hletters, fun h => ?_⟩
  have hsame := (signatureKey_eq_iff hnumbers hletters).1.1 h
  exact absurd (sameSignature_iff.1 hsame).2 (by decide)

end Operation

/-! ### Methods -/

/-- A method with plain types that has a body, and is not marked as if it had none. -/
structure Method.IsPlain (m : Method) : Prop where
  params : ∀ ty ∈ m.params, ty.IsPlain
  result : m.result.IsPlainResult
  body : m.body.isSome = true
  access : m.access &&& (Modifiers.abstractBit ||| Modifiers.nativeBit) = 0

namespace Method

/-- Methods with one label have one name and the same parameters. -/
theorem IsPlain.label_injective {m n : Method} (hm : m.IsPlain) (hn : n.IsPlain)
    (hmname : '(' ∉ m.name.toList) (hnname : '(' ∉ n.name.toList) (h : m.label = n.label) :
    m.name = n.name ∧ m.params = n.params := by
  have hnone : ∀ {types : List Ty}, (∀ ty ∈ types, ty.IsPlain) →
      ')' ∉ types.flatMap fun ty => ty.descriptor.toList := by
    intro types htypes hmem
    obtain ⟨ty, hty, hmem⟩ := List.mem_flatMap.1 hmem
    exact Ty.not_mem_descriptor (by simp) ((htypes ty hty).not_mem (by simp)) hmem
  have hlists := congrArg String.toList h
  simp only [label, descriptor, String.toList_append, toList_methodDescriptor] at hlists
  -- The name ends at the first opening bracket, and the parameters at the first closing one.
  obtain ⟨hname, htypes⟩ := eq_of_append_cons_eq hmname hnname hlists
  obtain ⟨hparams, -⟩ := eq_of_append_cons_eq (hnone hm.params) (hnone hn.params) htypes
  exact ⟨String.toList_inj.1 hname, Ty.params_injective
    (fun ty hty => (hm.params ty hty).lacks.mono (by simp))
    (fun ty hty => (hn.params ty hty).lacks.mono (by simp)) hparams⟩

/-- Methods have labels of their own where they have signatures of their own. -/
theorem nodup_labels {methods : List Method} (hplain : ∀ m ∈ methods, m.IsPlain)
    (hnames : ∀ m ∈ methods, '(' ∉ m.name.toList)
    (hnodup : (methods.map fun m => (m.name, m.params)).Nodup) :
    (methods.map label).Nodup := by
  rw [List.Nodup, List.pairwise_map] at hnodup ⊢
  refine hnodup.imp_of_mem fun hm hn hne heq => hne ?_
  obtain ⟨hname, hparams⟩ :=
    (hplain _ hm).label_injective (hplain _ hn) (hnames _ hm) (hnames _ hn) heq
  rw [hname, hparams]

/-- A plain method returns the way its descriptor says. -/
theorem IsPlain.returnFor_descriptor {m : Method} (h : m.IsPlain) :
    CodeAttribute.returnFor m.descriptor = Draft.returnOp m.result := by
  have hnone : ')' ∉ m.result.descriptor.toList := by
    rcases h.result with hvoid | hplain
    · rw [hvoid]
      decide
    · exact Ty.not_mem_descriptor (by simp) (hplain.not_mem (by simp))
  -- The verifier looks at what stands behind the last parenthesis, which is the result.
  have hlast : (m.descriptor.toList.reverse.takeWhile (· ≠ ')')).getLast? =
      m.result.descriptor.toList.head? := by
    rw [descriptor, toList_methodDescriptor, List.reverse_append, List.reverse_cons,
      List.append_assoc, List.takeWhile_append_of_pos, List.singleton_append,
      List.takeWhile_cons_of_neg (by simp), List.append_nil, List.getLast?_reverse]
    intro c hc
    have hne : c ≠ ')' := fun heq => hnone (heq ▸ List.mem_reverse.1 hc)
    simpa using hne
  rw [CodeAttribute.returnFor, hlast, Draft.returnOp]
  rcases h.result with hvoid | hplain
  · rw [hvoid]
    decide
  · rw [hplain.isVoid, if_neg Bool.false_ne_true, Ty.descriptor, String.toList_ofList]
    cases hdims : m.result.dims with
    | succ dims =>
      have hkind : m.result.slotKind? = some .reference := by
        simp [Ty.slotKind?, hplain.isVoid, Ty.primitive?, hdims]
      simp [List.replicate_succ, Draft.kindOf, hkind]
    | zero =>
      rw [List.replicate_zero, List.nil_append]
      rcases hplain.elementDescriptor_cases with ⟨p, hname, hd⟩ | ⟨hname, hd⟩
      · have heq : m.result = Ty.ofPrimitive p := by
          rw [Ty.ofPrimitive, Ty.named, ← hname, ← hdims]
        rw [hd, heq]
        cases p <;> decide
      · have hkind : m.result.slotKind? = some .reference := by
          simp [Ty.slotKind?, hplain.isVoid, Ty.primitive?, hdims, hname]
        simp [hd, Draft.kindOf, hkind]

end Method

end ComponentViews
