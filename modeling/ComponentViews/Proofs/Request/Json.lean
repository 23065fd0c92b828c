import ComponentViews.Proofs.Json.Records
import ComponentViews.Proofs.Json.Writing
import ComponentViews.Proofs.Request.Spelling
import ComponentViews.Proofs.Table
import ComponentViews.Request.Json

/-!
# Requests that have been read

A description can be written so that it is read as the same again if its types and modifiers are
*spelled*, that is if they have texts and words of their own (`Request.readJson_toJson`). All that
has been read is spelled, in whatever way it was written and whichever fields were left to their
defaults (`Request.isSpelled_of_readJson`). So requests survive being written and read
(`Request.ofText_compact_toJson`), and what is written for them is the same from then on.
-/

namespace ComponentViews

/-! ### Types and modifiers -/

namespace Ty

theorem isSpelled_of_readJson {j : Json} {ty : Ty} (h : readJson j = .ok ty) : ty.IsSpelled := by
  obtain ⟨text, htext⟩ := Json.exists_of_readSpelled h
  exact isSpelled_of_parse? htext

theorem forall_isSpelled_of_readList {j : Json} {types : List Ty}
    (h : Json.readList readJson j = .ok types) : ∀ ty ∈ types, ty.IsSpelled :=
  Json.forall_of_readList (fun _ _ => isSpelled_of_readJson) h

theorem readJson_toJson {ty : Ty} (h : ty.IsSpelled) : readJson ty.toJson = .ok ty :=
  Json.readSpelled_string (parse?_text h)

theorem readJson_listJson {types : List Ty} (h : ∀ ty ∈ types, ty.IsSpelled) :
    Json.readList readJson (listJson types) = .ok types :=
  Json.readList_ofList fun ty hty => readJson_toJson (h ty hty)

@[simp] theorem isWhole_toJson (ty : Ty) : ty.toJson.IsWhole := .string ty.text

@[simp] theorem isWhole_listJson (types : List Ty) : (listJson types).IsWhole :=
  .map isWhole_toJson types

end Ty

namespace Modifiers

theorem isSpelled_of_readJson {j : Json} {m : Modifiers} (h : readJson j = .ok m) :
    m.IsSpelled := by
  obtain ⟨words, -, h⟩ := Except.bind_eq_ok.1 h
  split at h
  · rename_i read hread
    cases h
    exact ofWords_words hread
  · cases h

theorem readJson_toJson {m : Modifiers} (h : m.IsSpelled) : readJson m.toJson = .ok m := by
  have hwords : Json.readList Json.readString m.toJson = .ok m.words :=
    Json.readList_ofList fun _ _ => rfl
  simp only [readJson, hwords, bind, Except.bind]
  rw [show ofWords m.words = .ok m from h]

@[simp] theorem isWhole_toJson (m : Modifiers) : m.toJson.IsWhole :=
  .map Json.IsWhole.string m.words

end Modifiers

/-! ### Operations -/

namespace Operation

/-- The types and modifiers of the operation have texts and words of their own. -/
structure IsSpelled (op : Operation) : Prop where
  params : ∀ ty ∈ op.params, ty.IsSpelled
  result : op.result.IsSpelled
  throws : ∀ ty ∈ op.throws, ty.IsSpelled
  modifiers : op.modifiers.IsSpelled

theorem isSpelled_of_readJson {j : Json} {op : Operation} (h : readJson j = .ok op) :
    op.IsSpelled := by
  refine Json.holds_of_readRecord (P := IsSpelled) ?_ ?_ h
  · -- The defaults: no parameters, `void`, no failures, and public and abstract.
    exact ⟨by simp, Ty.isSpelled_void, by simp, Modifiers.isSpelled_interfaceMethod⟩
  · exact .mandatory (fun _ _ _ _ h => { h with }) <|
      .optional (fun _ _ hread _ h =>
        { h with params := Ty.forall_isSpelled_of_readList hread }) <|
      .optional (fun _ _ hread _ h => { h with result := Ty.isSpelled_of_readJson hread }) <|
      .optional (fun _ _ hread _ h =>
        { h with throws := Ty.forall_isSpelled_of_readList hread }) <|
      .optional (fun _ _ _ _ h => { h with }) <|
      .optional (fun _ _ hread _ h =>
        { h with modifiers := Modifiers.isSpelled_of_readJson hread }) <| .nil

theorem forall_isSpelled_of_readList {j : Json} {ops : List Operation}
    (h : Json.readList readJson j = .ok ops) : ∀ op ∈ ops, op.IsSpelled :=
  Json.forall_of_readList (fun _ _ => isSpelled_of_readJson) h

theorem readJson_toJson {op : Operation} (h : op.IsSpelled) : readJson op.toJson = .ok op := by
  rw [readJson, toJson]
  exact Json.Fills.readRecord
    (.mandatory rfl <| .optional (Ty.readJson_listJson h.params) <|
      .optional (Ty.readJson_toJson h.result) <| .optional (Ty.readJson_listJson h.throws) <|
      .optional rfl <| .optional (Modifiers.readJson_toJson h.modifiers) <| .nil _) (by decide)

theorem readList_toJson {ops : List Operation} (h : ∀ op ∈ ops, op.IsSpelled) :
    Json.readList readJson (.ofList (ops.map (·.toJson))) = .ok ops :=
  Json.readList_ofList fun op hop => readJson_toJson (h op hop)

@[simp] theorem isWhole_toJson (op : Operation) : op.toJson.IsWhole := .entries (by simp)

end Operation

/-! ### Classes and interfaces -/

namespace ClassDecl

theorem readJson_toJson (c : ClassDecl) : readJson c.toJson = .ok c := by
  rw [readJson, toJson]
  exact Json.Fills.readRecord
    (.mandatory rfl <| .optional (Json.readOption_ofOption nofun fun _ _ => rfl) <|
      .optional (Json.readList_ofList fun _ _ => rfl) <| .optional rfl <| .nil _) (by decide)

@[simp] theorem isWhole_toJson (c : ClassDecl) : c.toJson.IsWhole := .entries (by simp)

end ClassDecl

namespace Interface

/-- The operations of the interface are spelled. -/
def IsSpelled (i : Interface) : Prop := ∀ op ∈ i.methods, op.IsSpelled

theorem isSpelled_of_readJson {j : Json} {i : Interface} (h : readJson j = .ok i) :
    i.IsSpelled := by
  refine Json.holds_of_readRecord (P := IsSpelled) (by simp [IsSpelled]) ?_ h
  exact .mandatory (fun _ _ _ _ h => h) <| .optional (fun _ _ _ _ h => h) <|
    .optional (fun _ _ _ _ h => h) <|
    .optional (fun _ _ hread _ _ => Operation.forall_isSpelled_of_readList hread) <| .nil

theorem readJson_toJson {i : Interface} (h : i.IsSpelled) : readJson i.toJson = .ok i := by
  rw [readJson, toJson]
  exact Json.Fills.readRecord
    (.mandatory rfl <| .optional (Json.readList_ofList fun _ _ => rfl) <| .optional rfl <|
      .optional (Operation.readList_toJson h) <| .nil _) (by decide)

@[simp] theorem isWhole_toJson (i : Interface) : i.toJson.IsWhole := .entries (by simp)

end Interface

namespace Bean

/-- The methods of the bean class are spelled. -/
def IsSpelled (b : Bean) : Prop := ∀ op ∈ b.methods, op.IsSpelled

theorem isSpelled_of_readJson {j : Json} {b : Bean} (h : readJson j = .ok b) : b.IsSpelled := by
  refine Json.holds_of_readRecord (P := IsSpelled) (by simp [IsSpelled]) ?_ h
  exact .mandatory (fun _ _ _ _ h => h) <| .optional (fun _ _ _ _ h => h) <|
    .optional (fun _ _ hread _ _ => Operation.forall_isSpelled_of_readList hread) <| .nil

theorem readJson_toJson {b : Bean} (h : b.IsSpelled) : readJson b.toJson = .ok b := by
  rw [readJson, toJson]
  exact Json.Fills.readRecord
    (.mandatory rfl <| .optional (Json.readOption_ofOption nofun fun _ _ => rfl) <|
      .optional (Operation.readList_toJson h) <| .nil _) (by decide)

@[simp] theorem isWhole_toJson (b : Bean) : b.toJson.IsWhole := .entries (by simp)

end Bean

/-! ### Policies and bindings -/

namespace Table

variable {α : Type} {read : Json.Reader α} {write : α → Json}

theorem readJson_toJson {t : Table α} (h : ∀ e ∈ t.entries, read (write e.2) = .ok e.2) :
    readJson read (t.toJson write) = .ok t := by
  rw [readJson, toJson, Json.readEntries_ofEntries h]
  exact congrArg Except.ok t.ofList_entries

@[simp] theorem isWhole_toJson (hwrite : ∀ a, (write a).IsWhole) (t : Table α) :
    (t.toJson write).IsWhole :=
  .entries fun _ hentry => by
    obtain ⟨e, -, rfl⟩ := List.mem_map.1 hentry
    exact hwrite e.2

end Table

namespace DispatchPolicy

theorem readJson_toJson (p : DispatchPolicy) : readJson p.toJson = .ok p := by
  rw [readJson, toJson]
  exact Json.Fills.readRecord (.optional rfl <| .optional rfl <| .nil _) (by decide)

@[simp] theorem isWhole_toJson (p : DispatchPolicy) : p.toJson.IsWhole := .entries (by simp)

end DispatchPolicy

namespace FactoryBinding

/-- The type of primary keys and the other home are spelled, if there are such. -/
structure IsSpelled (f : FactoryBinding) : Prop where
  keyType : ∀ ty ∈ f.keyType, ty.IsSpelled
  companion : ∀ i ∈ f.companion, i.IsSpelled

theorem isSpelled_of_readJson {j : Json} {f : FactoryBinding} (h : readJson j = .ok f) :
    f.IsSpelled := by
  refine Json.holds_of_readRecord (P := IsSpelled) ⟨by simp, by simp⟩ ?_ h
  exact .optional (fun _ _ _ _ h => { h with }) <|
    .optional (fun _ _ hread _ h =>
      { h with
        keyType := Json.forall_of_readOption (fun _ _ => Ty.isSpelled_of_readJson) hread }) <|
    .optional (fun _ _ hread _ h =>
      { h with
        companion :=
          Json.forall_of_readOption (fun _ _ => Interface.isSpelled_of_readJson) hread }) <|
    .optional (fun _ _ _ _ h => { h with }) <| .nil

theorem readJson_toJson {f : FactoryBinding} (h : f.IsSpelled) : readJson f.toJson = .ok f := by
  rw [readJson, toJson]
  exact Json.Fills.readRecord
    (.optional (Table.readJson_toJson fun _ _ => rfl) <|
      .optional (Json.readOption_ofOption nofun fun ty hty =>
        Ty.readJson_toJson (h.keyType ty hty)) <|
      .optional (Json.readOption_ofOption nofun fun i hi =>
        Interface.readJson_toJson (h.companion i hi)) <|
      .optional rfl <| .nil _) (by decide)

@[simp] theorem isWhole_toJson (f : FactoryBinding) : f.toJson.IsWhole := .entries (by simp)

end FactoryBinding

/-! ### Requests -/

namespace Request

/-- The types and modifiers that the request speaks of are spelled. -/
structure IsSpelled (r : Request) : Prop where
  interfaces : ∀ i ∈ r.interfaces, i.IsSpelled
  bean : r.bean.IsSpelled
  allMethods : ∀ op ∈ r.allMethods, op.IsSpelled
  factory : ∀ f ∈ r.factory, f.IsSpelled

theorem isSpelled_of_readJson {j : Json} {r : Request} (h : readJson j = .ok r) :
    r.IsSpelled := by
  refine Json.holds_of_readRecord (P := IsSpelled) ?_ ?_ h
  · exact ⟨by simp, by simp [Bean.IsSpelled], by simp, by simp⟩
  · exact .mandatory (fun _ _ _ _ h => { h with }) <| .mandatory (fun _ _ _ _ h => { h with }) <|
      .optional (fun _ _ _ _ h => { h with }) <|
      .optional (fun _ _ hread _ h =>
        { h with
          interfaces :=
            Json.forall_of_readList (fun _ _ => Interface.isSpelled_of_readJson) hread }) <|
      .mandatory (fun _ _ hread _ h => { h with bean := Bean.isSpelled_of_readJson hread }) <|
      .optional (fun _ _ _ _ h => { h with }) <| .optional (fun _ _ _ _ h => { h with }) <|
      .optional (fun _ _ hread _ h =>
        { h with allMethods := Operation.forall_isSpelled_of_readList hread }) <|
      .optional (fun _ _ _ _ h => { h with }) <|
      .optional (fun _ _ hread _ h =>
        { h with
          factory :=
            Json.forall_of_readOption (fun _ _ => FactoryBinding.isSpelled_of_readJson) hread }) <|
      .nil

theorem readJson_toJson {r : Request} (h : r.IsSpelled) : readJson r.toJson = .ok r := by
  rw [readJson, toJson]
  exact Json.Fills.readRecord
    (.mandatory rfl <| .mandatory (Json.readWord_string r.kind.ofWord?_word) <|
      .optional (Json.readWord_string r.componentType.ofWord?_word) <|
      .optional (Json.readList_ofList fun i hi => Interface.readJson_toJson (h.interfaces i hi)) <|
      .mandatory (Bean.readJson_toJson h.bean) <|
      .optional (Json.readList_ofList fun c _ => c.readJson_toJson) <|
      .optional (Table.readJson_toJson fun e _ => e.2.readJson_toJson) <|
      .optional (Operation.readList_toJson h.allMethods) <|
      .optional (Json.readOption_ofOption nofun fun _ _ => rfl) <|
      .optional (Json.readOption_ofOption nofun fun f hf =>
        FactoryBinding.readJson_toJson (h.factory f hf)) <| .nil _) (by decide)

theorem isWhole_toJson (r : Request) : r.toJson.IsWhole := .entries (by simp)

/-- A request that has been read from a value is read again from the value that is written for it;
    one that has been read from a text, from the text of this value; and a type from its own text.
    The words for modifiers that have been read are the words that they have been read from, and
    all lists of these words are read as the same modifiers. -/
theorem ofText_compact_toJson :
    (∀ {j : Json} {r : Request}, readJson j = .ok r → readJson r.toJson = .ok r) ∧
    (∀ {text : String} {r : Request}, ofText text = .ok r →
      ofText (Json.compact r.toJson) = .ok r) ∧
    (∀ {text : String} {ty : Ty}, Ty.parse? text = some ty → Ty.parse? ty.text = some ty) ∧
    ∀ {words : List String} {m : Modifiers}, Modifiers.ofWords words = .ok m →
      Modifiers.ofWords m.words = .ok m ∧ (∀ word, word ∈ m.words ↔ word ∈ words) ∧
        ∀ others, (∀ word, word ∈ words ↔ word ∈ others) → Modifiers.ofWords others = .ok m := by
  have hvalue : ∀ {j : Json} {r : Request}, readJson j = .ok r → readJson r.toJson = .ok r :=
    fun h => readJson_toJson (isSpelled_of_readJson h)
  refine ⟨hvalue, fun {text r} h => ?_, Ty.parse?_text_of_parse?, fun {words m} h => ?_⟩
  · obtain ⟨j, hj⟩ := Json.exists_of_readText h
    rw [ofText, Json.readText_compact r.isWhole_toJson]
    exact hvalue hj
  · exact ⟨Modifiers.ofWords_words h, fun _ => Modifiers.mem_words_iff h,
      fun _ => Modifiers.ofWords_congr h⟩

/-- The text of a request whose types have blanks in them, and whose modifiers are neither in order
    nor given once each. -/
def looseText : String :=
  "\x7b\"component\":\"Till\",\"kind\":\"NoInterfaceView\",\"target\":\x7b" ++
    "\"class_name\":\"acme.Till\",\"methods\":[\x7b\"name\":\"fill\"," ++
    "\"params\":[\" int [] []\"],\"modifiers\":[\"final\",\"public\",\"final\"]\x7d]\x7d\x7d"

/-- What is read from the text. -/
def looseRequest : Request where
  component := "Till"
  kind := .noInterface
  bean := {
    className := "acme.Till"
    methods := [{ name := "fill", params := [⟨"int", 2⟩], modifiers := ⟨0x11⟩ }] }

/-- A value of the same request that leaves out what the text leaves out. -/
def looseJson : Json :=
  .ofEntries
    [("component", .string "Till"), ("kind", .string "NoInterfaceView"), ("target", .ofEntries
      [("class_name", .string "acme.Till"), ("methods", .ofList
        [.ofEntries [("name", .string "fill"), ("params", .ofList [.string " int [] []"]),
          ("modifiers", .ofList [.string "final", .string "public", .string "final"])]])])]

theorem ofText_compact_looseRequest :
    readJson looseJson = .ok looseRequest ∧
      readJson looseRequest.toJson = .ok looseRequest ∧
      ofText looseText = .ok looseRequest ∧
      ofText (Json.compact looseRequest.toJson) = .ok looseRequest ∧
      Ty.parse? " int [] []" = some ⟨"int", 2⟩ ∧ Ty.parse? (Ty.text ⟨"int", 2⟩) = some ⟨"int", 2⟩ ∧
      Modifiers.ofWords ["final", "public", "final"] = .ok ⟨0x11⟩ ∧
      Modifiers.ofWords ["public", "final"] = .ok ⟨0x11⟩ := by
  have hvalue : readJson looseJson = .ok looseRequest := by decide +kernel
  have hrequest : ofText looseText = .ok looseRequest := by decide +kernel
  have hty : Ty.parse? " int [] []" = some ⟨"int", 2⟩ := by decide
  have hwords : Modifiers.ofWords ["final", "public", "final"] = .ok ⟨0x11⟩ := by decide +kernel
  have hsame : ∀ word, word ∈ ["final", "public", "final"] ↔ word ∈ ["public", "final"] := by
    simp [or_comm]
  obtain ⟨hread, htext, hparse, hspell⟩ := @ofText_compact_toJson
  exact ⟨hvalue, hread hvalue, hrequest, htext hrequest, hty, hparse hty, hwords,
    (hspell hwords).2.2 _ hsame⟩

end Request

end ComponentViews
