import ComponentViews.Proofs.Code.Kinds

/-!
# Operands of the right kind

An expression is *kinded* if every operand in it has a value, of the kind that its consumer
declares: the type of a parameter for an argument, a reference for a receiver. In kinded
statements variables take values of their kind, conditions and switch keys are ints, and what is
thrown is a reference (`CodeContext.Kinded`, `CodeContext.KindedBlock`). It can be decided
whether a body is. To *typed* bodies this adds that every operand has a value.

The lemmas on each constructor are tagged for `simp`, so that a generated body is worked through
by simplification, down to the kinds of its variables and arguments, of which `CodeContext.Sees`
tells, and to the kinds of the types that the request names.
-/

namespace ComponentViews

instance (ty : Ty) : Decidable ty.IsWritable := inferInstanceAs (Decidable (_ = true))

instance (named checked : Prop) [Decidable named] [Decidable checked] (kind : CallKind)
    (params : List Ty) (result : Ty) : Decidable (FitsCall named checked kind params result) :=
  decidable_of_iff ((∀ ty ∈ params, ty.isVoid = false) ∧ (named → AreLegible params) ∧
      (checked → Descriptor.isMethod (methodDescriptor params result).toList = true) ∧
      (checked → kind = .interface → slotsOf params ≤ 254))
    ⟨fun h => ⟨h.1, h.2.1, h.2.2.1, h.2.2.2⟩, fun h => ⟨h.values, h.legible, h.writable, h.slots⟩⟩

namespace CodeContext

section

variable (c : CodeContext) (named checked : Prop)

mutual

/-- Every operand in an expression has a value of the kind that its consumer expects. -/
def Kinded : Expr → Prop
  | .const l => checked → l ≠ .double 0x3ff0000000000000
  | .var _ | .arg _ | .classOf _ => True
  | .this => c.IsReference .this
  | .field f target => Kinded target ∧ c.IsReference target ∧ (checked → f.type.IsWritable)
  | .new className params args =>
    (Ty.named className).isReference = true ∧ AllKinded args ∧
      args.map c.kindOf? = params.map Ty.slotKind? ∧ FitsCall named checked .special params .void
  | .array element items =>
    element.isReference = true ∧ AllKinded items ∧ ∀ e ∈ items, c.IsReference e
  | .item array _ => Kinded array ∧ c.IsReference array
  | .box e => Kinded e ∧ c.kindOf? e ≠ none
  | .unbox _ e => Kinded e ∧ c.IsReference e
  | .cast ty e => ty.isReference = true ∧ Kinded e ∧ c.IsReference e
  | .call callee receiver args =>
    ReceiverKinded callee receiver ∧ AllKinded args ∧
      args.map c.kindOf? = callee.params.map Ty.slotKind? ∧
        FitsCall named checked callee.kind callee.params callee.result

/-- There is a receiver unless the method is static. -/
def ReceiverKinded (callee : Callee) : Option Expr → Prop
  | none => callee.kind = .static
  | some e => callee.kind ≠ .static ∧ Kinded e ∧ c.IsReference e

/-- All expressions of a list are kinded. -/
def AllKinded : List Expr → Prop
  | [] => True
  | e :: rest => Kinded e ∧ AllKinded rest

end

/-- What a condition asks about is kinded, and has the kind that the question is about. -/
def KindedCond : Cond → Prop
  | .isTrue e | .isFalse e => c.Kinded named checked e ∧ c.kindOf? e = some .int
  | .isNull e | .notNull e | .instanceOf e _ => c.Kinded named checked e ∧ c.IsReference e
  | .same a b =>
    (c.Kinded named checked a ∧ c.IsReference a) ∧ c.Kinded named checked b ∧ c.IsReference b

mutual

/-- A statement puts values only where values of their kind are kept, and its blocks are kinded. -/
def KindedStmt : Stmt → Prop
  | .assign i e =>
    c.Kinded named checked e ∧ c.kindOf? e = c.kindOf? (.var i) ∧ c.kindOf? e ≠ none
  | .setField f target value =>
    (c.Kinded named checked target ∧ c.IsReference target) ∧
      (c.Kinded named checked value ∧ c.kindOf? value = f.type.slotKind? ∧
        c.kindOf? value ≠ none) ∧ (checked → f.type.IsWritable)
  | .eval e => c.Kinded named checked e
  | .cond cond yes no => c.KindedCond named checked cond ∧ KindedBlock yes ∧ KindedBlock no
  | .switch key cases otherwise =>
    (c.Kinded named checked key ∧ c.kindOf? key = some .int) ∧ KindedCases cases ∧
      KindedBlock otherwise
  | .throw e => c.Kinded named checked e ∧ c.IsReference e
  | .ret none => True
  | .ret (some e) =>
    c.Kinded named checked e ∧ c.kindOf? e = c.method.result.slotKind? ∧ c.kindOf? e ≠ none
  | .region body handlers exit => KindedBlock body ∧ KindedHandlers handlers ∧ KindedExit exit

/-- Every operand in a block has a value of the kind that its consumer expects. -/
def KindedBlock : Block → Prop
  | [] => True
  | s :: rest => KindedStmt s ∧ KindedBlock rest

/-- The blocks of the cases of a switch are kinded. -/
def KindedCases : List (Int32 × Block) → Prop
  | [] => True
  | (_, block) :: rest => KindedBlock block ∧ KindedCases rest

/-- Failures are caught in variables for references. -/
def KindedHandlers : List Handler → Prop
  | [] => True
  | ⟨_, binding, block⟩ :: rest =>
    (c.IsReference (.var binding) ∧ KindedBlock block) ∧ KindedHandlers rest

/-- An exit block is kinded, and the failure in flight is kept in a variable for references. -/
def KindedExit : Option ExitBlock → Prop
  | none => True
  | some ⟨inFlight, block⟩ => (∀ i ∈ inFlight, c.IsReference (.var i)) ∧ KindedBlock block

end

end

/-! ### Deciding -/

instance (c : CodeContext) (e : Expr) : Decidable (c.IsReference e) :=
  inferInstanceAs (Decidable (c.kindOf? e = some .reference))

section

variable (c : CodeContext) (named checked : Prop) [Decidable named] [Decidable checked]

mutual

/-- Whether an expression is kinded can be looked up in it. -/
def decidableKinded : (e : Expr) → Decidable (c.Kinded named checked e)
  | .const l => inferInstanceAs (Decidable (checked → l ≠ .double 0x3ff0000000000000))
  | .var _ | .arg _ | .classOf _ => isTrue trivial
  | .this => inferInstanceAs (Decidable (c.IsReference .this))
  | .field f target =>
    have := decidableKinded target
    inferInstanceAs (Decidable (_ ∧ c.IsReference target ∧ (checked → f.type.IsWritable)))
  | .new className params args =>
    have := decidableAllKinded args
    inferInstanceAs (Decidable ((Ty.named className).isReference = true ∧
      c.AllKinded named checked args ∧ args.map c.kindOf? = params.map Ty.slotKind? ∧
        FitsCall named checked .special params .void))
  | .array element items =>
    have := decidableAllKinded items
    inferInstanceAs (Decidable (element.isReference = true ∧ c.AllKinded named checked items ∧
      ∀ e ∈ items, c.IsReference e))
  | .item array _ =>
    have := decidableKinded array
    inferInstanceAs (Decidable (_ ∧ c.IsReference array))
  | .box e =>
    have := decidableKinded e
    inferInstanceAs (Decidable (_ ∧ c.kindOf? e ≠ none))
  | .unbox _ e =>
    have := decidableKinded e
    inferInstanceAs (Decidable (_ ∧ c.IsReference e))
  | .cast ty e =>
    have := decidableKinded e
    inferInstanceAs (Decidable (ty.isReference = true ∧ _ ∧ c.IsReference e))
  | .call callee receiver args =>
    have := decidableReceiverKinded callee receiver
    have := decidableAllKinded args
    inferInstanceAs (Decidable (c.ReceiverKinded named checked callee receiver ∧
      c.AllKinded named checked args ∧ args.map c.kindOf? = callee.params.map Ty.slotKind? ∧
        FitsCall named checked callee.kind callee.params callee.result))

def decidableReceiverKinded (callee : Callee) :
    (receiver : Option Expr) → Decidable (c.ReceiverKinded named checked callee receiver)
  | none => inferInstanceAs (Decidable (callee.kind = .static))
  | some e =>
    have := decidableKinded e
    inferInstanceAs (Decidable (callee.kind ≠ .static ∧ _ ∧ c.IsReference e))

def decidableAllKinded : (es : List Expr) → Decidable (c.AllKinded named checked es)
  | [] => isTrue trivial
  | e :: rest =>
    have := decidableKinded e
    have := decidableAllKinded rest
    inferInstanceAs (Decidable (c.Kinded named checked e ∧ c.AllKinded named checked rest))

end

instance (e : Expr) : Decidable (c.Kinded named checked e) := c.decidableKinded named checked e

instance (cond : Cond) : Decidable (c.KindedCond named checked cond) :=
  match cond with
  | .isTrue e | .isFalse e =>
    inferInstanceAs (Decidable (c.Kinded named checked e ∧ c.kindOf? e = some .int))
  | .isNull e | .notNull e | .instanceOf e _ =>
    inferInstanceAs (Decidable (c.Kinded named checked e ∧ c.IsReference e))
  | .same a b =>
    inferInstanceAs (Decidable ((c.Kinded named checked a ∧ c.IsReference a) ∧
      c.Kinded named checked b ∧ c.IsReference b))

mutual

/-- Whether a statement is kinded can be looked up in it. -/
def decidableKindedStmt : (s : Stmt) → Decidable (c.KindedStmt named checked s)
  | .assign i e =>
    inferInstanceAs (Decidable (c.Kinded named checked e ∧ c.kindOf? e = c.kindOf? (.var i) ∧
      c.kindOf? e ≠ none))
  | .setField f target value =>
    inferInstanceAs (Decidable ((c.Kinded named checked target ∧ c.IsReference target) ∧
      (c.Kinded named checked value ∧ c.kindOf? value = f.type.slotKind? ∧
        c.kindOf? value ≠ none) ∧ (checked → f.type.IsWritable)))
  | .eval e => inferInstanceAs (Decidable (c.Kinded named checked e))
  | .cond cond yes no =>
    have := decidableKindedBlock yes
    have := decidableKindedBlock no
    inferInstanceAs (Decidable (c.KindedCond named checked cond ∧
      c.KindedBlock named checked yes ∧ c.KindedBlock named checked no))
  | .switch key cases otherwise =>
    have := decidableKindedCases cases
    have := decidableKindedBlock otherwise
    inferInstanceAs (Decidable ((c.Kinded named checked key ∧ c.kindOf? key = some .int) ∧
      c.KindedCases named checked cases ∧ c.KindedBlock named checked otherwise))
  | .throw e => inferInstanceAs (Decidable (c.Kinded named checked e ∧ c.IsReference e))
  | .ret none => isTrue trivial
  | .ret (some e) =>
    inferInstanceAs (Decidable (c.Kinded named checked e ∧
      c.kindOf? e = c.method.result.slotKind? ∧ c.kindOf? e ≠ none))
  | .region body handlers exit =>
    have := decidableKindedBlock body
    have := decidableKindedHandlers handlers
    have := decidableKindedExit exit
    inferInstanceAs (Decidable (c.KindedBlock named checked body ∧
      c.KindedHandlers named checked handlers ∧ c.KindedExit named checked exit))

def decidableKindedBlock : (block : Block) → Decidable (c.KindedBlock named checked block)
  | [] => isTrue trivial
  | s :: rest =>
    have := decidableKindedStmt s
    have := decidableKindedBlock rest
    inferInstanceAs (Decidable (c.KindedStmt named checked s ∧ c.KindedBlock named checked rest))

def decidableKindedCases :
    (cases : List (Int32 × Block)) → Decidable (c.KindedCases named checked cases)
  | [] => isTrue trivial
  | (_, block) :: rest =>
    have := decidableKindedBlock block
    have := decidableKindedCases rest
    inferInstanceAs (Decidable (c.KindedBlock named checked block ∧
      c.KindedCases named checked rest))

def decidableKindedHandlers :
    (handlers : List Handler) → Decidable (c.KindedHandlers named checked handlers)
  | [] => isTrue trivial
  | ⟨_, binding, block⟩ :: rest =>
    have := decidableKindedBlock block
    have := decidableKindedHandlers rest
    inferInstanceAs (Decidable ((c.IsReference (.var binding) ∧
      c.KindedBlock named checked block) ∧ c.KindedHandlers named checked rest))

def decidableKindedExit : (exit : Option ExitBlock) → Decidable (c.KindedExit named checked exit)
  | none => isTrue trivial
  | some ⟨inFlight, block⟩ =>
    have := decidableKindedBlock block
    inferInstanceAs (Decidable ((∀ i ∈ inFlight, c.IsReference (.var i)) ∧
      c.KindedBlock named checked block))

end

instance (block : Block) : Decidable (c.KindedBlock named checked block) :=
  c.decidableKindedBlock named checked block

end

variable {c : CodeContext} {named checked : Prop}

/-! ### Expressions -/

@[simp] theorem kinded_null : c.Kinded named checked .null := fun _ => nofun

@[simp] theorem kinded_int (n : Int32) : c.Kinded named checked (.int n) := fun _ => nofun

@[simp] theorem kinded_bool (b : Bool) : c.Kinded named checked (.bool b) := fun _ => nofun

@[simp] theorem kinded_string (s : String) : c.Kinded named checked (.string s) := fun _ => nofun

@[simp] theorem kinded_zero (ty : Ty) : c.Kinded named checked (.zero ty) := by
  intro _
  rw [Literal.zero]
  split <;> simp

@[simp] theorem kinded_var (i : Nat) : c.Kinded named checked (.var i) := trivial

@[simp] theorem kinded_arg (i : Nat) : c.Kinded named checked (.arg i) := trivial

@[simp] theorem kinded_classOf (ty : Ty) : c.Kinded named checked (.classOf ty) := trivial

theorem kinded_field {f : FieldRef} {target : Expr} :
    c.Kinded named checked (.field f target) ↔ c.Kinded named checked target ∧
      c.kindOf? target = some .reference ∧ (checked → f.type.IsWritable) :=
  Iff.rfl

@[simp] theorem kinded_fieldOf {owner name className : String} {target : Expr}
    (h : (Ty.named className).Fits named checked) :
    c.Kinded named checked (.fieldOf owner name className target) ↔
      c.Kinded named checked target ∧ c.kindOf? target = some .reference := by
  rw [Expr.fieldOf, kinded_field, and_iff_left h.writable]

@[simp] theorem kinded_new {className : String} {params : List Ty} {args : List Expr}
    (h : (Ty.named className).isReference = true) :
    c.Kinded named checked (.new className params args) ↔
      c.AllKinded named checked args ∧ args.map c.kindOf? = params.map Ty.slotKind? ∧
        FitsCall named checked .special params .void :=
  and_iff_right h

theorem kinded_array {element : Ty} {items : List Expr} (h : element.isReference = true) :
    c.Kinded named checked (.array element items) ↔
      c.AllKinded named checked items ∧ ∀ e ∈ items, c.kindOf? e = some .reference :=
  and_iff_right h

@[simp] theorem kinded_objectArray {items : List Expr} :
    c.Kinded named checked (Expr.objectArray items) ↔
      c.AllKinded named checked items ∧ ∀ e ∈ items, c.kindOf? e = some .reference :=
  kinded_array (Ty.isReference_named (by simp))

@[simp] theorem kinded_item {array : Expr} {i : Int32} :
    c.Kinded named checked (.item array i) ↔
      c.Kinded named checked array ∧ c.kindOf? array = some .reference :=
  Iff.rfl

@[simp] theorem kinded_box {e : Expr} :
    c.Kinded named checked (.box e) ↔ c.Kinded named checked e ∧ c.kindOf? e ≠ none :=
  Iff.rfl

@[simp] theorem kinded_unbox {p : Primitive} {e : Expr} :
    c.Kinded named checked (.unbox p e) ↔
      c.Kinded named checked e ∧ c.kindOf? e = some .reference :=
  Iff.rfl

@[simp] theorem kinded_cast {ty : Ty} {e : Expr} (h : ty.isReference = true) :
    c.Kinded named checked (.cast ty e) ↔
      c.Kinded named checked e ∧ c.kindOf? e = some .reference :=
  and_iff_right h

@[simp] theorem allKinded_nil : c.AllKinded named checked [] := trivial

@[simp] theorem allKinded_cons {e : Expr} {rest : List Expr} :
    c.AllKinded named checked (e :: rest) ↔
      c.Kinded named checked e ∧ c.AllKinded named checked rest :=
  Iff.rfl

theorem allKinded_iff {es : List Expr} :
    c.AllKinded named checked es ↔ ∀ e ∈ es, c.Kinded named checked e := by
  induction es with
  | nil => simp
  | cons e es ih => rw [allKinded_cons, List.forall_mem_cons, ih]

theorem kinded_call {callee : Callee} {receiver : Option Expr} {args : List Expr} :
    c.Kinded named checked (.call callee receiver args) ↔
      c.ReceiverKinded named checked callee receiver ∧ c.AllKinded named checked args ∧
        args.map c.kindOf? = callee.params.map Ty.slotKind? ∧
          FitsCall named checked callee.kind callee.params callee.result :=
  Iff.rfl

@[simp] theorem kinded_invoke {kind : CallKind} {receiver : Expr} {owner name : String}
    {params : List Ty} {result : Ty} {args : List Expr} :
    c.Kinded named checked (.invoke kind receiver owner name params result args) ↔
      (kind ≠ .static ∧ c.Kinded named checked receiver ∧ c.kindOf? receiver = some .reference) ∧
        c.AllKinded named checked args ∧ args.map c.kindOf? = params.map Ty.slotKind? ∧
          FitsCall named checked kind params result :=
  kinded_call

@[simp] theorem kinded_invokeStatic {owner name : String} {params : List Ty} {result : Ty}
    {args : List Expr} :
    c.Kinded named checked (.invokeStatic owner name params result args) ↔
      c.AllKinded named checked args ∧ args.map c.kindOf? = params.map Ty.slotKind? ∧
        FitsCall named checked .static params result := by
  rw [Expr.invokeStatic, kinded_call]
  exact and_iff_right rfl

@[simp] theorem kinded_hook {hook : Hook} {receiver : Expr} {args : List Expr} :
    c.Kinded named checked (hook.invoke receiver args) ↔
      (c.Kinded named checked receiver ∧ c.kindOf? receiver = some .reference) ∧
        c.AllKinded named checked args ∧ args.map c.kindOf? = hook.params.map Ty.slotKind? ∧
          FitsCall named checked .virtual hook.params hook.result := by
  rw [Hook.invoke, kinded_invoke, and_iff_right (by decide : CallKind.virtual ≠ .static)]

@[simp] theorem kinded_fromObject {ty : Ty} {e : Expr} (h : ty.isVoid = false)
    (he : c.Kinded named checked e) (hkind : c.kindOf? e = some .reference) :
    c.Kinded named checked (Expr.fromObject ty e) := by
  rw [Expr.fromObject]
  split
  · exact kinded_unbox.2 ⟨he, hkind⟩
  · rename_i hp
    split
    · exact he
    · exact (kinded_cast (by simp [Ty.isReference, h, hp])).2 ⟨he, hkind⟩

/-! ### Statements -/

@[simp] theorem kindedCond_isTrue {e : Expr} :
    c.KindedCond named checked (.isTrue e) ↔
      c.Kinded named checked e ∧ c.kindOf? e = some .int :=
  Iff.rfl

@[simp] theorem kindedCond_isFalse {e : Expr} :
    c.KindedCond named checked (.isFalse e) ↔
      c.Kinded named checked e ∧ c.kindOf? e = some .int :=
  Iff.rfl

@[simp] theorem kindedCond_isNull {e : Expr} :
    c.KindedCond named checked (.isNull e) ↔
      c.Kinded named checked e ∧ c.kindOf? e = some .reference :=
  Iff.rfl

@[simp] theorem kindedCond_notNull {e : Expr} :
    c.KindedCond named checked (.notNull e) ↔
      c.Kinded named checked e ∧ c.kindOf? e = some .reference :=
  Iff.rfl

@[simp] theorem kindedCond_instanceOf {e : Expr} {className : String} :
    c.KindedCond named checked (.instanceOf e className) ↔
      c.Kinded named checked e ∧ c.kindOf? e = some .reference :=
  Iff.rfl

@[simp] theorem kindedCond_same {a b : Expr} :
    c.KindedCond named checked (.same a b) ↔
      (c.Kinded named checked a ∧ c.kindOf? a = some .reference) ∧
        c.Kinded named checked b ∧ c.kindOf? b = some .reference :=
  Iff.rfl

@[simp] theorem kindedBlock_iff {block : Block} :
    c.KindedBlock named checked block ↔ ∀ s ∈ block, c.KindedStmt named checked s := by
  induction block with
  | nil => exact iff_of_true trivial (by simp)
  | cons s rest ih =>
    rw [List.forall_mem_cons, ← ih]
    exact Iff.rfl

@[simp] theorem kindedStmt_assign {i : Nat} {e : Expr} :
    c.KindedStmt named checked (.assign i e) ↔
      c.Kinded named checked e ∧ c.kindOf? e = c.kindOf? (.var i) ∧ c.kindOf? e ≠ none :=
  Iff.rfl

theorem kindedStmt_setField {f : FieldRef} {target value : Expr} :
    c.KindedStmt named checked (.setField f target value) ↔
      (c.Kinded named checked target ∧ c.kindOf? target = some .reference) ∧
        (c.Kinded named checked value ∧ c.kindOf? value = f.type.slotKind? ∧
          c.kindOf? value ≠ none) ∧ (checked → f.type.IsWritable) :=
  Iff.rfl

@[simp] theorem kindedStmt_eval {e : Expr} :
    c.KindedStmt named checked (.eval e) ↔ c.Kinded named checked e :=
  Iff.rfl

@[simp] theorem kindedStmt_throw {e : Expr} :
    c.KindedStmt named checked (.throw e) ↔
      c.Kinded named checked e ∧ c.kindOf? e = some .reference :=
  Iff.rfl

@[simp] theorem kindedStmt_ret_none : c.KindedStmt named checked (.ret none) := trivial

@[simp] theorem kindedStmt_ret_some {e : Expr} :
    c.KindedStmt named checked (.ret (some e)) ↔
      c.Kinded named checked e ∧ c.kindOf? e = c.method.result.slotKind? ∧
        c.kindOf? e ≠ none :=
  Iff.rfl

@[simp] theorem kindedStmt_cond {cond : Cond} {yes no : Block} :
    c.KindedStmt named checked (.cond cond yes no) ↔
      c.KindedCond named checked cond ∧ (∀ s ∈ yes, c.KindedStmt named checked s) ∧
        ∀ s ∈ no, c.KindedStmt named checked s := by
  rw [← kindedBlock_iff, ← kindedBlock_iff]
  exact Iff.rfl

theorem kindedCases_iff {cases : List (Int32 × Block)} :
    c.KindedCases named checked cases ↔ ∀ x ∈ cases, ∀ s ∈ x.2, c.KindedStmt named checked s := by
  induction cases with
  | nil => exact iff_of_true trivial (by simp)
  | cons x rest ih =>
    rw [List.forall_mem_cons, ← ih, ← kindedBlock_iff]
    exact Iff.rfl

@[simp] theorem kindedStmt_switch {key : Expr} {cases : List (Int32 × Block)}
    {otherwise : Block} :
    c.KindedStmt named checked (.switch key cases otherwise) ↔
      (c.Kinded named checked key ∧ c.kindOf? key = some .int) ∧
        (∀ x ∈ cases, ∀ s ∈ x.2, c.KindedStmt named checked s) ∧
          ∀ s ∈ otherwise, c.KindedStmt named checked s := by
  rw [← kindedCases_iff, ← kindedBlock_iff]
  exact Iff.rfl

theorem kindedHandlers_iff {handlers : List Handler} :
    c.KindedHandlers named checked handlers ↔ ∀ x ∈ handlers,
      c.kindOf? (.var x.binding) = some .reference ∧
        ∀ s ∈ x.body, c.KindedStmt named checked s := by
  induction handlers with
  | nil => exact iff_of_true trivial (by simp)
  | cons x rest ih =>
    rw [List.forall_mem_cons, ← ih, ← kindedBlock_iff]
    exact Iff.rfl

@[simp] theorem kindedStmt_region {body : Block} {handlers : List Handler}
    {exit : Option ExitBlock} :
    c.KindedStmt named checked (.region body handlers exit) ↔
      (∀ s ∈ body, c.KindedStmt named checked s) ∧
        (∀ x ∈ handlers, c.kindOf? (.var x.binding) = some .reference ∧
          ∀ s ∈ x.body, c.KindedStmt named checked s) ∧
          ∀ x ∈ exit, (∀ i ∈ x.inFlight, c.kindOf? (.var i) = some .reference) ∧
            ∀ s ∈ x.body, c.KindedStmt named checked s := by
  have hexit : c.KindedExit named checked exit ↔
      ∀ x ∈ exit, (∀ i ∈ x.inFlight, c.kindOf? (.var i) = some .reference) ∧
        ∀ s ∈ x.body, c.KindedStmt named checked s := by
    cases exit with
    | none => exact iff_of_true trivial (by simp)
    | some x =>
      simp only [Option.mem_some_iff, forall_eq', ← kindedBlock_iff]
      exact Iff.rfl
  rw [← kindedBlock_iff, ← kindedHandlers_iff, ← hexit]
  exact Iff.rfl

/-! ### Contexts -/

/-- The context is that of a method with the given variables, parameters and result, in a class
    that is not called like a primitive type. -/
structure Sees (c : CodeContext) (vars : List Variable) (params : List Ty) (result : Ty) :
    Prop where
  unit : (Ty.named c.unit).isReference = true
  variableTypes : c.method.variableTypes = vars.map (·.type)
  params : c.method.params = params
  result : c.method.result = result

namespace Sees

variable {vars : List Variable} {params : List Ty} {result : Ty}

theorem kinded_this (hc : c.Sees vars params result) : c.Kinded named checked .this :=
  Ty.slotKind?_of_isReference hc.unit

theorem kindOf?_this (hc : c.Sees vars params result) : c.kindOf? .this = some .reference :=
  Ty.slotKind?_of_isReference hc.unit

theorem typeOf_var (hc : c.Sees vars params result) {i : Nat} {v : Variable}
    (hi : vars[i]? = some v) : c.typeOf (.var i) = v.type := by
  simp [typeOf, Method.typeOf, hc.variableTypes, List.getD_eq_getElem?_getD, hi]

theorem kindOf?_var (hc : c.Sees vars params result) {i : Nat} {v : Variable}
    (hi : vars[i]? = some v) : c.kindOf? (.var i) = v.type.slotKind? := by
  rw [kindOf?, hc.typeOf_var hi]

theorem typeOf_arg (hc : c.Sees vars params result) {i : Nat} {ty : Ty}
    (hi : params[i]? = some ty) : c.typeOf (.arg i) = ty := by
  simp [typeOf, Method.typeOf, hc.params, List.getD_eq_getElem?_getD, hi]

theorem kindOf?_arg (hc : c.Sees vars params result) {i : Nat} {ty : Ty}
    (hi : params[i]? = some ty) : c.kindOf? (.arg i) = ty.slotKind? := by
  rw [kindOf?, hc.typeOf_arg hi]

/-- The variables of handlers stand behind the others. -/
theorem kindOf?_binding {l : List Variable} {catches : List Catch}
    (hc : c.Sees (l ++ catches.map (·.binding)) params result) (k : Nat) (x : Catch)
    (hx : catches[k]? = some x) : c.kindOf? (.var (l.length + k)) = x.binding.type.slotKind? := by
  refine hc.kindOf?_var ?_
  rw [List.getElem?_append_right (Nat.le_add_right _ _), Nat.add_sub_cancel_left,
    List.getElem?_map, hx, Option.map_some]

theorem map_forwardArgs (hc : c.Sees vars params result) :
    (Expr.forwardArgs params.length).map c.kindOf? = params.map Ty.slotKind? := by
  refine List.ext_getElem? fun i => ?_
  rw [Expr.forwardArgs, List.map_map, List.getElem?_map, List.getElem?_map]
  by_cases hi : i < params.length
  · rw [List.getElem?_eq_getElem (by simpa using hi), List.getElem?_eq_getElem hi]
    simp [hc.kindOf?_arg (List.getElem?_eq_getElem hi)]
  · rw [List.getElem?_eq_none (by simpa using hi), List.getElem?_eq_none (by simpa using hi)]
    rfl

end Sees

@[simp] theorem allKinded_forwardArgs (n : Nat) :
    c.AllKinded named checked (Expr.forwardArgs n) := by
  rw [allKinded_iff]
  intro e he
  obtain ⟨i, -, rfl⟩ := List.mem_map.1 he
  exact kinded_arg i

theorem Sees.kinded_boxedArgs {vars : List Variable} {params : List Ty} {result : Ty}
    (hc : c.Sees vars params result) (hparams : ∀ ty ∈ params, ty.isVoid = false) :
    c.Kinded named checked (Expr.boxedArgs params) := by
  have hvalue : ∀ i < params.length, (c.typeOf (.arg i)).isVoid = false := by
    intro i hi
    rw [hc.typeOf_arg (List.getElem?_eq_getElem hi)]
    exact hparams _ (List.getElem_mem _)
  rw [Expr.boxedArgs, kinded_objectArray, allKinded_iff, Expr.forwardArgs, List.map_map,
    List.forall_mem_map, List.forall_mem_map]
  refine ⟨fun i hi => kinded_box.2 ⟨kinded_arg i, ?_⟩, fun i hi => kindOf?_box ?_⟩
  · exact Ty.slotKind?_ne_none (hvalue i (List.mem_range.1 hi))
  · exact hvalue i (List.mem_range.1 hi)

/-- A block that ends a method with what a call gives. -/
theorem kinded_retCall {result : Ty} (hresult : c.method.result = result) {call : Expr}
    (hcall : c.Kinded named checked call) (hkind : c.kindOf? call = result.slotKind?) :
    ∀ s ∈ Stmt.retCall result call, c.KindedStmt named checked s := by
  rw [Stmt.retCall]
  split
  · simp [hcall]
  · rename_i hvoid
    simp [hcall, hkind, hresult, Ty.slotKind?_ne_none (by simpa using hvoid)]

/-- A handler is for references, and its block is kinded wherever its variable is. -/
def KindedCatch (c : CodeContext) (named checked : Prop) (x : Catch) : Prop :=
  x.binding.type.isReference = true ∧ ∀ i, c.kindOf? (.var i) = some .reference →
    ∀ s ∈ x.body i, c.KindedStmt named checked s

/-- Handlers with variables of their own. -/
theorem kinded_handlers {first : Nat} {catches : List Catch}
    (hvars : ∀ k x, catches[k]? = some x → c.kindOf? (.var (first + k)) = x.binding.type.slotKind?)
    (hcatches : ∀ x ∈ catches, c.KindedCatch named checked x) :
    ∀ x ∈ Catch.handlers first catches, c.kindOf? (.var x.binding) = some .reference ∧
      ∀ s ∈ x.body, c.KindedStmt named checked s := by
  induction catches generalizing first with
  | nil => simp [Catch.handlers]
  | cons x rest ih =>
    obtain ⟨href, hbody⟩ := hcatches x List.mem_cons_self
    have hfirst := (hvars 0 x rfl).trans (Ty.slotKind?_of_isReference href)
    simp only [Catch.handlers, List.forall_mem_cons]
    refine ⟨⟨hfirst, hbody first hfirst⟩, ih (fun k y hy => ?_)
      fun y hy => hcatches y (List.mem_cons_of_mem _ hy)⟩
    rw [Nat.add_right_comm]
    exact hvars (k + 1) y hy

end CodeContext

/-! ### Methods and classes -/

/-- Every operand in the body of a method, in a class of the given name, has the kind that its
    consumer expects. -/
def Method.IsKinded (named checked : Prop) (unit : String) (m : Method) : Prop :=
  ∀ body ∈ m.body, ∀ hasClassConstants,
    (CodeContext.mk unit m body hasClassConstants).KindedBlock named checked body.block

/-- Every operand in the bodies of a class has the kind that its consumer expects. -/
def Blueprint.IsKinded (named checked : Prop) (b : Blueprint) : Prop :=
  ∀ m ∈ b.methods, m.IsKinded named checked b.name

instance (b : Blueprint) [Decidable named] [Decidable checked] :
    Decidable (b.IsKinded named checked) :=
  inferInstanceAs (Decidable (∀ m ∈ b.methods, ∀ body ∈ m.body, ∀ hasClassConstants,
    (CodeContext.mk b.name m body hasClassConstants).KindedBlock named checked body.block))

theorem Method.isKinded_of_body {m : Method} {body : Body} {unit : String}
    (hbody : m.body = some body) (hunit : (Ty.named unit).isReference = true)
    (hkinded : ∀ c : CodeContext, c.Sees body.vars m.params m.result →
      ∀ s ∈ body.block, c.KindedStmt named checked s) : m.IsKinded named checked unit := by
  intro body' hbody' flag
  cases hbody.symm.trans hbody'
  rw [CodeContext.kindedBlock_iff]
  refine hkinded _ ⟨hunit, ?_, rfl, rfl⟩
  rw [Method.variableTypes, hbody]

/-- A method without variables is kinded if its block is. -/
theorem Method.isKinded_ofBlock {unit name : String} {params : List Ty} {result : Ty}
    {block : Block} (hunit : (Ty.named unit).isReference = true)
    (hkinded : ∀ c : CodeContext, c.Sees [] params result →
      ∀ s ∈ block, c.KindedStmt named checked s) :
    (Method.ofBody name params result (.ofBlock block)).IsKinded named checked unit :=
  isKinded_of_body rfl hunit hkinded

theorem Method.isKinded_constructorOf {unit : String} (ancestor : String)
    (hunit : (Ty.named unit).isReference = true) :
    (Method.constructorOf ancestor).IsKinded named checked unit :=
  isKinded_ofBlock hunit fun c hc => by simp [hc.kinded_this, hc.kindOf?_this]

/-! ### Typed bodies -/

namespace CodeContext

variable {c : CodeContext}

mutual

theorem typed_of_kinded : ∀ e : Expr, c.Kinded named checked e → c.Typed named checked e
  | .const _, h => h
  | .var _, _ | .arg _, _ | .classOf _, _ => trivial
  | .this, h => fun _ => Ty.isReference_iff.2 h
  | .field _ target, h => ⟨typed_of_kinded target h.1, h.2⟩
  | .new _ _ args, ⟨href, hargs, hkinds, hfits⟩ =>
    ⟨fun hnamed => ⟨href, hfits.legible hnamed⟩, allTyped_of_kinded args hargs, hkinds,
      hfits.writable⟩
  | .array _ items, h => ⟨allTyped_of_kinded items h.2.1, h.2.2⟩
  | .item array _, h => ⟨typed_of_kinded array h.1, h.2⟩
  | .box e, h => typed_of_kinded e h.1
  | .unbox _ e, h => ⟨typed_of_kinded e h.1, h.2⟩
  | .cast _ e, ⟨href, he, hsource⟩ => ⟨typed_of_kinded e he, .inr ⟨hsource, href⟩⟩
  | .call _ receiver args, ⟨hreceiver, hargs, hkinds, hfits⟩ =>
    ⟨receiverTyped_of_kinded receiver hreceiver, allTyped_of_kinded args hargs, hkinds,
      hfits.legible, fun hchecked => ⟨hfits.writable hchecked, hfits.slots hchecked⟩⟩

theorem receiverTyped_of_kinded {callee : Callee} : ∀ receiver : Option Expr,
    c.ReceiverKinded named checked callee receiver → c.ReceiverTyped named checked callee receiver
  | none, h => h
  | some e, h => ⟨h.1, typed_of_kinded e h.2.1, h.2.2⟩

theorem allTyped_of_kinded : ∀ es : List Expr,
    c.AllKinded named checked es → c.AllTyped named checked es
  | [], _ => trivial
  | e :: rest, h => ⟨typed_of_kinded e h.1, allTyped_of_kinded rest h.2⟩

end

theorem typedCond_of_kinded {cond : Cond} (h : c.KindedCond named checked cond) :
    c.TypedCond named checked cond := by
  cases cond with
  | same a b => exact ⟨⟨typed_of_kinded a h.1.1, h.1.2⟩, typed_of_kinded b h.2.1, h.2.2⟩
  | _ => exact ⟨typed_of_kinded _ h.1, h.2⟩

mutual

theorem typedStmt_of_kinded : ∀ s : Stmt, c.KindedStmt named checked s →
    c.TypedStmt named checked s
  | .assign _ e, h => ⟨typed_of_kinded e h.1, h.2.1⟩
  | .setField _ target value, ⟨⟨htarget, href⟩, ⟨hvalue, hkind, _⟩, hwritable⟩ =>
    ⟨⟨typed_of_kinded target htarget, href⟩, ⟨typed_of_kinded value hvalue, hkind⟩, hwritable⟩
  | .eval e, h => typed_of_kinded e h
  | .cond _ yes no, h =>
    ⟨typedCond_of_kinded h.1, typedBlock_of_kinded yes h.2.1, typedBlock_of_kinded no h.2.2⟩
  | .switch key cases otherwise, h =>
    ⟨⟨typed_of_kinded key h.1.1, h.1.2⟩, typedCases_of_kinded cases h.2.1,
      typedBlock_of_kinded otherwise h.2.2⟩
  | .throw e, h => ⟨typed_of_kinded e h.1, h.2⟩
  | .ret none, _ => trivial
  | .ret (some e), h => ⟨typed_of_kinded e h.1, h.2.1⟩
  | .region body handlers exit, h =>
    ⟨typedBlock_of_kinded body h.1, typedHandlers_of_kinded handlers h.2.1,
      typedExit_of_kinded exit h.2.2⟩

/-- A kinded block is typed. -/
theorem typedBlock_of_kinded : ∀ b : Block, c.KindedBlock named checked b →
    c.TypedBlock named checked b
  | [], _ => trivial
  | s :: rest, h => ⟨typedStmt_of_kinded s h.1, typedBlock_of_kinded rest h.2⟩

theorem typedCases_of_kinded : ∀ cases : List (Int32 × Block),
    c.KindedCases named checked cases → c.TypedCases named checked cases
  | [], _ => trivial
  | (_, block) :: rest, h => ⟨typedBlock_of_kinded block h.1, typedCases_of_kinded rest h.2⟩

theorem typedHandlers_of_kinded : ∀ handlers : List Handler,
    c.KindedHandlers named checked handlers → c.TypedHandlers named checked handlers
  | [], _ => trivial
  | ⟨_, _, block⟩ :: rest, h =>
    ⟨typedBlock_of_kinded block h.1.2, typedHandlers_of_kinded rest h.2⟩

theorem typedExit_of_kinded : ∀ exit : Option ExitBlock,
    c.KindedExit named checked exit → c.TypedExit named checked exit
  | none, _ => trivial
  | some ⟨_, block⟩, h => typedBlock_of_kinded block h.2

end

end CodeContext

end ComponentViews
