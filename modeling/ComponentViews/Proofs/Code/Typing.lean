import ComponentViews.Blueprint.Check
import ComponentViews.Code.Lowering
import ComponentViews.Proofs.Descriptor

/-!
# Typed bodies

A body is *typed* when every operand has the kind of value that its consumer expects: calls
have a receiver unless they are static, casts are between references, items of arrays are
references, and what is returned is of the kind of the result (`CodeContext.TypedBlock`). Two
numbers tell what such a body needs: the depth that the operand stack comes to
(`CodeContext.peakOfBlock`), and the slots that are taken for values that wait while exit blocks
run (`CodeContext.demandOfBlock`).

Names can mislead: a class called like a primitive type is taken for that type, and behind a
semicolon in the name of a parameter's class a descriptor goes on with another parameter. Where
that is ruled out (`named`), instances are references, and a descriptor tells the types it was
made of. Where code is to pass verification (`checked`), the descriptors of its constants have to be
well formed, an interface call counts its arguments in a byte, and the double 1.0, whose short
form the verifier does not know, must not be pushed.
-/

namespace ComponentViews

/-! ### Kinds of values -/

/-- The places that a value of a kind takes. -/
def SlotKind.slots : SlotKind → Nat
  | .long | .double => 2
  | _ => 1

theorem SlotKind.slots_pos (kind : SlotKind) : 0 < kind.slots := by cases kind <;> decide

theorem Ty.slots_of_slotKind? {ty : Ty} {kind : SlotKind} (h : ty.slotKind? = some kind) :
    ty.slots = kind.slots := by
  rw [slotKind?] at h
  rw [slots]
  split at h
  · cases h
  · rename_i hvoid
    rw [if_neg hvoid]
    split at h <;> cases h <;> simp_all [Primitive.slots, SlotKind.slots]

/-- Values of the same kind take the same places. -/
theorem Ty.slots_congr {ty other : Ty} (h : ty.slotKind? = other.slotKind?) :
    ty.slots = other.slots := by
  cases hkind : other.slotKind? with
  | some kind =>
    rw [slots_of_slotKind? hkind, slots_of_slotKind? (h.trans hkind)]
  | none =>
    have hvoid : ∀ t : Ty, t.slotKind? = none → t.slots = 0 := by
      intro t ht
      rw [slotKind?] at ht
      rw [slots]
      split at ht
      · rename_i h
        rw [if_pos h]
      · split at ht <;> cases ht
    rw [hvoid other hkind, hvoid ty (h.trans hkind)]

theorem Ty.exists_slotKind? {ty : Ty} (h : ty.isVoid = false) :
    ∃ kind, ty.slotKind? = some kind := by
  rw [slotKind?, h]
  simp only [Bool.false_eq_true, if_false]
  split <;> exact ⟨_, rfl⟩

theorem Ty.isReference_iff {ty : Ty} : ty.isReference = true ↔ ty.slotKind? = some .reference := by
  rw [isReference, slotKind?]
  cases ty.isVoid with
  | true => simp
  | false =>
    simp only [Bool.not_false, Bool.true_and, Bool.false_eq_true, if_false,
      Option.isNone_iff_eq_none]
    split <;> simp_all

@[simp] theorem Ty.slotKind?_arrayOf (ty : Ty) : ty.arrayOf.slotKind? = some .reference := by
  rw [← isReference_iff]
  simp [isReference, isVoid, primitive?, arrayOf]

theorem Ty.slots_ofPrimitive (p : Primitive) : (ofPrimitive p).slots = p.slots := by
  cases p <;> decide

theorem Ty.slots_of_isReference {ty : Ty} (h : ty.isReference = true) : ty.slots = 1 :=
  slots_of_slotKind? (isReference_iff.1 h)

theorem Ty.primitive?_of_isReference {ty : Ty} (h : ty.isReference = true) :
    ty.primitive? = none := by
  rw [isReference, Bool.and_eq_true, Option.isNone_iff_eq_none] at h
  exact h.2

theorem Ty.slots_le_two (ty : Ty) : ty.slots ≤ 2 := by
  rw [slots]
  split
  · omega
  · split
    · rename_i p _
      cases p <;> simp [Primitive.slots]
    · omega

/-! ### Constants that can be written -/

/-- The constant of a call can be written, and is read as it was meant. -/
structure Callee.IsWritable (callee : Callee) : Prop where
  descriptor : Descriptor.isMethod (methodDescriptor callee.params callee.result).toList = true
  slots : callee.kind = .interface → slotsOf callee.params ≤ 254

/-- The parameters of a descriptor end where the descriptor says. -/
def AreLegible (params : List Ty) : Prop := ∀ ty ∈ params, ';' ∉ ty.name.toList

instance (params : List Ty) : Decidable (AreLegible params) :=
  inferInstanceAs (Decidable (∀ ty ∈ params, ';' ∉ ty.name.toList))

namespace CodeContext

variable (c : CodeContext)

/-- What the method's own description says about its values: the body is that of the method,
    and its variables and parameters have values. -/
structure HasValues : Prop where
  body : c.method.body = some c.body
  vars : ∀ ty ∈ c.method.variableTypes, ty.isVoid = false
  params : ∀ ty ∈ c.method.params, ty.isVoid = false

/-- What the body may refer to. -/
def scope (h : Hierarchy) : Scope := c.method.scope h c.body

/-! ### Operands -/

/-- The kind of value that an expression has, if any. -/
def kindOf? (e : Expr) : Option SlotKind := (c.typeOf e).slotKind?

/-- The value of an expression is a reference. -/
def IsReference (e : Expr) : Prop := c.kindOf? e = some .reference

/-! ### Depth of the operand stack -/

mutual

/-- The number of places that an expression needs on the stack. -/
def peak : Expr → Nat
  | .field f target => max (peak target) f.type.slots
  | .new _ _ args => 2 + peakOfAll args
  | .array _ items => max 1 (peakOfItems items)
  | .item array _ => max (peak array) 2
  | .box e => max (peak e) 1
  | .unbox p e => max (peak e) p.slots
  | .cast _ e => max (peak e) 1
  | .call callee receiver args =>
    max (peakOfReceiver receiver)
      (max ((if receiver.isSome then 1 else 0) + peakOfAll args) callee.result.slots)
  | .this | .classOf _ => 1
  | e => (c.typeOf e).slots

/-- How high the operand stack gets over the receiver of a call, if there is one. -/
def peakOfReceiver : Option Expr → Nat
  | none => 0
  | some e => peak e

/-- What expressions need whose values stay on the stack. -/
def peakOfAll : List Expr → Nat
  | [] => 0
  | e :: rest => max (peak e) ((c.typeOf e).slots + peakOfAll rest)

/-- What the items of an array need: they are pushed above the array, the array once more and
    their index. -/
def peakOfItems : List Expr → Nat
  | [] => 0
  | e :: rest => max (3 + peak e) (peakOfItems rest)

end

/-- How high the operand stack gets while a condition is tested. -/
def peakOfCond : Cond → Nat
  | .isTrue e | .isFalse e | .isNull e | .notNull e | .instanceOf e _ => c.peak e
  | .same a b => max (c.peak a) (1 + c.peak b)

mutual

/-- The number of places that a statement needs on the stack. -/
def peakOfStmt : Stmt → Nat
  | .assign _ e | .eval e | .throw e | .ret (some e) => c.peak e
  | .setField _ target value => max (c.peak target) (1 + c.peak value)
  | .ret none => 0
  | .cond cond yes no => max (c.peakOfCond cond) (max (peakOfBlock yes) (peakOfBlock no))
  | .switch key cases otherwise =>
    max (c.peak key) (max (peakOfCases cases) (peakOfBlock otherwise))
  -- A handler finds the failure on the stack, and the copy of an exit block pushes null.
  | .region body handlers exit =>
    max 1 (max (peakOfBlock body) (max (peakOfHandlers handlers) (peakOfExit exit)))

/-- How high the operand stack gets in a block. -/
def peakOfBlock : Block → Nat
  | [] => 0
  | s :: rest => max (peakOfStmt s) (peakOfBlock rest)

/-- How high the operand stack gets in the cases of a switch. -/
def peakOfCases : List (Int32 × Block) → Nat
  | [] => 0
  | (_, block) :: rest => max (peakOfBlock block) (peakOfCases rest)

/-- How high the operand stack gets in handlers. -/
def peakOfHandlers : List Handler → Nat
  | [] => 0
  | ⟨_, _, block⟩ :: rest => max (peakOfBlock block) (peakOfHandlers rest)

/-- How high the operand stack gets in an exit block. -/
def peakOfExit : Option ExitBlock → Nat
  | none => 0
  | some ⟨_, block⟩ => peakOfBlock block

end

/-! ### Typed bodies -/

section

variable (named checked : Prop)

mutual

/-- Every operand in an expression has the kind that its consumer expects. -/
def Typed : Expr → Prop
  | .const l => checked → l ≠ .double 0x3ff0000000000000
  | .var _ | .arg _ | .classOf _ => True
  | .this => named → (Ty.named c.unit).isReference = true
  | .field f target => Typed target ∧ c.IsReference target ∧ (checked → f.type.IsWritable)
  | .new className params args =>
    (named → (Ty.named className).isReference = true ∧ AreLegible params) ∧ AllTyped args ∧
      args.map c.kindOf? = params.map Ty.slotKind? ∧
        (checked → Descriptor.isMethod (methodDescriptor params .void).toList = true)
  | .array _ items => AllTyped items ∧ ∀ e ∈ items, c.IsReference e
  | .item array _ => Typed array ∧ c.IsReference array
  | .box e => Typed e
  | .unbox _ e => Typed e ∧ c.IsReference e
  | .cast ty e => Typed e ∧ (c.typeOf e = ty ∨ c.IsReference e ∧ ty.isReference = true)
  | .call callee receiver args =>
    ReceiverTyped callee receiver ∧ AllTyped args ∧
      args.map c.kindOf? = callee.params.map Ty.slotKind? ∧
        (named → AreLegible callee.params) ∧ (checked → callee.IsWritable)

/-- There is a receiver unless the method is static. -/
def ReceiverTyped (callee : Callee) : Option Expr → Prop
  | none => callee.kind = .static
  | some e => callee.kind ≠ .static ∧ Typed e ∧ c.IsReference e

/-- All expressions of a list are typed. -/
def AllTyped : List Expr → Prop
  | [] => True
  | e :: rest => Typed e ∧ AllTyped rest

end

/-- What a condition asks about is typed, and has the kind that the question is about. -/
def TypedCond : Cond → Prop
  | .isTrue e | .isFalse e => c.Typed named checked e ∧ c.kindOf? e = some .int
  | .isNull e | .notNull e | .instanceOf e _ => c.Typed named checked e ∧ c.IsReference e
  | .same a b =>
    (c.Typed named checked a ∧ c.IsReference a) ∧ c.Typed named checked b ∧ c.IsReference b

mutual

/-- A statement puts values only where values of their kind are kept, and its blocks are typed. -/
def TypedStmt : Stmt → Prop
  | .assign i e => c.Typed named checked e ∧ c.kindOf? e = c.kindOf? (.var i)
  | .setField f target value =>
    (c.Typed named checked target ∧ c.IsReference target) ∧
      (c.Typed named checked value ∧ c.kindOf? value = f.type.slotKind?) ∧
        (checked → f.type.IsWritable)
  | .eval e => c.Typed named checked e
  | .cond cond yes no => c.TypedCond named checked cond ∧ TypedBlock yes ∧ TypedBlock no
  | .switch key cases otherwise =>
    (c.Typed named checked key ∧ c.kindOf? key = some .int) ∧ TypedCases cases ∧
      TypedBlock otherwise
  | .throw e => c.Typed named checked e ∧ c.IsReference e
  | .ret none => True
  | .ret (some e) => c.Typed named checked e ∧ c.kindOf? e = c.method.result.slotKind?
  | .region body handlers exit => TypedBlock body ∧ TypedHandlers handlers ∧ TypedExit exit

/-- Every operand in a block has the kind that its consumer expects. -/
def TypedBlock : Block → Prop
  | [] => True
  | s :: rest => TypedStmt s ∧ TypedBlock rest

/-- The blocks of the cases of a switch are typed. -/
def TypedCases : List (Int32 × Block) → Prop
  | [] => True
  | (_, block) :: rest => TypedBlock block ∧ TypedCases rest

/-- The blocks of handlers are typed. -/
def TypedHandlers : List Handler → Prop
  | [] => True
  | ⟨_, _, block⟩ :: rest => TypedBlock block ∧ TypedHandlers rest

/-- The block of an exit block is typed. -/
def TypedExit : Option ExitBlock → Prop
  | none => True
  | some ⟨_, block⟩ => TypedBlock block

end

end

/-! ### Slots for values that wait -/

/-- The slots that the copies of exit blocks take. -/
def demandOfCopies : List (Option Nat) → Nat
  | [] => 0
  | copy :: outer => copy.getD 0 + demandOfCopies outer

/-- A failure in flight that has no variable takes a slot. -/
def demandOfInFlight {β : Type} : Option (ExitOf β) → Nat
  | some ⟨none, _⟩ => 1
  | _ => 0

mutual

/-- The slots that a statement takes beyond those of the variables, within regions whose exit
    blocks take `exits`. -/
def demand (exits : List (Option Nat)) : Stmt → Nat
  | .cond _ yes no => demandOfBlock exits yes + demandOfBlock exits no
  | .switch _ cases otherwise => demandOfCases exits cases + demandOfBlock exits otherwise
  | .ret none => demandOfCopies exits
  | .ret (some _) =>
    if exits.any (·.isSome) then width c.method.result + demandOfCopies exits else 0
  | .region body handlers exit =>
    let copy := demandOfExit exits exit
    demandOfBlock (copy :: exits) body + (if blockEnds body then 0 else copy.getD 0) +
      demandOfHandlers (copy :: exits) (copy.getD 0) handlers +
      demandOfInFlight exit + copy.getD 0
  | _ => 0

/-- The slots that the statements of a block take together. -/
def demandOfBlock (exits : List (Option Nat)) : Block → Nat
  | [] => 0
  | s :: rest => demand exits s + demandOfBlock exits rest

/-- The slots that the cases of a switch take together. -/
def demandOfCases (exits : List (Option Nat)) : List (Int32 × Block) → Nat
  | [] => 0
  | (_, block) :: rest => demandOfBlock exits block + demandOfCases exits rest

/-- What handlers take, where a copy of the exit block takes `copy`. -/
def demandOfHandlers (exits : List (Option Nat)) (copy : Nat) : List Handler → Nat
  | [] => 0
  | ⟨_, _, block⟩ :: rest =>
    demandOfBlock exits block + (if blockEnds block then 0 else copy) +
      demandOfHandlers exits copy rest

/-- The slots that an exit block takes each time it is written, if there is one. -/
def demandOfExit (exits : List (Option Nat)) : Option ExitBlock → Option Nat
  | none => none
  | some ⟨_, block⟩ => some (demandOfBlock exits block)

end

end CodeContext

end ComponentViews
