import ComponentViews.Proofs.Blueprint
import ComponentViews.Proofs.Code.Pushes

/-!
# Code of expressions

The code of a typed expression is straight, and leaves its value on the stack
(`CodeContext.yields_expr`).
-/

namespace ComponentViews

open Sketch

/-! ### Slots of variables -/

/-- A variable has a slot of the word that counts them, and its slots are among those of all. -/
theorem exists_slotsFrom (width : Ty → Nat) {tys : List Ty} {i : Nat} {ty : Ty} (count : Nat)
    (hty : tys[i]? = some ty) : ∃ slot, (slotsFrom (count % 65536) width tys)[i]? = some slot ∧
      slot < 65536 ∧ slot + width ty ≤ count + (tys.map width).sum := by
  induction tys generalizing count i with
  | nil => cases hty
  | cons head tys ih =>
    rw [slotsFrom, List.map_cons, List.sum_cons]
    cases i with
    | zero =>
      rw [List.getElem?_cons_zero, Option.some.injEq] at hty
      subst hty
      exact ⟨_, rfl, by omega, by omega⟩
    | succ i =>
      obtain ⟨slot, hslot, hword, hle⟩ := ih (count + width head) hty
      exact ⟨slot, by rw [slotBehind_mod]; exact hslot, hword, by omega⟩

namespace CodeContext

open Draft

variable {c : CodeContext} {checked : Prop} {room : Nat} {s : Sketch c checked room} {n : Nat}
  {h : Hierarchy}

theorem typeOf_var {i : Nat} {ty : Ty} (h : c.method.variableTypes[i]? = some ty) :
    c.typeOf (.var i) = ty := by
  show c.method.variableTypes.getD i .object = ty
  rw [List.getD_eq_getElem?_getD, h, Option.getD_some]

theorem typeOf_arg {i : Nat} {ty : Ty} (h : c.method.params[i]? = some ty) :
    c.typeOf (.arg i) = ty := by
  show c.method.params.getD i .object = ty
  rw [List.getD_eq_getElem?_getD, h, Option.getD_some]

theorem lt_of_checkVariable (hc : c.HasValues) {i : Nat}
    (hi : (c.scope h).checkVariable i = .ok ()) : i < c.method.variableTypes.length := by
  rw [Scope.checkVariable_eq_ok] at hi
  rw [Method.variableTypes, hc.body, List.length_map]
  exact hi

/-- A variable that the body has. -/
theorem yields_variableSlot (hc : c.HasValues) {i : Nat} (hi : i < c.method.variableTypes.length) :
    Yields n (c.variableSlot i) s fun found t =>
      t = s ∧ c.typeOf (.var i) = found.1 ∧ IsTaken s found.1 found.2 := by
  have hty := List.getElem?_eq_getElem hi
  obtain ⟨slot, hslot, hword, hle⟩ := exists_slotsFrom width
    (c.firstArg + slotsOf c.method.params) hty
  rw [← firstVariable_eq] at hslot
  have hrun : c.variableSlot i = pure (c.method.variableTypes[i], slot) := by
    rw [variableSlot]
    simp only [hty, hslot]
  have hfixed : slot + width c.method.variableTypes[i] ≤ c.fixedSlots := hle
  have hwidth : c.method.variableTypes[i].slots ≤ width c.method.variableTypes[i] :=
    Nat.le_max_left _ _
  have hvoid := hc.vars _ (List.getElem_mem hi)
  have := s.drawn.fixed
  rw [hrun]
  exact Yields.pure ⟨rfl, typeOf_var hty, hvoid, hword,
    show slot + c.method.variableTypes[i].slots ≤ s.slots by omega⟩

/-- An argument that the method has. -/
theorem yields_argSlot (hc : c.HasValues) {i : Nat} (hi : i < (c.scope h).args) :
    Yields n (c.argSlot i) s fun found t =>
      t = s ∧ c.typeOf (.arg i) = found.1 ∧ IsTaken s found.1 found.2 := by
  have hi : i < c.method.params.length := hi
  have hty := List.getElem?_eq_getElem hi
  obtain ⟨slot, hslot, hword, hle⟩ := exists_slotsFrom Ty.slots c.firstArg hty
  rw [Nat.mod_eq_of_lt (Nat.lt_of_le_of_lt c.firstArg_le (by decide))] at hslot
  have hrun : c.argSlot i = pure (c.method.params[i], slot) := by
    rw [argSlot]
    simp only [hty, hslot]
  have hvoid := hc.params _ (List.getElem_mem hi)
  have hfixed := s.drawn.fixed
  rw [fixedSlots] at hfixed
  rw [sum_slots] at hle
  rw [hrun]
  exact Yields.pure ⟨rfl, typeOf_arg hty, hvoid, hword,
    show slot + c.method.params[i].slots ≤ s.slots by omega⟩

/-! ### Instructions that name constants -/

/-- The instructions of an opcode name a constant of a kind. -/
structure Names (op : UInt8) (isKind : Constant → Bool) : Prop where
  listed : ∀ i, (Instruction.word op i).isListed = true
  constant : ∀ i, (Instruction.word op i).constant? = some (i, isKind)
  goes : Opcode.isTerminal op = false

/-- A step adds the constant that an instruction of an opcode names, and what the instruction
    takes and pushes is told by it. -/
def Supplies (s : Sketch c checked room) (add : Pool.Add) (op : UInt8) (isKind : Constant → Bool)
    (takes pushes : Nat) : Prop :=
  ∀ i q, add.run.run s.draft.pool = (.ok i, q) → q.Sound checked ∧ s.draft.pool.Extends q ∧
    (q.get? i).any isKind = true ∧ (Instruction.word op i).effect? q = some (takes, pushes)

variable {below : Nat}

/-- An instruction whose constant is added to the pool first. -/
theorem yields_addAndEmit {add : Pool.Add} {op : UInt8} {isKind : Constant → Bool} {delta : Int}
    {takes pushes : Nat} (hop : Names op isKind) (hadd : Supplies s add op isKind takes pushes)
    (halive : s.asm.alive = true) (hdelta : (takes : Int) + delta = pushes)
    (hdepth : s.depth = below + takes) (hroom : below + pushes ≤ room) :
    Yields n (do emit (.word op (← addConstant add)) delta) s fun _ t =>
      Straight s t ∧ t.depth = below + pushes := by
  have hreturn : Opcode.isReturn op = false := by
    have hgoes := hop.goes
    rw [Opcode.isTerminal, Bool.or_eq_false_iff] at hgoes
    exact hgoes.2
  refine (yields_addConstant (F := fun i q => (q.get? i).any isKind = true ∧
    (Instruction.word op i).effect? q = some (takes, pushes)) hadd).andThen ?_
  rintro i t ⟨hst, ht, hkind, heffect⟩
  exact hst.yields (yields_emit (by rw [hst.alive, halive]) heffect hdelta (by rw [ht, hdepth])
    hroom (.naming (hop.listed i) (fun _ => hop.listed i) (hop.constant i) hkind rfl hreturn)
    (fun _ => rfl) hop.goes)

theorem supplies_class {name : String} {op : UInt8} (hop : Opcode.namesMember op = false) :
    Supplies s (Pool.addClass name) op Constant.isClass (Opcode.wordEffect op).1
      (Opcode.wordEffect op).2 := by
  intro i q hrun
  obtain ⟨hsound, hext, hclass⟩ := Pool.spec_addClass s.drawn.pool hrun
  obtain ⟨text, hget, -⟩ := Pool.className?_eq_some.1 hclass
  exact ⟨hsound, hext, by rw [hget]; rfl, by rw [Instruction.effect?, hop]; rfl⟩

/-- What an instruction on a field or method takes and pushes, by its entry. -/
theorem effect?_member {q : Pool} {op : UInt8} {i : UInt16} {descriptor : String}
    {effect : Nat × Nat} (hop : Opcode.namesMember op = true)
    (hi : q.memberDescriptor? i = some descriptor.toList)
    (heffect : Opcode.memberEffect? op descriptor.toList = some effect) :
    (Instruction.word op i).effect? q = some effect := by
  rw [Instruction.effect?, hop, if_pos rfl, hi, Option.bind_some, heffect]

theorem supplies_field {owner name : String} {ty : Ty} {op : UInt8} {takes pushes : Nat}
    (hvalid : checked → ty.IsWritable) (hop : Opcode.namesMember op = true)
    (heffect : Opcode.memberEffect? op ty.descriptor.toList = some (takes, pushes)) :
    Supplies s (Pool.addField owner name ty.descriptor) op Constant.isFieldRef takes pushes := by
  intro i q hrun
  obtain ⟨hsound, hext, hmember⟩ := Pool.spec_addField s.drawn.pool hvalid hrun
  have hdescriptor := hmember.memberDescriptor? fun _ _ => rfl
  obtain ⟨_, _, hget, -⟩ := hmember
  exact ⟨hsound, hext, by rw [hget]; rfl, effect?_member hop hdescriptor heffect⟩

theorem supplies_method {owner name : String} {params : List Ty} {result : Ty} {op : UInt8}
    {takes pushes : Nat}
    (hvalid : checked → Descriptor.isMethod (methodDescriptor params result).toList = true)
    (hop : Opcode.namesMember op = true)
    (heffect : Opcode.memberEffect? op (methodDescriptor params result).toList =
      some (takes, pushes)) :
    Supplies s (Pool.addMethod owner name (methodDescriptor params result)) op Constant.isMethodRef
      takes pushes := by
  intro i q hrun
  obtain ⟨hsound, hext, hmember⟩ := Pool.spec_addMethod s.drawn.pool hvalid hrun
  have hdescriptor := hmember.memberDescriptor? fun _ _ => rfl
  obtain ⟨_, _, hget, -⟩ := hmember
  exact ⟨hsound, hext, by rw [hget]; rfl, effect?_member hop hdescriptor heffect⟩

/-- What a call takes and pushes, by the types of the method. -/
theorem memberEffect?_call (op : UInt8) {params : List Ty} (result : Ty)
    (hparams : AreLegible params) (hget : op ≠ Opcode.getstatic) (hfield : op ≠ Opcode.getfield)
    (hput : op ≠ Opcode.putfield) :
    Opcode.memberEffect? op (methodDescriptor params result).toList =
      some ((if op = Opcode.invokestatic then 0 else 1) + slotsOf params, result.slots) := by
  rw [Opcode.memberEffect?, if_neg hget, if_neg hfield, if_neg hput,
    Descriptor.methodSlots?_methodDescriptor result hparams]
  split
  · rw [Nat.zero_add]
  · rfl

/-- Instructions on a class take its entry. -/
theorem yields_onClass {op : UInt8} {name : String} {delta : Int} {takes pushes : Nat}
    (hop : Names op Constant.isClass) (heffect : Opcode.wordEffect op = (takes, pushes))
    (hmember : Opcode.namesMember op = false) (halive : s.asm.alive = true)
    (hdelta : (takes : Int) + delta = pushes) (hdepth : s.depth = below + takes)
    (hroom : below + pushes ≤ room) :
    Yields n (do emit (.word op (← addConstant (Pool.addClass name))) delta) s fun _ t =>
      Straight s t ∧ t.depth = below + pushes := by
  have hadd : Supplies s (Pool.addClass name) op _ _ _ := supplies_class hmember
  rw [heffect] at hadd
  exact yields_addAndEmit hop hadd halive hdelta hdepth hroom

theorem names_new : Names Opcode.new Constant.isClass := ⟨fun _ => rfl, fun _ => rfl, rfl⟩

theorem names_checkcast : Names Opcode.checkcast Constant.isClass :=
  ⟨fun _ => rfl, fun _ => rfl, rfl⟩

theorem names_instanceof : Names Opcode.instanceof Constant.isClass :=
  ⟨fun _ => rfl, fun _ => rfl, rfl⟩

theorem names_anewarray : Names Opcode.anewarray Constant.isClass :=
  ⟨fun _ => rfl, fun _ => rfl, rfl⟩

theorem names_getstatic : Names Opcode.getstatic Constant.isFieldRef :=
  ⟨fun _ => rfl, fun _ => rfl, rfl⟩

theorem names_getfield : Names Opcode.getfield Constant.isFieldRef :=
  ⟨fun _ => rfl, fun _ => rfl, rfl⟩

theorem names_putfield : Names Opcode.putfield Constant.isFieldRef :=
  ⟨fun _ => rfl, fun _ => rfl, rfl⟩

theorem names_invokevirtual : Names Opcode.invokevirtual Constant.isMethodRef :=
  ⟨fun _ => rfl, fun _ => rfl, rfl⟩

theorem names_invokespecial : Names Opcode.invokespecial Constant.isMethodRef :=
  ⟨fun _ => rfl, fun _ => rfl, rfl⟩

theorem names_invokestatic : Names Opcode.invokestatic Constant.isMethodRef :=
  ⟨fun _ => rfl, fun _ => rfl, rfl⟩

theorem effect?_dup {p : Pool} : (Instruction.plain Opcode.dup).effect? p = some (1, 2) := rfl

theorem effect?_aaload {p : Pool} : (Instruction.plain Opcode.aaload).effect? p = some (2, 1) :=
  rfl

theorem effect?_aastore {p : Pool} : (Instruction.plain Opcode.aastore).effect? p = some (3, 0) :=
  rfl

/-! ### Expressions -/

theorem slots_of_isReference {e : Expr} (h : c.IsReference e) : (c.typeOf e).slots = 1 :=
  Ty.slots_of_slotKind? h

/-- Arguments of the kinds of the parameters take as many slots. -/
theorem slotsOf_args {args : List Expr} {params : List Ty}
    (h : args.map c.kindOf? = params.map Ty.slotKind?) :
    slotsOf (args.map c.typeOf) = slotsOf params := by
  induction args generalizing params with
  | nil =>
    cases params with
    | nil => rfl
    | cons => cases h
  | cons e args ih =>
    cases params with
    | nil => cases h
    | cons ty params =>
      rw [List.map_cons, List.map_cons, List.cons.injEq] at h
      rw [List.map_cons, slotsOf, slotsOf, ih h.2,
        show (c.typeOf e).slots = ty.slots from Ty.slots_congr h.1]

theorem slots_box (e : Expr) : (c.typeOf (.box e)).slots =
    if (c.typeOf e).primitive?.isSome then 1 else (c.typeOf e).slots := by
  have htype : c.typeOf (.box e) =
      ((c.typeOf e).primitive?.map fun p => .named p.boxClass).getD (c.typeOf e) := by
    rw [typeOf, typeOf, Method.typeOf]
    cases (c.method.typeOf c.unit e).primitive? <;> rfl
  rw [htype]
  cases (c.typeOf e).primitive? with
  | none => rfl
  | some p =>
    show (Ty.named p.boxClass).slots = 1
    cases p <;> decide

/-! ### What is shown of expressions -/

section

variable (c checked room h)

/-- The code of an expression leaves its value on the stack, if there is room for it. -/
def LeavesValue (e : Expr) : Prop :=
  ∀ {s : Sketch c checked room}, (c.scope h).checkExpr e = .ok () → s.asm.alive = true →
    s.depth + c.peak e ≤ room → Yields 0 (c.expr e) s fun _ t =>
      Straight s t ∧ t.depth = s.depth + (c.typeOf e).slots

/-- The code of expressions leaves their values on the stack. -/
def LeavesValues (es : List Expr) : Prop :=
  ∀ {s : Sketch c checked room}, (∀ e ∈ es, (c.scope h).checkExpr e = .ok ()) →
    s.asm.alive = true → s.depth + c.peakOfAll es ≤ room → Yields 0 (c.exprs es) s fun _ t =>
      Straight s t ∧ t.depth = s.depth + slotsOf (es.map c.typeOf)

/-- The code of the receiver of a call leaves it on the stack, unless the method is static. -/
def LeavesReceiver (callee : Callee) (receiver : Option Expr) : Prop :=
  ∀ {s : Sketch c checked room}, (∀ e ∈ receiver, (c.scope h).checkExpr e = .ok ()) →
    s.asm.alive = true → s.depth + c.peakOfReceiver receiver ≤ room →
      Yields 0 (c.callReceiver callee receiver) s fun _ t =>
        Straight s t ∧ t.depth = s.depth + if callee.kind = .static then 0 else 1

/-- The code of the items of an array, from the one at `i` on, leaves the array on the stack. -/
def StoresItems (i : Nat) (items : List Expr) : Prop :=
  ∀ {s : Sketch c checked room} (below : Nat), (∀ e ∈ items, (c.scope h).checkExpr e = .ok ()) →
    s.asm.alive = true → s.depth = below + 1 → below + c.peakOfItems items ≤ room →
      Yields 0 (c.arrayItems i items) s fun _ t => Straight s t ∧ t.depth = s.depth

end

/-! ### Expressions without operands -/

theorem leavesValue_const {l : Literal} (he : c.Typed True checked (.const l)) :
    c.LeavesValue checked room h (.const l) := by
  intro s _ halive hroom
  rw [expr]
  exact yields_pushLiteral halive he hroom

theorem leavesValue_var (hc : c.HasValues) (i : Nat) : c.LeavesValue checked room h (.var i) := by
  intro s hcheck halive hroom
  rw [expr]
  refine (yields_variableSlot hc (lt_of_checkVariable hc hcheck)).andThen ?_
  rintro ⟨ty, slot⟩ t ⟨rfl, htype, htaken⟩
  have hroom : t.depth + (c.typeOf (.var i)).slots ≤ room := hroom
  rw [htype] at hroom ⊢
  exact yields_load halive htaken hroom

/-- The class of a type is pushed. -/
theorem yields_classOf {ty : Ty} (halive : s.asm.alive = true) (hroom : s.depth + 1 ≤ room) :
    Yields n (c.classOf ty) s fun _ t => Straight s t ∧ t.depth = s.depth + 1 := by
  have hslots : (Ty.named Known.classClass).slots = 1 := by decide
  have hbox : ∀ boxClass, Yields n (do
      let i ← addConstant (Pool.addField boxClass "TYPE" (Ty.named Known.classClass).descriptor)
      emit (.word Opcode.getstatic i) 1) s fun _ t => Straight s t ∧ t.depth = s.depth + 1 :=
    fun boxClass => yields_addAndEmit names_getstatic (supplies_field (fun _ => by decide) rfl
      (congrArg (fun slots => some (0, slots)) ((Ty.slots_descriptor _).trans hslots)))
      halive rfl rfl hroom
  rw [classOf]
  -- Types without class files of their own have their classes in fields; others are named, or
  -- looked up by name where the class file is too old for that.
  split
  · exact hbox _
  split
  · exact hbox _
  split
  · refine (yields_addConstant fun i q hrun => Pool.spec_addClass s.drawn.pool hrun).andThen ?_
    rintro i t ⟨hst, ht, hclass⟩
    obtain ⟨text, hget, -⟩ := Pool.className?_eq_some.1 hclass
    refine (yields_pushConstant (by rw [hst.alive, halive]) (by rw [hget]; rfl)
      (by rw [ht]; exact hroom)).weaken fun _ u ⟨htu, hu⟩ => ⟨hst.trans htu, by rw [hu, ht]⟩
  · refine (yields_addConstant fun i q hrun =>
      Pool.spec_addString s.drawn.pool hrun).andThen ?_
    rintro i t ⟨hst, ht, text, hget, -⟩
    have htalive : t.asm.alive = true := by rw [hst.alive, halive]
    refine (yields_pushConstant htalive (by rw [hget]; rfl) (by rw [ht]; exact hroom)).andThen ?_
    rintro - u ⟨htu, hu⟩
    have hlegible : AreLegible [Ty.string] := by decide
    refine (hst.trans htu).yields (yields_addAndEmit names_invokestatic (supplies_method
      (fun _ => isMethod_methodDescriptor (by decide) (by decide)) rfl
      (memberEffect?_call _ _ hlegible (by decide) (by decide) (by decide)))
      (by rw [htu.alive, htalive]) ?_ (by rw [hu, ht]; rfl) ?_)
    · decide
    · exact hroom

theorem leavesValue_classOf (ty : Ty) : c.LeavesValue checked room h (.classOf ty) := by
  intro s _ halive hroom
  rw [expr]
  exact yields_classOf halive hroom

theorem leavesValue_this (hunit : (Ty.named c.unit).isReference = true) :
    c.LeavesValue checked room h .this := by
  intro s hcheck halive hroom
  have hstatic : c.method.isStatic = false := (Scope.checkExpr_this _).1 hcheck
  have hfirst : c.firstArg = 1 := by rw [firstArg, hstatic]; rfl
  have hslot : 0 < s.slots := by
    have hfixed := s.drawn.fixed
    rw [fixedSlots, hfirst] at hfixed
    omega
  rw [expr, hstatic, show (c.typeOf .this).slots = 1 from Ty.slots_of_isReference hunit]
  exact yields_push halive rfl hroom (.accessing rfl rfl rfl hslot rfl) (fun _ => rfl) rfl

theorem leavesValue_arg (hc : c.HasValues) (i : Nat) : c.LeavesValue checked room h (.arg i) := by
  intro s hcheck halive hroom
  rw [expr]
  refine (yields_argSlot hc ((Scope.checkExpr_arg _).1 hcheck)).andThen ?_
  rintro ⟨ty, slot⟩ t ⟨rfl, htype, htaken⟩
  have hroom : t.depth + (c.typeOf (.arg i)).slots ≤ room := hroom
  rw [htype] at hroom ⊢
  exact yields_load halive htaken hroom

/-! ### Expressions with one operand -/

theorem leavesValue_field {f : FieldRef} {e : Expr} (hleaves : c.LeavesValue checked room h e)
    (href : c.IsReference e) (hwritable : checked → f.type.IsWritable) :
    c.LeavesValue checked room h (.field f e) := by
  intro s hcheck halive hroom
  rw [peak] at hroom
  rw [expr, show (c.typeOf (.field f e)).slots = f.type.slots from rfl]
  refine (hleaves ((Scope.checkExpr_field _).1 hcheck) halive (by omega)).andThen ?_
  rintro - t ⟨hst, ht⟩
  rw [slots_of_isReference href] at ht
  have heffect : Opcode.memberEffect? Opcode.getfield f.type.descriptor.toList =
      some (1, f.type.slots) :=
    congrArg (fun slots => some (1, slots)) (Ty.slots_descriptor f.type)
  exact hst.yields (yields_addAndEmit names_getfield (supplies_field hwritable rfl heffect)
    (by rw [hst.alive, halive]) (by omega) ht (by omega))

/-- A primitive value becomes an object; any other value stays. -/
theorem yields_box {ty : Ty} (halive : s.asm.alive = true) (hdepth : s.depth = below + ty.slots)
    (hroom : below + 1 ≤ room) :
    Yields n (box ty) s fun _ t => Straight s t ∧
      t.depth = below + if ty.primitive?.isSome then 1 else ty.slots := by
  rw [box]
  split
  · rename_i hp
    rw [hp]
    exact Yields.pure ⟨Straight.refl s, hdepth⟩
  · rename_i p hp
    -- The type `void` has a name like a primitive one, but is none.
    have hslots : ty.slots = p.slots := by
      rw [Ty.slots, hp]
      split
      · rename_i hvoid
        rw [Ty.isVoid, Bool.and_eq_true, beq_iff_eq, beq_iff_eq] at hvoid
        rw [Ty.primitive?, if_pos hvoid.1, hvoid.2] at hp
        cases hp
      · rfl
    have hlegible : AreLegible [Ty.ofPrimitive p] := by cases p <;> decide
    have hargs : (if Opcode.invokestatic = Opcode.invokestatic then 0 else 1) +
        slotsOf [Ty.ofPrimitive p] = p.slots := by cases p <;> decide
    have hresult : (Ty.named p.boxClass).slots = 1 := by cases p <;> decide
    have heffect := memberEffect?_call Opcode.invokestatic (.named p.boxClass) hlegible
      (by decide) (by decide) (by decide)
    rw [hargs, hresult] at heffect
    rw [hp, Option.isSome_some, if_pos rfl]
    refine yields_addAndEmit names_invokestatic (supplies_method (fun _ =>
      isMethod_methodDescriptor (fun ty hty => ?_) (.inr ?_)) rfl heffect) halive (by omega)
      (by rw [hdepth, hslots]) hroom
    · rw [List.mem_singleton.1 hty]
      cases p <;> decide
    · cases p <;> decide

theorem leavesValue_box {e : Expr} (hleaves : c.LeavesValue checked room h e) :
    c.LeavesValue checked room h (.box e) := by
  intro s hcheck halive hroom
  rw [peak] at hroom
  rw [expr, slots_box]
  refine (hleaves ((Scope.checkExpr_box _).1 hcheck) halive (by omega)).andThen ?_
  rintro - t ⟨hst, ht⟩
  exact hst.yields (yields_box (by rw [hst.alive, halive]) ht (by omega))

/-- A primitive value is taken out of an object. -/
theorem yields_unbox {p : Primitive} {source : Ty} (halive : s.asm.alive = true)
    (hdepth : s.depth = below + 1) (hroom : below + p.slots ≤ room) :
    Yields n (unbox p source) s fun _ t => Straight s t ∧ t.depth = below + p.slots := by
  have hwithin := s.depth_le
  have hresult : (Ty.ofPrimitive p).slots = p.slots := Ty.slots_ofPrimitive p
  have heffect := memberEffect?_call Opcode.invokevirtual (.ofPrimitive p)
    (show AreLegible [] by decide) (by decide) (by decide) (by decide)
  rw [hresult] at heffect
  -- An object that is not known to be a box is cast to one first.
  have hget : ∀ t : Sketch c checked room, Straight s t → t.depth = below + 1 → Yields n (do
      let i ← addConstant (Pool.addMethod p.boxClass p.unboxMethod
        (methodDescriptor [] (.ofPrimitive p)))
      emit (.word Opcode.invokevirtual i) (p.slots - 1)) t fun _ u =>
        Straight s u ∧ u.depth = below + p.slots := by
    intro t hst ht
    refine hst.yields (yields_addAndEmit names_invokevirtual (supplies_method (fun _ =>
      isMethod_methodDescriptor (by decide) (.inr ?_)) rfl heffect) (by rw [hst.alive, halive])
        ?_ ht hroom)
    · cases p <;> decide
    · show ((1 : Nat) : Int) + _ = _
      omega
  rw [unbox]
  by_cases hnamed : source.isNamed p.boxClass = true
  · rw [hnamed]
    rw [Bool.not_true, if_neg Bool.false_ne_true]
    exact hget s (Straight.refl s) hdepth
  · rw [Bool.not_eq_true] at hnamed
    rw [hnamed, Bool.not_false, if_pos rfl, ← bind_assoc]
    exact (yields_onClass (n := 0) names_checkcast rfl rfl halive rfl hdepth (by omega)).andThen
      fun _ t ⟨hst, ht⟩ => hget t hst ht

theorem leavesValue_unbox {p : Primitive} {e : Expr}
    (hleaves : c.LeavesValue checked room h e) (href : c.IsReference e) :
    c.LeavesValue checked room h (.unbox p e) := by
  intro s hcheck halive hroom
  rw [peak] at hroom
  rw [expr, show (c.typeOf (.unbox p e)).slots = p.slots from Ty.slots_ofPrimitive p]
  refine (hleaves ((Scope.checkExpr_unbox _).1 hcheck) halive (by omega)).andThen ?_
  rintro - t ⟨hst, ht⟩
  rw [slots_of_isReference href] at ht
  exact hst.yields (yields_unbox (by rw [hst.alive, halive]) ht (by omega))

theorem leavesValue_item {e : Expr} {i : Int32} (hleaves : c.LeavesValue checked room h e)
    (href : c.IsReference e) : c.LeavesValue checked room h (.item e i) := by
  intro s hcheck halive hroom
  rw [peak] at hroom
  rw [expr, show (c.typeOf (.item e i)).slots = 1 from rfl]
  refine (hleaves ((Scope.checkExpr_item _).1 hcheck).2 halive (by omega)).andThen ?_
  rintro - t ⟨hst, ht⟩
  rw [slots_of_isReference href] at ht
  have htalive : t.asm.alive = true := by rw [hst.alive, halive]
  refine (yields_pushInt htalive (by omega)).andThen ?_
  rintro - u ⟨htu, hu⟩
  exact (hst.trans htu).yields (yields_emit (by rw [htu.alive, htalive]) effect?_aaload rfl
    (show u.depth = s.depth + 2 by omega) (by omega)
    (.plain rfl (fun _ => rfl) rfl rfl rfl) (fun _ => rfl) rfl)

/-- A reference is cast to another type. -/
theorem yields_cast {source target : Ty} (below : Nat) (halive : s.asm.alive = true)
    (hcast : source = target ∨ source.isReference = true ∧ target.isReference = true)
    (hdepth : source.isReference = true → s.depth = below + 1) :
    Yields n (cast source target) s fun _ t => Straight s t ∧ t.depth = s.depth := by
  have hdone : Yields n (pure ()) s fun _ t => Straight s t ∧ t.depth = s.depth :=
    Yields.pure ⟨Straight.refl s, rfl⟩
  rw [cast]
  split
  · exact hdone
  · rename_i hne
    obtain ⟨hsource, htarget⟩ := hcast.resolve_left hne
    have hwithin := s.depth_le
    rw [hsource, htarget]
    split
    · exact hdone
    · rw [hdepth hsource] at hwithin ⊢
      exact yields_onClass names_checkcast rfl rfl halive rfl (hdepth hsource) hwithin

theorem leavesValue_cast {ty : Ty} {e : Expr} (hleaves : c.LeavesValue checked room h e)
    (hcast : c.typeOf e = ty ∨ c.IsReference e ∧ ty.isReference = true) :
    c.LeavesValue checked room h (.cast ty e) := by
  intro s hcheck halive hroom
  rw [peak] at hroom
  rw [expr]
  have hcast : c.typeOf e = ty ∨ (c.typeOf e).isReference = true ∧ ty.isReference = true :=
    hcast.imp_right fun h => ⟨Ty.isReference_iff.2 h.1, h.2⟩
  have hslots : (c.typeOf e).slots = ty.slots := by
    rcases hcast with hsame | ⟨hsource, htarget⟩
    · rw [hsame]
    · rw [Ty.slots_of_isReference hsource, Ty.slots_of_isReference htarget]
  refine (hleaves ((Scope.checkExpr_cast _).1 hcheck) halive (by omega)).andThen ?_
  rintro - t ⟨hst, ht⟩
  refine (yields_cast s.depth (by rw [hst.alive, halive]) hcast fun href => ?_).weaken ?_
  · rw [ht, Ty.slots_of_isReference href]
  · rintro - u ⟨htu, hu⟩
    refine ⟨hst.trans htu, ?_⟩
    rw [hu, ht, hslots]
    rfl

/-! ### Expressions with several operands -/

/-- A method of an interface is called, with a count of the slots that is not zero, since it fits
    into its byte. -/
theorem yields_invokeInterface {callee : Callee} (halive : s.asm.alive = true)
    (hcallee : checked → callee.IsWritable) (hkind : callee.kind = .interface)
    (hlegible : AreLegible callee.params) (hdepth : s.depth = below + (1 + slotsOf callee.params))
    (hroom : below + callee.result.slots ≤ room) :
    Yields n (invoke callee) s fun _ t => Straight s t ∧
      t.depth = below + callee.result.slots := by
  rw [invoke, hkind]
  refine (yields_addConstant fun i q hrun => Pool.spec_addInterfaceMethod s.drawn.pool
    (fun h => (hcallee h).descriptor) hrun).andThen ?_
  rintro i t ⟨hst, ht, hmember⟩
  have hdescriptor := hmember.memberDescriptor? fun _ _ => rfl
  obtain ⟨_, _, hget, -⟩ := hmember
  have heffect := memberEffect?_call Opcode.invokeinterface callee.result hlegible
    (by decide) (by decide) (by decide)
  rw [if_neg (by decide)] at heffect
  refine hst.yields (yields_emit (by rw [hst.alive, halive])
    (by rw [Instruction.effect?, hdescriptor, Option.bind_some, heffect]) (by omega)
    (by rw [ht, hdepth]) hroom
    (.naming rfl (fun hchecked => ?_) rfl (by rw [hget]; rfl) rfl rfl) (fun _ => rfl) rfl)
  have hslots := (hcallee hchecked).slots hkind
  rw [Instruction.isListed, bne_iff_ne]
  intro hzero
  have htoNat : (UInt8.ofNat (slotsOf callee.params + 1)).toNat = slotsOf callee.params + 1 :=
    UInt8.toNat_ofNat_of_lt' (show _ < 256 by omega)
  rw [hzero] at htoNat
  exact absurd htoNat (by simp)

/-- A method is called, with its receiver and arguments on the stack. -/
theorem yields_invoke {callee : Callee} (halive : s.asm.alive = true)
    (hcallee : checked → callee.IsWritable) (hlegible : AreLegible callee.params)
    (hdepth : s.depth =
      below + ((if callee.kind = .static then 0 else 1) + slotsOf callee.params))
    (hroom : below + callee.result.slots ≤ room) :
    Yields n (invoke callee) s fun _ t => Straight s t ∧
      t.depth = below + callee.result.slots := by
  have hmethod : ∀ {op}, Opcode.namesMember op = true → op ≠ Opcode.getstatic →
      op ≠ Opcode.getfield → op ≠ Opcode.putfield →
        Supplies s (Pool.addMethod callee.owner callee.name
          (methodDescriptor callee.params callee.result)) op Constant.isMethodRef
            ((if op = Opcode.invokestatic then 0 else 1) + slotsOf callee.params)
            callee.result.slots :=
    fun hop hget hfield hput => supplies_method (fun h => (hcallee h).descriptor) hop
      (memberEffect?_call _ _ hlegible hget hfield hput)
  cases hkind : callee.kind with
  | virtual =>
    rw [hkind, if_neg (by decide)] at hdepth
    rw [invoke, hkind]
    exact yields_addAndEmit names_invokevirtual
      (hmethod (by decide) (by decide) (by decide) (by decide)) halive
      (by rw [if_neg (by decide)]; omega) hdepth hroom
  | special =>
    rw [hkind, if_neg (by decide)] at hdepth
    rw [invoke, hkind]
    exact yields_addAndEmit names_invokespecial
      (hmethod (by decide) (by decide) (by decide) (by decide)) halive
      (by rw [if_neg (by decide)]; omega) hdepth hroom
  | static =>
    rw [hkind, if_pos rfl] at hdepth
    rw [invoke, hkind]
    exact yields_addAndEmit names_invokestatic
      (hmethod (by decide) (by decide) (by decide) (by decide)) halive
      (by rw [if_pos rfl]; omega) hdepth hroom
  | interface =>
    rw [hkind, if_neg (by decide)] at hdepth
    exact yields_invokeInterface halive hcallee hkind hlegible hdepth hroom

/-- The receiver and the arguments make way for the result. -/
theorem leavesValue_call {callee : Callee} {receiver : Option Expr} {args : List Expr}
    (htyped : c.ReceiverTyped True checked callee receiver)
    (hkinds : args.map c.kindOf? = callee.params.map Ty.slotKind?)
    (hlegible : AreLegible callee.params) (hcallee : checked → callee.IsWritable)
    (hreceiver : c.LeavesReceiver checked room h callee receiver)
    (hargs : c.LeavesValues checked room h args) :
    c.LeavesValue checked room h (.call callee receiver args) := by
  intro s hcheck halive hroom
  obtain ⟨-, hreceiverCheck, hargsCheck⟩ := (Scope.checkExpr_call _).1 hcheck
  have hsome : (if receiver.isSome then 1 else 0) = if callee.kind = .static then 0 else 1 := by
    cases receiver with
    | none => rw [if_pos (show callee.kind = .static from htyped)]; rfl
    | some e => rw [if_neg htyped.1]; rfl
  rw [peak, hsome] at hroom
  rw [expr]
  refine (hreceiver hreceiverCheck halive (by omega)).andThen ?_
  rintro - t ⟨hst, ht⟩
  have htalive : t.asm.alive = true := by rw [hst.alive, halive]
  refine (hargs hargsCheck htalive (by omega)).andThen ?_
  rintro - u ⟨htu, hu⟩
  rw [slotsOf_args hkinds, ht, Nat.add_assoc] at hu
  exact (hst.trans htu).yields
    (yields_invoke (by rw [htu.alive, htalive]) hcallee hlegible hu (by omega))

/-- An instance is made, and its constructor called on a copy of it. -/
theorem leavesValue_new {className : String} {params : List Ty} {args : List Expr}
    (href : (Ty.named className).isReference = true) (hlegible : AreLegible params)
    (hkinds : args.map c.kindOf? = params.map Ty.slotKind?)
    (hmethod : checked → Descriptor.isMethod (methodDescriptor params .void).toList = true)
    (hargs : c.LeavesValues checked room h args) :
    c.LeavesValue checked room h (.new className params args) := by
  intro s hcheck halive hroom
  rw [peak] at hroom
  rw [expr, ← bind_assoc]
  refine (yields_onClass names_new rfl rfl halive rfl (Nat.add_zero s.depth).symm
    (by omega)).andThen ?_
  rintro - t ⟨hst, ht⟩
  have htalive : t.asm.alive = true := by rw [hst.alive, halive]
  refine (yields_emit htalive effect?_dup rfl ht (by omega)
     (.plain rfl (fun _ => rfl) rfl rfl rfl) (fun _ => rfl) rfl).andThen ?_
  rintro - u ⟨htu, hu⟩
  have hualive : u.asm.alive = true := by rw [htu.alive, htalive]
  refine (hargs ((Scope.checkExpr_new _).1 hcheck).2 hualive (by omega)).andThen ?_
  rintro - v ⟨huv, hv⟩
  rw [slotsOf_args hkinds] at hv
  have heffect := memberEffect?_call Opcode.invokespecial .void hlegible (by decide)
    (by decide) (by decide)
  rw [if_neg (by decide), show Ty.void.slots = 0 by decide] at heffect
  refine (yields_addAndEmit names_invokespecial (supplies_method hmethod rfl heffect)
    (by rw [huv.alive, hualive]) (by omega)
    (show v.depth = s.depth + 1 + _ by omega) (by omega)).weaken ?_
  rintro - w ⟨hvw, hw⟩
  refine ⟨((hst.trans htu).trans huv).trans hvw, ?_⟩
  rw [hw, show (c.typeOf (.new className params args)).slots = 1 from Ty.slots_of_isReference href]

theorem leavesValue_array {element : Ty} {items : List Expr}
    (hitems : c.StoresItems checked room h 0 items) :
    c.LeavesValue checked room h (.array element items) := by
  intro s hcheck halive hroom
  rw [peak] at hroom
  rw [expr]
  refine (yields_pushInt halive (by omega)).andThen ?_
  rintro - t ⟨hst, ht⟩
  have htalive : t.asm.alive = true := by rw [hst.alive, halive]
  rw [← bind_assoc]
  refine (yields_onClass names_anewarray rfl rfl htalive rfl ht (by omega)).andThen ?_
  rintro - u ⟨htu, hu⟩
  refine (hitems s.depth ((Scope.checkExpr_array _).1 hcheck).2 (by rw [htu.alive, htalive]) hu
    (by omega)).weaken ?_
  rintro - v ⟨huv, hv⟩
  refine ⟨(hst.trans htu).trans huv, ?_⟩
  rw [hv, hu, show (c.typeOf (.array element items)).slots = 1 from
    Ty.slots_of_slotKind? (Ty.slotKind?_arrayOf element)]

/-! ### Operands -/

theorem leavesReceiver_none {callee : Callee} (hstatic : callee.kind = .static) :
    c.LeavesReceiver checked room h callee none := by
  intro s _ _ _
  rw [callReceiver, if_pos hstatic, if_pos hstatic]
  exact Yields.pure ⟨Straight.refl s, rfl⟩

theorem leavesReceiver_some {callee : Callee} {e : Expr} (hstatic : callee.kind ≠ .static)
    (href : c.IsReference e) (hleaves : c.LeavesValue checked room h e) :
    c.LeavesReceiver checked room h callee (some e) := by
  intro s hcheck halive hroom
  rw [callReceiver, if_neg hstatic, if_neg hstatic, ← slots_of_isReference href]
  exact hleaves (hcheck e rfl) halive hroom

theorem leavesValues_nil : c.LeavesValues checked room h [] := by
  intro s _ _ _
  rw [exprs]
  exact Yields.pure ⟨Straight.refl s, rfl⟩

theorem leavesValues_cons {e : Expr} {rest : List Expr} (hleaves : c.LeavesValue checked room h e)
    (hrest : c.LeavesValues checked room h rest) :
    c.LeavesValues checked room h (e :: rest) := by
  intro s hcheck halive hroom
  rw [peakOfAll] at hroom
  rw [exprs]
  refine (hleaves (hcheck e List.mem_cons_self) halive (by omega)).andThen ?_
  rintro - t ⟨hst, ht⟩
  refine (hrest (fun e' he' => hcheck e' (List.mem_cons_of_mem _ he')) (by rw [hst.alive, halive])
    (by omega)).weaken ?_
  rintro - u ⟨htu, hu⟩
  refine ⟨hst.trans htu, ?_⟩
  rw [hu, ht, List.map_cons, slotsOf, Nat.add_assoc]

theorem storesItems_nil (i : Nat) : c.StoresItems checked room h i [] := by
  intro s _ _ _ _ _
  rw [arrayItems]
  exact Yields.pure ⟨Straight.refl s, rfl⟩

/-- An item is stored into a copy of the array, at its index. -/
theorem storesItems_cons {i : Nat} {e : Expr} {rest : List Expr} (href : c.IsReference e)
    (hleaves : c.LeavesValue checked room h e)
    (hrest : c.StoresItems checked room h (i + 1) rest) :
    c.StoresItems checked room h i (e :: rest) := by
  intro s below hcheck halive hdepth hroom
  have hprimitive : (c.typeOf e).primitive?.isSome = false := by
    rw [Ty.primitive?_of_isReference (Ty.isReference_iff.2 href)]
    rfl
  rw [peakOfItems] at hroom
  rw [arrayItems, hprimitive, if_neg Bool.false_ne_true]
  -- The array is doubled, index and item are pushed, and all three are taken by the store.
  refine (yields_emit halive effect?_dup rfl hdepth (by omega)
    (.plain rfl (fun _ => rfl) rfl rfl rfl) (fun _ => rfl) rfl).andThen ?_
  rintro - t ⟨hst, ht⟩
  have htalive : t.asm.alive = true := by rw [hst.alive, halive]
  refine (yields_pushInt htalive (by omega)).andThen ?_
  rintro - u ⟨htu, hu⟩
  have hualive : u.asm.alive = true := by rw [htu.alive, htalive]
  refine (hleaves (hcheck e List.mem_cons_self) hualive (by omega)).andThen ?_
  rintro - v ⟨huv, hv⟩
  rw [slots_of_isReference href] at hv
  have hvalive : v.asm.alive = true := by rw [huv.alive, hualive]
  refine (yields_emit hvalive effect?_aastore rfl
    (show v.depth = below + 1 + 3 by omega) (by omega)
    (.plain rfl (fun _ => rfl) rfl rfl rfl) (fun _ => rfl) rfl).andThen ?_
  rintro - w ⟨hvw, hw⟩
  refine (hrest below (fun e' he' => hcheck e' (List.mem_cons_of_mem _ he'))
    (by rw [hvw.alive, hvalive]) hw (by omega)).weaken ?_
  rintro - x ⟨hwx, hx⟩
  refine ⟨(((hst.trans htu).trans huv).trans hvw).trans hwx, ?_⟩
  rw [hx, hw, hdepth]

/-! ### All expressions -/

mutual

/-- The code of an expression leaves its value on the stack. -/
theorem yields_expr (hc : c.HasValues) :
    ∀ e : Expr, c.Typed True checked e → c.LeavesValue checked room h e
  | .const _, he => leavesValue_const he
  | .var i, _ => leavesValue_var hc i
  | .this, he => leavesValue_this (he trivial)
  | .arg i, _ => leavesValue_arg hc i
  | .field _ target, ⟨htarget, href, hwritable⟩ =>
    leavesValue_field (yields_expr hc target htarget) href hwritable
  | .new _ _ args, ⟨hnamed, hargs, hkinds, hmethod⟩ =>
    leavesValue_new (hnamed trivial).1 (hnamed trivial).2 hkinds hmethod
      (yields_exprs hc args hargs)
  | .array _ items, ⟨hitems, hrefs⟩ =>
    leavesValue_array (yields_arrayItems hc items 0 hitems hrefs)
  | .item array _, ⟨harray, href⟩ => leavesValue_item (yields_expr hc array harray) href
  | .classOf ty, _ => leavesValue_classOf ty
  | .box e, he => leavesValue_box (yields_expr hc e he)
  | .unbox _ e, ⟨he, href⟩ => leavesValue_unbox (yields_expr hc e he) href
  | .cast _ e, ⟨he, hcast⟩ => leavesValue_cast (yields_expr hc e he) hcast
  | .call callee receiver args, ⟨hreceiver, hargs, hkinds, hlegible, hcallee⟩ =>
    leavesValue_call hreceiver hkinds (hlegible trivial) hcallee
      (yields_callReceiver hc callee receiver hreceiver) (yields_exprs hc args hargs)

theorem yields_callReceiver (hc : c.HasValues) (callee : Callee) :
    ∀ receiver : Option Expr, c.ReceiverTyped True checked callee receiver →
      c.LeavesReceiver checked room h callee receiver
  | none, hstatic => leavesReceiver_none hstatic
  | some e, ⟨hstatic, he, href⟩ => leavesReceiver_some hstatic href (yields_expr hc e he)

theorem yields_exprs (hc : c.HasValues) :
    ∀ es : List Expr, c.AllTyped True checked es → c.LeavesValues checked room h es
  | [], _ => leavesValues_nil
  | e :: rest, ⟨he, hrest⟩ => leavesValues_cons (yields_expr hc e he) (yields_exprs hc rest hrest)

theorem yields_arrayItems (hc : c.HasValues) :
    ∀ (items : List Expr) (i : Nat), c.AllTyped True checked items →
      (∀ e ∈ items, c.IsReference e) → c.StoresItems checked room h i items
  | [], i, _, _ => storesItems_nil i
  | e :: rest, i, ⟨he, hrest⟩, hrefs =>
    storesItems_cons (hrefs e List.mem_cons_self) (yields_expr hc e he)
      (yields_arrayItems hc rest (i + 1) hrest fun e' he' => hrefs e' (List.mem_cons_of_mem _ he'))

end

end CodeContext

end ComponentViews
