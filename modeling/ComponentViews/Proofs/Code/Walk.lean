import ComponentViews.Code.Lowering
import ComponentViews.Proofs.Code.Finish
import ComponentViews.Proofs.Code.Growth

/-!
# What lowering keeps

The lowering of a body is composed of a few kinds of steps: instructions, constants, labels and
jumps, handlers, slots and gaps. A relation between drafts that each of them keeps
(`Draft.IsKept`) is kept by the lowering of whatever statements (`CodeContext.relates_block`),
whether they make sense or not. Jumps lead to labels that the lowering has taken itself, so that
more can be said of other labels.

The constant pool, then, only grows (`CodeContext.keepsPool_wholeBody`).
-/

namespace ComponentViews

namespace Draft

variable {α : Type} {R : Draft → Draft → Prop} {E : LoweringFault → Prop} {own : Label → Prop}

/-- A relation between drafts that every step keeps of which lowering is composed. Faults are
    expected, but for the one that is found at the end of a body. -/
structure IsKept (R : Draft → Draft → Prop) (E : LoweringFault → Prop) (own : Label → Prop) :
    Prop where
  fault : ∀ e, e ≠ .completesNormally → E e
  emit : ∀ i delta, Relates R E (emit i delta)
  addConstant : ∀ {add : Pool.Add}, add.Adds → Relates R E (addConstant add)
  /-- A label that is taken is one's own from there on. -/
  newLabel : ∀ {α : Type} {f : Label → Lower α}, (∀ label, own label → Relates R E (f label)) →
    Relates R E (newLabel >>= f)
  branch : ∀ op {label} delta, own label → Relates R E (branch op label delta)
  switch : ∀ {otherwise cases}, own otherwise → (∀ e ∈ cases, own e.2) →
    Relates R E (assemble (Assembly.switch otherwise cases))
  place : ∀ label, Relates R E (place label)
  enterHandler : ∀ depth, Relates R E (assemble (Assembly.enterHandler depth))
  addCatch : ∀ start stop handler catchType,
    Relates R E (assemble (modify (Assembly.addCatch start stop handler catchType)))
  newSlot : ∀ ty, Relates R E (newSlot ty)
  setGaps : ∀ d gaps, R d { d with gaps }

namespace IsKept

variable (hR : IsKept R E own)

include hR

theorem relates_throw {e : LoweringFault} (he : e ≠ .completesNormally) :
    Relates R E (throw e : Lower α) := .throw (hR.fault e he)

theorem relates_enterRegion (gaps : List CodeRange) : Relates R E (enterRegion gaps) :=
  .modify fun d => hR.setGaps d _

theorem relates_leaveRegions (n : Nat) : Relates R E (leaveRegions n) where
  ok := by rintro d a t ⟨⟩; exact hR.setGaps d _
  error := by rintro d e ⟨⟩

theorem relates_reenterRegions (inner : List (List CodeRange)) (gap : CodeRange) :
    Relates R E (reenterRegions inner gap) :=
  .modify fun d => hR.setGaps d _

theorem relates_load (ty : Ty) (slot : Nat) : Relates R E (load ty slot) := hR.emit _ _

theorem relates_store (ty : Ty) (slot : Nat) : Relates R E (store ty slot) := hR.emit _ _

theorem relates_pushConstant (i : UInt16) : Relates R E (pushConstant i) := hR.emit _ _

theorem relates_pushWide (i : UInt16) : Relates R E (pushWide i) := hR.emit _ _

variable [IsPreorder Draft R]

omit hR in
theorem relates_pc : Relates R E pc := Relates.get.bind fun _ => .pure _

omit hR in
/-- A step that is taken where control comes. -/
theorem relates_ifAlive {x y : Lower α} (hx : Relates R E x) (hy : Relates R E y) :
    Relates R E (do if ← isAlive then x else y) :=
  (Relates.get.bind fun _ => .pure _).bind fun _ => hx.ite hy

/-- A constant is added, and what follows depends on its index. -/
theorem relates_addThen {add : Pool.Add} {f : UInt16 → Lower α} (hadd : add.Adds)
    (hf : ∀ i, Relates R E (f i)) : Relates R E (Draft.addConstant add >>= f) :=
  (hR.addConstant hadd).bind hf

theorem relates_leaveTo {label : Label} (hlabel : own label) : Relates R E (leaveTo label) :=
  relates_ifAlive (hR.branch _ _ hlabel) (.pure _)

omit hR in
theorem relates_addCatches (haddCatch : ∀ start stop handler catchType,
      Relates R E (assemble (modify (Assembly.addCatch start stop handler catchType))))
    (ranges : List CodeRange) (handler : Nat) (catchType : UInt16) :
    Relates R E (addCatches ranges handler catchType) := by
  rw [addCatches]
  induction ranges with
  | nil => exact .pure _
  | cons r rest ih => exact (haddCatch _ _ _ _).bind fun _ => ih

theorem relates_leaveRegion : Relates R E leaveRegion :=
  (hR.relates_leaveRegions 1).bind fun _ => .pure _

theorem relates_pushInt (n : Int32) : Relates R E (pushInt n) :=
  (hR.emit _ _).ite ((hR.emit _ _).ite ((hR.emit _ _).ite
    (hR.relates_addThen (Pool.adds_addInteger n) hR.relates_pushConstant)))

theorem relates_pushLiteral (l : Literal) : Relates R E (pushLiteral l) := by
  cases l with
  | null => exact hR.emit _ _
  | bool b => exact hR.relates_pushInt _
  | int n => exact hR.relates_pushInt n
  | long n =>
    exact (hR.emit _ _).ite (hR.relates_addThen (Pool.adds_addLong n) hR.relates_pushWide)
  | float bits =>
    rw [pushLiteral]
    split
    · exact hR.emit _ _
    · exact hR.relates_addThen (Pool.adds_addFloat bits) hR.relates_pushConstant
  | double bits =>
    rw [pushLiteral]
    split
    · exact hR.emit _ _
    · exact hR.relates_addThen (Pool.adds_addDouble bits) hR.relates_pushWide
  | string s => exact hR.relates_addThen (Pool.adds_addString s) hR.relates_pushConstant

end IsKept

end Draft

namespace CodeContext

variable {c : CodeContext} {R : Draft → Draft → Prop} {E : LoweringFault → Prop}
  {own : Label → Prop} [IsPreorder Draft R] (hR : Draft.IsKept R E own)

open Draft IsKept

include hR

/-! ### Expressions -/

theorem relates_variableSlot (i : Nat) : Relates R E (c.variableSlot i) := by
  rw [variableSlot]
  split
  · exact .pure _
  · exact hR.relates_throw (by nofun)

theorem relates_argSlot (i : Nat) : Relates R E (c.argSlot i) := by
  rw [argSlot]
  split
  · exact .pure _
  · exact hR.relates_throw (by nofun)

theorem relates_classOf (ty : Ty) : Relates R E (c.classOf ty) := by
  have hbox : ∀ boxClass : String, Relates R E (do
      let i ← addConstant (Pool.addField boxClass "TYPE" (Ty.named Known.classClass).descriptor)
      emit (.word Opcode.getstatic i) 1) :=
    fun boxClass => hR.relates_addThen (Pool.adds_addField _ _ _) fun _ => hR.emit _ _
  rw [classOf]
  cases ty.primitive? with
  | some p => exact hbox p.boxClass
  | none =>
    exact (hbox _).ite ((hR.relates_addThen (Pool.adds_addClass _) hR.relates_pushConstant).ite
      (hR.relates_addThen (Pool.adds_addString _) fun _ => (hR.relates_pushConstant _).bind fun _ =>
        hR.relates_addThen (Pool.adds_addMethod _ _ _) fun _ => hR.emit _ _))

theorem relates_box (ty : Ty) : Relates R E (box ty) := by
  rw [box]
  split
  · exact .pure _
  · exact hR.relates_addThen (Pool.adds_addMethod _ _ _) fun _ => hR.emit _ _

theorem relates_unbox (p : Primitive) (source : Ty) : Relates R E (unbox p source) := by
  have hcall : Relates R E (do
      let i ← addConstant
        (Pool.addMethod p.boxClass p.unboxMethod (methodDescriptor [] (.ofPrimitive p)))
      emit (.word Opcode.invokevirtual i) (p.slots - 1)) :=
    hR.relates_addThen (Pool.adds_addMethod _ _ _) fun _ => hR.emit _ _
  exact (hR.relates_addThen (Pool.adds_addClass _) fun _ =>
    (hR.emit _ _).bind fun _ => hcall).ite hcall

theorem relates_cast (source target : Ty) : Relates R E (cast source target) := by
  have hcheck : Relates R E (if target.isNamed Known.object then pure () else do
      emit (.word Opcode.checkcast (← addConstant (Pool.addClass target.classEntry))) 0) :=
    (Relates.pure _).ite (hR.relates_addThen (Pool.adds_addClass _) fun _ => hR.emit _ _)
  exact (Relates.pure _).ite (((hR.relates_throw (by nofun)).bind fun _ => hcheck).ite hcheck)

theorem relates_invoke (callee : Callee) : Relates R E (invoke callee) := by
  rw [invoke]
  split
  case h_4 =>
    exact hR.relates_addThen (Pool.adds_addInterfaceMethod _ _ _) fun _ => hR.emit _ _
  all_goals exact hR.relates_addThen (Pool.adds_addMethod _ _ _) fun _ => hR.emit _ _

set_option linter.unusedSectionVars false in
mutual

theorem relates_expr : ∀ e : Expr, Relates R E (c.expr e)
  | .const l => by rw [expr]; exact hR.relates_pushLiteral l
  | .var i => by rw [expr]; exact (relates_variableSlot hR i).bind fun _ => hR.relates_load _ _
  | .this => by rw [expr]; exact (hR.relates_throw (by nofun)).ite (hR.emit _ _)
  | .arg i => by rw [expr]; exact (relates_argSlot hR i).bind fun _ => hR.relates_load _ _
  | .field f target => by
    rw [expr]
    exact (relates_expr target).bind fun _ =>
      hR.relates_addThen (Pool.adds_addField _ _ _) fun _ => hR.emit _ _
  | .new className params args => by
    rw [expr]
    exact hR.relates_addThen (Pool.adds_addClass _) fun _ => (hR.emit _ _).bind fun _ =>
      (hR.emit _ _).bind fun _ => (relates_exprs args).bind fun _ =>
        hR.relates_addThen (Pool.adds_addMethod _ _ _) fun _ => hR.emit _ _
  | .array element items => by
    rw [expr]
    exact (hR.relates_pushInt _).bind fun _ => hR.relates_addThen (Pool.adds_addClass _) fun _ =>
      (hR.emit _ _).bind fun _ => relates_arrayItems 0 items
  | .item array i => by
    rw [expr]
    exact (relates_expr array).bind fun _ => (hR.relates_pushInt i).bind fun _ => hR.emit _ _
  | .classOf ty => by rw [expr]; exact relates_classOf hR ty
  | .box e => by rw [expr]; exact (relates_expr e).bind fun _ => relates_box hR _
  | .unbox p e => by rw [expr]; exact (relates_expr e).bind fun _ => relates_unbox hR p _
  | .cast ty e => by rw [expr]; exact (relates_expr e).bind fun _ => relates_cast hR _ ty
  | .call callee receiver args => by
    rw [expr]
    exact (relates_callReceiver callee receiver).bind fun _ =>
      (relates_exprs args).bind fun _ => relates_invoke hR callee

theorem relates_callReceiver (callee : Callee) :
    ∀ receiver : Option Expr, Relates R E (c.callReceiver callee receiver)
  | none => by rw [callReceiver]; exact (Relates.pure _).ite (hR.relates_throw (by nofun))
  | some e => by rw [callReceiver]; exact (hR.relates_throw (by nofun)).ite (relates_expr e)

theorem relates_exprs : ∀ es : List Expr, Relates R E (c.exprs es)
  | [] => by rw [exprs]; exact .pure _
  | e :: rest => by rw [exprs]; exact (relates_expr e).bind fun _ => relates_exprs rest

theorem relates_arrayItems (i : Nat) : ∀ items : List Expr, Relates R E (c.arrayItems i items)
  | [] => by rw [arrayItems]; exact .pure _
  | e :: rest => by
    have hitem : Relates R E (do
        emit (.plain Opcode.dup) 1
        pushInt (Int32.ofNat i)
        c.expr e
        emit (.plain Opcode.aastore) (-3)
        c.arrayItems (i + 1) rest) :=
      (hR.emit _ _).bind fun _ => (hR.relates_pushInt _).bind fun _ =>
        (relates_expr e).bind fun _ => (hR.emit _ _).bind fun _ => relates_arrayItems (i + 1) rest
    rw [arrayItems]
    exact ((hR.relates_throw (by nofun)).bind fun _ => hitem).ite hitem

end

theorem relates_branchUnless (cond : Cond) {label : Label} (hlabel : own label) :
    Relates R E (c.branchUnless cond label) := by
  have htest : ∀ op delta, Relates R E (branch op label delta) :=
    fun op delta => hR.branch op delta hlabel
  cases cond with
  | instanceOf e className =>
    exact (relates_expr hR e).bind fun _ => hR.relates_addThen (Pool.adds_addClass _) fun _ =>
      (hR.emit _ _).bind fun _ => htest _ _
  | same a b =>
    exact (relates_expr hR a).bind fun _ => (relates_expr hR b).bind fun _ => htest _ _
  | _ => exact (relates_expr hR _).bind fun _ => htest _ _

/-! ### Exits -/

theorem relates_copyExit {exit : ExitCode} (hexit : Relates R E exit.body) :
    Relates R E (c.copyExit exit) := by
  rw [copyExit]
  cases exit.inFlight with
  | none => exact hexit
  | some i =>
    exact (relates_variableSlot hR i).bind fun _ => (hR.emit _ _).bind fun _ =>
      (hR.relates_store _ _).bind fun _ => hexit

omit [IsPreorder Draft R] hR in
/-- The exit blocks of the regions around keep the relation. -/
def RelatesExits (R : Draft → Draft → Prop) (E : LoweringFault → Prop)
    (exits : List (Option ExitCode)) : Prop :=
  ∀ exit ∈ exits, ∀ code ∈ exit, Relates R E code.body

omit [IsPreorder Draft R] hR in
theorem RelatesExits.cons {exits : List (Option ExitCode)} {exit : Option ExitCode}
    (hexits : RelatesExits R E exits) (hexit : ∀ code ∈ exit, Relates R E code.body) :
    RelatesExits R E (exit :: exits) :=
  List.forall_mem_cons.2 ⟨hexit, hexits⟩

theorem relates_copyExits {exits : List (Option ExitCode)} (hexits : RelatesExits R E exits)
    (left : Nat) : Relates R E (c.copyExits left exits) := by
  induction exits generalizing left with
  | nil => exact .pure _
  | cons exit outer ih =>
    obtain ⟨hexit, houter⟩ := List.forall_mem_cons.1 hexits
    cases exit with
    | none => exact ih houter (left + 1)
    | some exit =>
      exact relates_pc.bind fun _ => (hR.relates_leaveRegions _).bind fun _ =>
        (relates_copyExit hR (hexit exit rfl)).bind fun _ => relates_pc.bind fun _ =>
          (hR.relates_reenterRegions _ _).bind fun _ =>
            relates_ifAlive (ih houter (left + 1)) (.pure _)

theorem relates_returnValue {exits : List (Option ExitCode)} (hexits : RelatesExits R E exits)
    (value : Option Expr) : Relates R E (c.returnValue exits value) := by
  cases value with
  | none =>
    have hreturn : Relates R E (do
        if !exits.any (·.isSome) || (← isAlive) then emit (.plain Opcode.vreturn) 0) :=
      (Relates.get.bind fun _ => .pure _).bind fun _ => (hR.emit _ _).ite (.pure _)
    exact ((relates_copyExits hR hexits 0).bind fun _ => hreturn).ite hreturn
  | some e =>
    refine (relates_expr hR e).bind fun _ => Relates.ite ?_ (hR.emit _ _)
    exact (hR.newSlot _).bind fun _ => (hR.relates_store _ _).bind fun _ =>
      (relates_copyExits hR hexits 0).bind fun _ =>
        relates_ifAlive ((hR.relates_load _ _).bind fun _ => hR.emit _ _) (.pure _)

theorem relates_completeNormally {exit : Option ExitCode}
    (hexit : ∀ code ∈ exit, Relates R E code.body) {after : Label} (hafter : own after) :
    Relates R E (c.completeNormally exit after) := by
  refine relates_ifAlive ?_ (.pure _)
  refine hR.relates_leaveRegion.bind fun _ => ?_
  have hleave : ∀ gaps, Relates R E (do
      enterRegion gaps
      leaveTo after) :=
    fun _ => (hR.relates_enterRegion _).bind fun _ => hR.relates_leaveTo hafter
  cases exit with
  | none => exact hleave _
  | some code => exact (relates_copyExit hR (hexit code rfl)).bind fun _ => hleave _

/-! ### Statements -/

theorem relates_choice (cond : Cond) {yes : Lower Unit} {no : Option (Lower Unit)}
    (hyes : Relates R E yes) (hno : ∀ code ∈ no, Relates R E code) :
    Relates R E (c.choice cond yes no) := by
  refine hR.newLabel fun otherwise hotherwise =>
    (relates_branchUnless hR cond hotherwise).bind fun _ => hyes.bind fun _ => ?_
  cases no with
  | none => exact hR.place _
  | some no =>
    exact hR.newLabel fun after hafter => (hR.relates_leaveTo hafter).bind fun _ =>
      (hR.place _).bind fun _ => (hno no rfl).bind fun _ => hR.place _

omit [IsPreorder Draft R] in
/-- The labels of the cases are one's own. -/
theorem relates_caseLabels {α : Type} (cases : List (Int32 × Lower Unit))
    {f : List (Int32 × Label) → Lower α}
    (hf : ∀ labels, (∀ e ∈ labels, own e.2) → Relates R E (f labels)) :
    Relates R E (caseLabels cases >>= f) := by
  induction cases generalizing f with
  | nil => exact hf [] fun _ he => absurd he List.not_mem_nil
  | cons e rest ih =>
    rw [caseLabels, bind_assoc]
    refine hR.newLabel fun label hlabel => ?_
    rw [bind_assoc]
    refine ih fun labels hlabels => ?_
    rw [pure_bind]
    exact hf _ (List.forall_mem_cons.2 ⟨hlabel, hlabels⟩)

theorem relates_caseBlocks {after : Label} (hafter : own after)
    {cases : List (Int32 × Lower Unit)} (hcases : ∀ e ∈ cases, Relates R E e.2)
    (labels : List (Int32 × Label)) : Relates R E (caseBlocks after labels cases) := by
  induction cases generalizing labels with
  | nil => cases labels <;> exact .pure _
  | cons e rest ih =>
    obtain ⟨he, hrest⟩ := List.forall_mem_cons.1 hcases
    cases labels with
    | nil => exact .pure _
    | cons l labels =>
      exact (hR.place _).bind fun _ => he.bind fun _ =>
        (hR.relates_leaveTo hafter).bind fun _ => ih hrest labels

theorem relates_switch (key : Expr) {cases : List (Int32 × Lower Unit)} {otherwise : Lower Unit}
    (hcases : ∀ e ∈ cases, Relates R E e.2) (hotherwise : Relates R E otherwise) :
    Relates R E (c.switch key cases otherwise) :=
  (relates_expr hR key).bind fun _ => hR.newLabel fun _ hafter => hR.newLabel fun _ hdefault =>
    relates_caseLabels hR cases fun labels hlabels => (hR.switch hdefault hlabels).bind fun _ =>
      (relates_caseBlocks hR hafter hcases labels).bind fun _ => (hR.place _).bind fun _ =>
        hotherwise.bind fun _ => hR.place _

theorem relates_handlerBlocks {exit : Option ExitCode}
    (hexit : ∀ code ∈ exit, Relates R E code.body) {after : Label} (hafter : own after)
    {handlers : List HandlerCode} (hhandlers : ∀ h ∈ handlers, Relates R E h.body) :
    Relates R E (c.handlerBlocks exit after handlers) := by
  induction handlers with
  | nil => exact .pure _
  | cons h rest ih =>
    obtain ⟨hbody, hrest⟩ := List.forall_mem_cons.1 hhandlers
    exact relates_pc.bind fun _ => (hR.enterHandler _).bind fun _ =>
      (relates_variableSlot hR _).bind fun _ => (hR.relates_store _ _).bind fun _ =>
        hbody.bind fun _ => relates_pc.bind fun _ =>
          (relates_completeNormally hR hexit hafter).bind fun _ => (ih hrest).bind fun _ => .pure _

omit hR in
theorem relates_catchIn (haddCatch : ∀ start stop handler catchType,
      Relates R E (assemble (modify (Assembly.addCatch start stop handler catchType))))
    (haddConstant : ∀ {add : Pool.Add}, add.Adds → Relates R E (addConstant add))
    (covered : List CodeRange) (handlers : List (HandlerCode × CodeRange)) :
    Relates R E (catchIn covered handlers) := by
  induction handlers with
  | nil => exact .pure _
  | cons h rest ih =>
    obtain ⟨handler, range⟩ := h
    rw [catchIn]
    split
    · exact (relates_addCatches haddCatch _ _ _).bind fun _ => ih
    · exact (haddConstant (Pool.adds_addClass _)).bind fun _ =>
        (relates_addCatches haddCatch _ _ _).bind fun _ => ih

theorem relates_inFlightSlot (exit : ExitCode) : Relates R E (c.inFlightSlot exit) := by
  rw [inFlightSlot]
  split
  · exact (relates_variableSlot hR _).bind fun _ => .pure _
  · exact hR.newSlot _

theorem relates_exitHandler {exit : ExitCode} (hexit : Relates R E exit.body)
    (covered : List CodeRange) : Relates R E (c.exitHandler exit covered) := by
  have hcatch : ∀ start, Relates R E (addCatches covered start 0) :=
    fun _ => relates_addCatches hR.addCatch _ _ _
  exact relates_pc.bind fun _ => (hR.enterHandler _).bind fun _ =>
    (relates_inFlightSlot hR exit).bind fun _ => (hR.relates_store _ _).bind fun _ =>
      hexit.bind fun _ => relates_ifAlive
        ((hR.relates_load _ _).bind fun _ => (hR.emit _ _).bind fun _ => hcatch _) (hcatch _)

theorem relates_region {block : Lower Unit} {handlers : List HandlerCode}
    {exit : Option ExitCode} (hblock : Relates R E block)
    (hhandlers : ∀ h ∈ handlers, Relates R E h.body)
    (hexit : ∀ code ∈ exit, Relates R E code.body) :
    Relates R E (c.region block handlers exit) := by
  refine hR.newLabel fun _ hafter => (hR.relates_enterRegion _).bind fun _ =>
    relates_pc.bind fun _ => hblock.bind fun _ => relates_pc.bind fun _ =>
      (relates_completeNormally hR hexit hafter).bind fun _ =>
        (relates_handlerBlocks hR hexit hafter hhandlers).bind fun _ =>
          hR.relates_leaveRegion.bind fun _ =>
            (relates_catchIn hR.addCatch hR.addConstant _ _).bind fun _ => ?_
  cases exit with
  | none => exact hR.place _
  | some code => exact (relates_exitHandler hR (hexit code rfl) _).bind fun _ => hR.place _

set_option linter.unusedSectionVars false in
mutual

theorem relates_stmt : ∀ (s : Stmt) {exits : List (Option ExitCode)}, RelatesExits R E exits →
    Relates R E (c.stmt exits s)
  | .assign i e, _, _ => by
    rw [stmt]
    exact (relates_variableSlot hR i).bind fun _ => (relates_expr hR e).bind fun _ =>
      hR.relates_store _ _
  | .setField f target value, _, _ => by
    rw [stmt]
    exact (relates_expr hR target).bind fun _ => (relates_expr hR value).bind fun _ =>
      hR.relates_addThen (Pool.adds_addField _ _ _) fun _ => hR.emit _ _
  | .eval e, _, _ => by
    rw [stmt]
    refine (relates_expr hR e).bind fun _ => ?_
    split
    · exact .pure _
    all_goals exact hR.emit _ _
  | .cond cond yes no, _, hexits => by
    rw [stmt]
    refine relates_choice hR cond (relates_block yes hexits) fun code hcode => ?_
    split at hcode
    · cases hcode
    · obtain rfl := Option.some.inj hcode
      exact relates_block no hexits
  | .switch key cases otherwise, _, hexits => by
    rw [stmt]
    exact relates_switch hR key (relates_switchCases cases hexits) (relates_block otherwise hexits)
  | .throw e, _, _ => by rw [stmt]; exact (relates_expr hR e).bind fun _ => hR.emit _ _
  | .ret value, _, hexits => by rw [stmt]; exact relates_returnValue hR hexits value
  | .region body handlers exit, _, hexits => by
    -- What is in the region can leave it, so it is written under the exit block as well.
    have hexit := relates_exitCode exit hexits
    rw [stmt]
    exact relates_region hR (relates_block body (hexits.cons hexit))
      (relates_handlerCodes handlers (hexits.cons hexit)) hexit

/-- Whatever the statements are, the relation is kept. -/
theorem relates_block : ∀ (b : Block) {exits : List (Option ExitCode)}, RelatesExits R E exits →
    Relates R E (c.block exits b)
  | [], _, _ => by rw [block]; exact .pure _
  | s :: rest, _, hexits => by
    rw [block]
    exact relates_ifAlive ((relates_stmt s hexits).bind fun _ => relates_block rest hexits)
      (.pure _)

theorem relates_switchCases : ∀ (cases : List (Int32 × Block)) {exits : List (Option ExitCode)},
    RelatesExits R E exits → ∀ e ∈ c.switchCases exits cases, Relates R E e.2
  | [], _, _ => by simp [switchCases]
  | (key, body) :: rest, _, hexits => by
    rw [switchCases]
    exact List.forall_mem_cons.2 ⟨relates_block body hexits, relates_switchCases rest hexits⟩

theorem relates_handlerCodes : ∀ (handlers : List Handler) {exits : List (Option ExitCode)},
    RelatesExits R E exits → ∀ h ∈ c.handlerCodes exits handlers, Relates R E h.body
  | [], _, _ => by simp [handlerCodes]
  | ⟨caught, binding, body⟩ :: rest, _, hexits => by
    rw [handlerCodes]
    exact List.forall_mem_cons.2 ⟨relates_block body hexits, relates_handlerCodes rest hexits⟩

theorem relates_exitCode : ∀ (exit : Option ExitBlock) {exits : List (Option ExitCode)},
    RelatesExits R E exits → ∀ code ∈ c.exitCode exits exit, Relates R E code.body
  | none, _, _ => by simp [exitCode]
  | some ⟨inFlight, body⟩, _, hexits => by
    rw [exitCode]
    rintro code ⟨⟩
    exact relates_block body hexits

end

/-- The whole body, where falling off its end is a fault that is expected. -/
theorem relates_wholeBody (hend : E .completesNormally)
    (hfinish : Relates R E (assemble Assembly.finish)) : Relates R E c.wholeBody := by
  have hreturn : Relates R E (do
      emit (.plain Opcode.vreturn) 0
      assemble Assembly.finish) := (hR.emit _ _).bind fun _ => hfinish
  have hclose : Relates R E (do
      if !c.method.result.isVoid then throw .completesNormally
      emit (.plain Opcode.vreturn) 0
      assemble Assembly.finish) := ((Relates.throw hend).bind fun _ => hreturn).ite hreturn
  exact (relates_block hR _ fun _ h => absurd h List.not_mem_nil).bind fun _ =>
    relates_ifAlive hclose hfinish

end CodeContext

/-! ### The pool -/

namespace Draft

variable {α : Type} {R : Draft → Draft → Prop} {E : LoweringFault → Prop}

/-- Assembling changes nothing but the assembly. -/
theorem runs_of_assemble {step : Assemble α} {d t : Draft} {a : α}
    (h : (assemble step).run d = .ok (a, t)) :
    Assembly.Runs step d.asm a t.asm ∧ t = { d with asm := t.asm } := by
  simp only [assemble, StateT.run] at h
  split at h
  · rename_i hrun
    cases h
    exact ⟨hrun, rfl⟩
  · cases h

theorem fault_of_assemble {step : Assemble α} {d : Draft} {e : LoweringFault}
    (h : (assemble step).run d = .error e) : ∃ fault, e = .assembly fault := by
  simp only [assemble, StateT.run] at h
  split at h
  · cases h
  · cases h
    exact ⟨_, rfl⟩

/-- A constant that is added changes nothing but the pool. -/
theorem run_of_addConstant {add : Pool.Add} {d t : Draft} {i : UInt16}
    (h : (addConstant add).run d = .ok (i, t)) :
    add.run.run d.pool = (.ok i, t.pool) ∧ t = { d with pool := t.pool } := by
  simp only [addConstant, StateT.run] at h
  split at h
  · rename_i hrun
    cases h
    exact ⟨hrun, rfl⟩
  · cases h

theorem fault_of_addConstant {add : Pool.Add} {d : Draft} {e : LoweringFault}
    (h : (addConstant add).run d = .error e) : e = .poolOverflow := by
  simp only [addConstant, StateT.run] at h
  split at h
  · cases h
  · cases h
    rfl

theorem relates_newSlot (ty : Ty) (hslot : ∀ d nextSlot, R d { d with nextSlot }) :
    Relates R E (newSlot ty) where
  ok d slot t h := by
    cases h
    exact hslot d _
  error d e h := by cases h

section

variable (hfault : ∀ e, e ≠ .completesNormally → E e)

include hfault

theorem relates_assemble {step : Assemble α}
    (hstep : ∀ d a asm, Assembly.Runs step d.asm a asm → R d { d with asm }) :
    Relates R E (assemble step) where
  ok d a t h := by
    obtain ⟨hruns, ht⟩ := runs_of_assemble h
    exact ht ▸ hstep d a t.asm hruns
  error d e h := by
    obtain ⟨fault, rfl⟩ := fault_of_assemble h
    exact hfault _ (by nofun)

theorem relates_addConstant {add : Pool.Add}
    (hadd : ∀ d i pool, add.run.run d.pool = (.ok i, pool) → R d { d with pool }) :
    Relates R E (addConstant add) where
  ok d i t h := by
    obtain ⟨hrun, ht⟩ := run_of_addConstant h
    exact ht ▸ hadd d i t.pool hrun
  error d e h := fault_of_addConstant h ▸ hfault _ (by nofun)

/-- A relation that does not look at the assembly. -/
theorem isKept_of_asm [IsPreorder Draft R] (hasm : ∀ d asm, R d { d with asm })
    (hadd : ∀ {add : Pool.Add}, add.Adds → ∀ d i pool, add.run.run d.pool = (.ok i, pool) →
      R d { d with pool })
    (hslot : ∀ d nextSlot, R d { d with nextSlot })
    (hgaps : ∀ d gaps, R d { d with gaps }) : IsKept R E fun _ => True := by
  have hassemble : ∀ {α : Type} (step : Assemble α), Relates R E (assemble step) :=
    fun step => relates_assemble hfault fun d _ asm _ => hasm d asm
  exact {
    fault := hfault
    emit := fun _ _ => hassemble _
    addConstant := fun h => relates_addConstant hfault (hadd h)
    newLabel := fun hf => (hassemble _).bind fun label => hf label trivial
    branch := fun _ _ _ _ => hassemble _
    switch := fun _ _ => hassemble _
    place := fun _ => hassemble _
    enterHandler := fun _ => hassemble _
    addCatch := fun _ _ _ _ => hassemble _
    newSlot := fun ty => relates_newSlot ty hslot
    setGaps := hgaps }

end

end Draft

namespace CodeContext

open Draft

/-- Whatever the body is, lowering it only lets the pool grow. -/
theorem keepsPool_wholeBody (c : CodeContext) : KeepsPool Draft.pool c.wholeBody := by
  have hkept : IsKept (fun d t => d.pool.Grows t.pool) (fun _ => True) fun _ => True :=
    isKept_of_asm (fun _ _ => trivial) (fun _ _ => Pool.Grows.refl _)
      (fun hadd d i pool hrun => hadd d.pool i pool hrun) (fun _ _ => Pool.Grows.refl _)
      fun _ _ => Pool.Grows.refl _
  exact relates_wholeBody hkept trivial
    (relates_assemble (fun _ _ => trivial) fun _ _ _ _ => Pool.Grows.refl _)

end CodeContext

end ComponentViews
