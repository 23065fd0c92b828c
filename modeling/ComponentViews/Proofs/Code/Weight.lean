import ComponentViews.Proofs.Code.Bodies
import ComponentViews.Synthesis.Container
import ComponentViews.Synthesis.Parts

/-!
# Bodies that fit into a frame

What a body needs of the operand stack is bounded by the *weight* of its expressions, which
counts two places for each value that an expression is made of (`Expr.weight`); of the items of
an array only the heaviest counts, since they come one after another. A body is *light* if none
of its expressions is heavier than some bound, and then that bounds the depth of its stack
wherever the body stands (`CodeContext.peakOfBlock_le`).
-/

namespace ComponentViews

/-! ### Weights -/

namespace Expr

mutual

/-- A bound of the places that an expression needs on the stack. -/
def weight : Expr → Nat
  | const _ | var _ | arg _ | this | classOf _ => 2
  | field _ target => weight target
  | new _ _ args => weightOfAll args + 2
  | array _ items => weightOfItems items + 3
  | item e _ => weight e
  | box e | unbox _ e | cast _ e => weight e
  | call _ receiver args => weightOfReceiver receiver + weightOfAll args + 2

/-- The weight of the receiver of a call, if there is one. -/
def weightOfReceiver : Option Expr → Nat
  | none => 0
  | some e => weight e

/-- The weight of expressions whose values stay on the stack. -/
def weightOfAll : List Expr → Nat
  | [] => 0
  | e :: rest => weight e + weightOfAll rest

/-- The weight of the heaviest expression. -/
def weightOfItems : List Expr → Nat
  | [] => 0
  | e :: rest => max (weight e) (weightOfItems rest)

end

attribute [simp] weight weightOfReceiver weightOfAll weightOfItems

theorem two_le_weight : ∀ e : Expr, 2 ≤ e.weight
  | const _ | var _ | arg _ | this | classOf _ => by simp
  | field _ target => by simpa using two_le_weight target
  | new _ _ _ | call _ _ _ | array _ _ => by simp
  | item e _ => by simpa using two_le_weight e
  | box e | unbox _ e | cast _ e => by simpa using two_le_weight e

@[simp] theorem weight_null : Expr.null.weight = 2 := by simp [null]

@[simp] theorem weight_int (n : Int32) : (Expr.int n).weight = 2 := by simp [int]

@[simp] theorem weight_bool (b : Bool) : (Expr.bool b).weight = 2 := by simp [bool]

@[simp] theorem weight_string (s : String) : (Expr.string s).weight = 2 := by simp [string]

@[simp] theorem weight_zero (ty : Ty) : (Expr.zero ty).weight = 2 := by simp [zero]

@[simp] theorem weight_fieldOf (owner name className : String) (target : Expr) :
    (fieldOf owner name className target).weight = target.weight := by
  simp [fieldOf]

@[simp] theorem weight_invoke (kind : CallKind) (receiver : Expr) (owner name : String)
    (params : List Ty) (result : Ty) (args : List Expr) :
    (invoke kind receiver owner name params result args).weight =
      receiver.weight + weightOfAll args + 2 := by
  simp [invoke]

@[simp] theorem weight_invokeStatic (owner name : String) (params : List Ty) (result : Ty)
    (args : List Expr) :
    (invokeStatic owner name params result args).weight = weightOfAll args + 2 := by
  simp [invokeStatic]

@[simp] theorem weight_hook (hook : Hook) (receiver : Expr) (args : List Expr) :
    (hook.invoke receiver args).weight = receiver.weight + weightOfAll args + 2 := by
  simp [Hook.invoke]

@[simp] theorem weight_hookInherited (hook : Hook) (args : List Expr) :
    (hook.invokeInherited args).weight = weightOfAll args + 4 := by
  simp only [Hook.invokeInherited, weight_invoke, weight]
  omega

@[simp] theorem weight_fromObject (ty : Ty) (e : Expr) : (fromObject ty e).weight = e.weight := by
  rw [fromObject]
  split
  · simp
  · split <;> simp

/-- Expressions that have been made from a list weigh no more than each of them can. -/
theorem weightOfAll_map_le {α : Type} {f : α → Expr} {n : Nat} {l : List α}
    (h : ∀ a ∈ l, (f a).weight ≤ n) : weightOfAll (l.map f) ≤ n * l.length := by
  induction l with
  | nil => simp
  | cons a l ih =>
    obtain ⟨ha, hl⟩ := List.forall_mem_cons.1 h
    have := ih hl
    rw [List.map_cons, weightOfAll, List.length_cons, Nat.mul_succ]
    omega

theorem weightOfItems_le {n : Nat} {es : List Expr} (h : ∀ e ∈ es, e.weight ≤ n) :
    weightOfItems es ≤ n := by
  induction es with
  | nil => simp
  | cons e es ih =>
    obtain ⟨he, hes⟩ := List.forall_mem_cons.1 h
    rw [weightOfItems]
    exact Nat.max_le.2 ⟨he, ih hes⟩

theorem weightOfAll_forwardArgs (n : Nat) : weightOfAll (forwardArgs n) ≤ 2 * n := by
  have h := weightOfAll_map_le (f := arg) (n := 2) (l := List.range n) fun _ _ => by simp
  rwa [List.length_range] at h

theorem weight_boxedArgs (params : List Ty) : (boxedArgs params).weight ≤ 5 := by
  rw [boxedArgs, objectArray, weight]
  refine Nat.add_le_add_right (weightOfItems_le fun e he => ?_) 3
  obtain ⟨arg, harg, rfl⟩ := List.mem_map.1 he
  obtain ⟨i, -, rfl⟩ := List.mem_map.1 harg
  simp

end Expr

namespace CodeContext

variable (c : CodeContext)

mutual

/-- An expression needs no more places than it weighs. -/
theorem peak_le_weight : ∀ e : Expr, c.peak e ≤ e.weight
  | .const _ | .var _ | .arg _ => by
    rw [peak, Expr.weight]
    · exact Ty.slots_le_two _
    all_goals simp
  | .this | .classOf _ => by simp [peak]
  | .field f target => by
    -- The value may take more places than the object that it is read from.
    have := peak_le_weight target
    have := target.two_le_weight
    have := f.type.slots_le_two
    rw [peak, Expr.weight]
    omega
  | .new _ _ args => by
    have := peakOfAll_le_weight args
    rw [peak, Expr.weight]
    omega
  | .array _ items => by
    have := peakOfItems_le_weight items
    rw [peak, Expr.weight]
    omega
  | .item array _ => by
    have := peak_le_weight array
    have := array.two_le_weight
    rw [peak, Expr.weight]
    omega
  | .box e | .cast _ e => by
    have := peak_le_weight e
    have := e.two_le_weight
    rw [peak, Expr.weight]
    omega
  | .unbox p e => by
    have := peak_le_weight e
    have := e.two_le_weight
    have : p.slots ≤ 2 := by cases p <;> decide
    rw [peak, Expr.weight]
    omega
  | .call callee none args => by
    have hargs := peakOfAll_le_weight args
    have hresult := callee.result.slots_le_two
    simp only [peak, peakOfReceiver, Expr.weight, Expr.weightOfReceiver, Option.isSome_none,
      Bool.false_eq_true, if_false]
    omega
  | .call callee (some e) args => by
    have he := peak_le_weight e
    have hpos := e.two_le_weight
    have hargs := peakOfAll_le_weight args
    have hresult := callee.result.slots_le_two
    simp only [peak, peakOfReceiver, Expr.weight, Expr.weightOfReceiver, Option.isSome_some,
      if_true]
    omega

theorem peakOfAll_le_weight : ∀ es : List Expr, c.peakOfAll es ≤ Expr.weightOfAll es
  | [] => by simp [peakOfAll]
  | e :: rest => by
    -- The value of the first stays below the others, and it is no larger than what it weighs.
    have he := peak_le_weight e
    have hslots := Nat.le_trans (Ty.slots_le_two (c.typeOf e)) e.two_le_weight
    have hrest := peakOfAll_le_weight rest
    rw [peakOfAll, Expr.weightOfAll]
    omega

theorem peakOfItems_le_weight : ∀ es : List Expr, c.peakOfItems es ≤ Expr.weightOfItems es + 3
  | [] => by simp [peakOfItems]
  | e :: rest => by
    have he := peak_le_weight e
    have hrest := peakOfItems_le_weight rest
    rw [peakOfItems, Expr.weightOfItems]
    omega

end

end CodeContext

/-! ### Light bodies -/

/-- The expressions of a condition weigh no more than `n`. -/
def Cond.IsLight (n : Nat) : Cond → Prop
  | isTrue e | isFalse e | isNull e | notNull e | instanceOf e _ => e.weight ≤ n
  | same a b => a.weight + b.weight ≤ n

mutual

/-- The expressions of a statement weigh no more than `n`. -/
def Stmt.IsLight (n : Nat) : Stmt → Prop
  | .assign _ e | .eval e | .throw e | .ret (some e) => e.weight ≤ n
  | .setField _ target value => target.weight + value.weight ≤ n
  | .ret none => True
  | .cond cond yes no => cond.IsLight n ∧ IsLightBlock n yes ∧ IsLightBlock n no
  | .switch key cases otherwise => key.weight ≤ n ∧ IsLightCases n cases ∧ IsLightBlock n otherwise
  | .region body handlers exit =>
    IsLightBlock n body ∧ IsLightHandlers n handlers ∧ IsLightExit n exit

/-- The expressions in a block weigh no more than `n`. -/
def IsLightBlock (n : Nat) : Block → Prop
  | [] => True
  | s :: rest => Stmt.IsLight n s ∧ IsLightBlock n rest

/-- Those in the cases of a switch weigh no more than `n`. -/
def IsLightCases (n : Nat) : List (Int32 × Block) → Prop
  | [] => True
  | (_, block) :: rest => IsLightBlock n block ∧ IsLightCases n rest

/-- Those in handlers weigh no more than `n`. -/
def IsLightHandlers (n : Nat) : List Handler → Prop
  | [] => True
  | ⟨_, _, block⟩ :: rest => IsLightBlock n block ∧ IsLightHandlers n rest

/-- Those in an exit block weigh no more than `n`. -/
def IsLightExit (n : Nat) : Option ExitBlock → Prop
  | none => True
  | some ⟨_, block⟩ => IsLightBlock n block

end

attribute [simp] Cond.IsLight Stmt.IsLight IsLightExit

variable {n : Nat}

@[simp] theorem isLightBlock_iff {block : Block} :
    IsLightBlock n block ↔ ∀ s ∈ block, s.IsLight n := by
  induction block with
  | nil => simp [IsLightBlock]
  | cons s rest ih => rw [IsLightBlock, ih, List.forall_mem_cons]

@[simp] theorem isLightCases_iff {cases : List (Int32 × Block)} :
    IsLightCases n cases ↔ ∀ e ∈ cases, ∀ s ∈ e.2, s.IsLight n := by
  induction cases with
  | nil => simp [IsLightCases]
  | cons e rest ih => rw [IsLightCases, ih, List.forall_mem_cons, isLightBlock_iff]

@[simp] theorem isLightHandlers_iff {handlers : List Handler} :
    IsLightHandlers n handlers ↔ ∀ x ∈ handlers, ∀ s ∈ x.body, s.IsLight n := by
  induction handlers with
  | nil => simp [IsLightHandlers]
  | cons x rest ih => rw [IsLightHandlers, ih, List.forall_mem_cons, isLightBlock_iff]

/-- Handlers are light if they are wherever their variables are. -/
theorem isLight_handlers {catches : List Catch} {first : Nat}
    (h : ∀ x ∈ catches, ∀ i, ∀ s ∈ x.body i, s.IsLight n) :
    ∀ x ∈ Catch.handlers first catches, ∀ s ∈ x.body, s.IsLight n := by
  induction catches generalizing first with
  | nil => exact List.forall_mem_nil _
  | cons x rest ih =>
    obtain ⟨hx, hrest⟩ := List.forall_mem_cons.1 h
    exact List.forall_mem_cons.2 ⟨hx first, ih hrest⟩

theorem isLight_retCall {result : Ty} {call : Expr} (h : call.weight ≤ n) :
    ∀ s ∈ Stmt.retCall result call, s.IsLight n := by
  rw [Stmt.retCall]
  split <;> simp [h]

namespace CodeContext

variable (c : CodeContext)

theorem peakOfCond_le {cond : Cond} (h : cond.IsLight n) : c.peakOfCond cond ≤ n := by
  cases cond with
  | same a b =>
    have ha := c.peak_le_weight a
    have hb := c.peak_le_weight b
    have htwo := a.two_le_weight
    simp only [Cond.IsLight] at h
    rw [peakOfCond]
    omega
  | _ => exact Nat.le_trans (c.peak_le_weight _) h

mutual

theorem peakOfStmt_le (hn : 1 ≤ n) : ∀ s : Stmt, s.IsLight n → c.peakOfStmt s ≤ n
  | .assign _ e, h | .eval e, h | .throw e, h | .ret (some e), h => by
    rw [Stmt.IsLight] at h
    rw [peakOfStmt]
    exact Nat.le_trans (c.peak_le_weight e) h
  | .setField _ target value, h => by
    -- The target stays on the stack while the value is evaluated.
    have ha := c.peak_le_weight target
    have hb := c.peak_le_weight value
    have htwo := target.two_le_weight
    rw [Stmt.IsLight] at h
    rw [peakOfStmt]
    omega
  | .ret none, _ => by
    rw [peakOfStmt]
    exact Nat.zero_le n
  | .cond cond yes no, h => by
    rw [Stmt.IsLight] at h
    rw [peakOfStmt]
    exact Nat.max_le.2 ⟨c.peakOfCond_le h.1,
      Nat.max_le.2 ⟨peakOfBlock_le hn yes h.2.1, peakOfBlock_le hn no h.2.2⟩⟩
  | .switch key cases otherwise, h => by
    rw [Stmt.IsLight] at h
    rw [peakOfStmt]
    exact Nat.max_le.2 ⟨Nat.le_trans (c.peak_le_weight key) h.1,
      Nat.max_le.2 ⟨peakOfCases_le hn cases h.2.1, peakOfBlock_le hn otherwise h.2.2⟩⟩
  | .region body handlers exit, h => by
    rw [Stmt.IsLight] at h
    rw [peakOfStmt]
    exact Nat.max_le.2 ⟨hn, Nat.max_le.2 ⟨peakOfBlock_le hn body h.1,
      Nat.max_le.2 ⟨peakOfHandlers_le hn handlers h.2.1, peakOfExit_le hn exit h.2.2⟩⟩⟩

/-- A light block needs no more of the operand stack than its bound. -/
theorem peakOfBlock_le (hn : 1 ≤ n) : ∀ b : Block, IsLightBlock n b → c.peakOfBlock b ≤ n
  | [], _ => by
    rw [peakOfBlock]
    exact Nat.zero_le n
  | s :: rest, h => by
    rw [IsLightBlock] at h
    rw [peakOfBlock]
    exact Nat.max_le.2 ⟨peakOfStmt_le hn s h.1, peakOfBlock_le hn rest h.2⟩

theorem peakOfCases_le (hn : 1 ≤ n) : ∀ cases : List (Int32 × Block), IsLightCases n cases →
    c.peakOfCases cases ≤ n
  | [], _ => by
    rw [peakOfCases]
    exact Nat.zero_le n
  | (_, block) :: rest, h => by
    rw [IsLightCases] at h
    rw [peakOfCases]
    exact Nat.max_le.2 ⟨peakOfBlock_le hn block h.1, peakOfCases_le hn rest h.2⟩

theorem peakOfHandlers_le (hn : 1 ≤ n) : ∀ handlers : List Handler, IsLightHandlers n handlers →
    c.peakOfHandlers handlers ≤ n
  | [], _ => by
    rw [peakOfHandlers]
    exact Nat.zero_le n
  | ⟨_, _, block⟩ :: rest, h => by
    rw [IsLightHandlers] at h
    rw [peakOfHandlers]
    exact Nat.max_le.2 ⟨peakOfBlock_le hn block h.1, peakOfHandlers_le hn rest h.2⟩

theorem peakOfExit_le (hn : 1 ≤ n) : ∀ exit : Option ExitBlock, IsLightExit n exit →
    c.peakOfExit exit ≤ n
  | none, _ => by
    rw [peakOfExit]
    exact Nat.zero_le n
  | some ⟨_, block⟩, h => by
    rw [IsLightExit] at h
    rw [peakOfExit]
    exact peakOfBlock_le hn block h

end

/-! ### Slots for values that wait -/

variable {c} {exits : List (Option Nat)}

@[simp] theorem demand_assign (i : Nat) (e : Expr) : c.demand exits (.assign i e) = 0 := by
  rw [demand] <;> simp

@[simp] theorem demand_setField (f : FieldRef) (target value : Expr) :
    c.demand exits (.setField f target value) = 0 := by
  rw [demand] <;> simp

@[simp] theorem demand_eval (e : Expr) : c.demand exits (.eval e) = 0 := by
  rw [demand] <;> simp

@[simp] theorem demand_throw (e : Expr) : c.demand exits (.throw e) = 0 := by
  rw [demand] <;> simp

attribute [simp] demandOfBlock demandOfExit demandOfInFlight demandOfCopies

@[simp] theorem demand_cond (cond : Cond) (yes no : Block) : c.demand exits (.cond cond yes no) =
    c.demandOfBlock exits yes + c.demandOfBlock exits no := by
  rw [demand]

@[simp] theorem demandOfBlock_append (a b : Block) : c.demandOfBlock exits (a ++ b) =
    c.demandOfBlock exits a + c.demandOfBlock exits b := by
  induction a with
  | nil => simp
  | cons s rest ih => simp [ih, Nat.add_assoc]

theorem demandOfBlock_eq_zero {b : Block} (h : ∀ s ∈ b, c.demand exits s = 0) :
    c.demandOfBlock exits b = 0 := by
  induction b with
  | nil => simp
  | cons s rest ih =>
    obtain ⟨hs, hrest⟩ := List.forall_mem_cons.1 h
    rw [demandOfBlock, hs, ih hrest]

theorem width_le (ty : Ty) : width ty ≤ 2 := Nat.max_le.2 ⟨ty.slots_le_two, Nat.le_succ 1⟩

/-- A value that is returned waits in one slot or two, if it waits at all. -/
theorem demand_ret_le (e : Option Expr) : c.demand exits (.ret e) ≤ 2 + demandOfCopies exits := by
  have := width_le c.method.result
  cases e with
  | none =>
    rw [demand]
    exact Nat.le_add_left _ _
  | some e =>
    rw [demand]
    split <;> omega

/-- Where there is no exit block around, nothing waits. -/
@[simp] theorem demand_ret_nil (e : Option Expr) : c.demand [] (.ret e) = 0 := by
  cases e <;> simp [demand]

@[simp] theorem demand_ret_none (e : Option Expr) : c.demand [none] (.ret e) = 0 := by
  cases e <;> simp [demand]

theorem demandOfBlock_retCall_le (exits : List (Option Nat)) (result : Ty) (call : Expr) :
    c.demandOfBlock exits (Stmt.retCall result call) ≤ 2 + demandOfCopies exits := by
  have hret : ∀ e, c.demand exits (.ret e) ≤ 2 + demandOfCopies exits := demand_ret_le
  rw [Stmt.retCall]
  split
  · simpa using hret none
  · simpa using hret (some call)

theorem demandOfCases_eq_zero {cases : List (Int32 × Block)}
    (h : ∀ e ∈ cases, ∀ s ∈ e.2, c.demand exits s = 0) : c.demandOfCases exits cases = 0 := by
  induction cases with
  | nil => rw [demandOfCases]
  | cons e rest ih =>
    obtain ⟨he, hrest⟩ := List.forall_mem_cons.1 h
    rw [demandOfCases, demandOfBlock_eq_zero he, ih hrest]

/-- In handlers that all end nothing waits but what waits in their blocks. -/
theorem demandOfHandlers_catches {catches : List Catch} {first copy : Nat}
    (h : ∀ x ∈ catches, ∀ i, blockEnds (x.body i) = true ∧ c.demandOfBlock exits (x.body i) = 0) :
    c.demandOfHandlers exits copy (Catch.handlers first catches) = 0 := by
  induction catches generalizing first with
  | nil => rw [Catch.handlers, demandOfHandlers]
  | cons x rest ih =>
    obtain ⟨hx, hrest⟩ := List.forall_mem_cons.1 h
    rw [Catch.handlers, demandOfHandlers, (hx first).2, (hx first).1, ih hrest]
    rfl

/-! ### Frames -/

theorem widths_le (types : List Ty) : widths types ≤ 2 * types.length := by
  induction types with
  | nil => exact Nat.le_refl 0
  | cons ty rest ih =>
    have := width_le ty
    rw [widths, List.map_cons, List.sum_cons, List.length_cons]
    rw [widths] at ih
    omega

theorem widths_append (a b : List Ty) : widths (a ++ b) = widths a + widths b := by
  rw [widths, List.map_append, List.sum_append, widths, widths]

/-- References take a slot each. -/
theorem widths_of_isReference {types : List Ty} (h : ∀ ty ∈ types, ty.isReference = true) :
    widths types = types.length := by
  induction types with
  | nil => rfl
  | cons ty rest ih =>
    obtain ⟨hty, hrest⟩ := List.forall_mem_cons.1 h
    have hwidth : width ty = 1 := by rw [width, Ty.slots_of_isReference hty, Nat.max_self]
    rw [widths, List.map_cons, List.sum_cons, hwidth, List.length_cons, Nat.add_comm]
    exact congrArg (· + 1) (ih hrest)

/-- The body finds room in a frame: the places that it needs on the operand stack, and the slots
    that it takes. -/
structure HasRoom (c : CodeContext) : Prop where
  stack : c.peakOfBlock c.body.block ≤ 65535
  slots : c.slotsNeeded ≤ 65535

end CodeContext

/-- A method whose variables have values, and whose body finds room if there is little for it to
    pass on (`few`). -/
structure Method.HasRoom (few : Prop) (unit : String) (m : Method) : Prop where
  vars : ∀ ty ∈ m.variableTypes, ty.isVoid = false
  room : few → slotsOf m.params ≤ 254 → ∀ body ∈ m.body, ∀ hasClassConstants,
    (CodeContext.mk unit m body hasClassConstants).HasRoom

/-- The variables of a body have values, and its operands and the slots that it takes are few, if
    there is little for it to pass on. -/
structure Body.IsRoomy (few : Prop) (body : Body) : Prop where
  vars : ∀ v ∈ body.vars, v.type.isVoid = false
  light : few → ∀ s ∈ body.block, s.IsLight 65535
  -- The object and 254 arguments take the rest of the frame.
  slots : few → ∀ c : CodeContext,
    CodeContext.widths (body.vars.map (·.type)) + c.demandOfBlock [] body.block ≤ 65280

namespace Method

variable {few : Prop} {unit : String} {m : Method} {body : Body}

theorem hasRoom_of_body (hbody : m.body = some body)
    (h : body.IsRoomy (few ∧ slotsOf m.params ≤ 254)) : m.HasRoom few unit := by
  have htypes : m.variableTypes = body.vars.map (·.type) := by rw [variableTypes, hbody]
  refine ⟨by rw [htypes]; exact List.forall_mem_map.2 h.vars,
    fun hfew hparams body' hbody' flag => ?_⟩
  cases hbody.symm.trans hbody'
  refine ⟨CodeContext.peakOfBlock_le _ (by decide) _ (isLightBlock_iff.2 (h.light ⟨hfew, hparams⟩)),
    ?_⟩
  have hslots := h.slots ⟨hfew, hparams⟩ ⟨unit, m, body, flag⟩
  have harg := (CodeContext.mk unit m body flag).firstArg_le
  rw [CodeContext.slotsNeeded, CodeContext.fixedSlots]
  simp only [htypes]
  omega

/-- A method without variables and regions. -/
theorem hasRoom_ofBlock {name : String} {params : List Ty} {result : Ty} {block : Block}
    (hlight : ∀ s ∈ block, s.IsLight 65535)
    (hdemand : ∀ c : CodeContext, ∀ s ∈ block, c.demand [] s = 0) :
    (Method.ofBody name params result (.ofBlock block)).HasRoom few unit :=
  hasRoom_of_body rfl ⟨List.forall_mem_nil _, fun _ => hlight, fun _ c => by
    rw [show (Body.ofBlock block).block = block from rfl,
      CodeContext.demandOfBlock_eq_zero (hdemand c)]
    exact Nat.zero_le _⟩

theorem hasRoom_constructorOf (ancestor : String) : (constructorOf ancestor).HasRoom few unit :=
  hasRoom_ofBlock (by simp) fun c => by simp

end Method

/-! ### Limits -/

/-- A body that finds room can only be too large for the pool or for its code. -/
theorem CodeContext.HasRoom.isLimit {c : CodeContext} (h : c.HasRoom) {fault : LoweringFault}
    (hfault : c.IsTooLarge fault) : fault.isLimit = true := by
  have hstack := h.stack
  -- Of the faults that sizes explain, the frame rules out one, and the others are limits.
  rcases fault with _ | (_ | _ | _ | _ | _ | _ | _) | _ | _ | _ | _ | _ | _ | _ | _
  case assembly.stackUnderflow => exact absurd hfault (Nat.not_lt.2 hstack)
  all_goals first | rfl | exact hfault.elim

end ComponentViews
