import ComponentViews.Blueprint.Check
import ComponentViews.Synthesis.Parts
import ComponentViews.Proofs.Checks
import ComponentViews.Proofs.Failures

/-!
# Accepted bodies

What the structural check of a body comes to, constructor by constructor: an expression is
accepted if its parts are and its own condition holds, a block if its statements are, and
the handlers of a region if their blocks are and each can be reached. The lemmas are tagged
for `simp`, so that a generated body is checked by simplification, down to the conditions
on its variables, its argument lists and its handlers.
-/

namespace ComponentViews

namespace Scope

section

attribute [local simp] checkVariable checkExpr checkReceiver checkExprs checkCond checkStmt
  checkBlock checkCases checkHandlers checkExit

variable (scope : Scope)

/-! ### Expressions -/

@[simp] theorem checkVariable_eq_ok {i : Nat} :
    scope.checkVariable i = .ok () ↔ i < scope.vars := by
  simp

@[simp] theorem checkExpr_const (l : Literal) : scope.checkExpr (.const l) = .ok () := by
  simp

@[simp] theorem checkExpr_classOf (ty : Ty) : scope.checkExpr (.classOf ty) = .ok () := by
  simp

@[simp] theorem checkExpr_var {i : Nat} :
    scope.checkExpr (.var i) = .ok () ↔ i < scope.vars := by
  simp

@[simp] theorem checkExpr_this : scope.checkExpr .this = .ok () ↔ scope.isStatic = false := by
  simp

@[simp] theorem checkExpr_arg {i : Nat} :
    scope.checkExpr (.arg i) = .ok () ↔ i < scope.args := by
  simp

@[simp] theorem checkExpr_field {f : FieldRef} {target : Expr} :
    scope.checkExpr (.field f target) = .ok () ↔ scope.checkExpr target = .ok () := by
  simp

@[simp] theorem checkExpr_item {array : Expr} {i : Int32} :
    scope.checkExpr (.item array i) = .ok () ↔ ¬ i < 0 ∧ scope.checkExpr array = .ok () := by
  rw [checkExpr]
  split <;> simp [*]

@[simp] theorem checkExpr_box {e : Expr} :
    scope.checkExpr (.box e) = .ok () ↔ scope.checkExpr e = .ok () := by
  simp

@[simp] theorem checkExpr_unbox {p : Primitive} {e : Expr} :
    scope.checkExpr (.unbox p e) = .ok () ↔ scope.checkExpr e = .ok () := by
  simp

@[simp] theorem checkExpr_cast {ty : Ty} {e : Expr} :
    scope.checkExpr (.cast ty e) = .ok () ↔ scope.checkExpr e = .ok () := by
  simp

@[simp] theorem checkExprs_eq_ok {es : List Expr} :
    scope.checkExprs es = .ok () ↔ ∀ e ∈ es, scope.checkExpr e = .ok () := by
  induction es with
  | nil => simp
  | cons e es ih => simp [ih]

@[simp] theorem checkExpr_new {className : String} {params : List Ty} {args : List Expr} :
    scope.checkExpr (.new className params args) = .ok () ↔
      params.length = args.length ∧ ∀ e ∈ args, scope.checkExpr e = .ok () := by
  by_cases hn : params.length = args.length <;> simp [hn]

@[simp] theorem checkExpr_array {element : Ty} {items : List Expr} :
    scope.checkExpr (.array element items) = .ok () ↔
      (element.primitive? = none ∧ element.isVoid = false) ∧
        ∀ e ∈ items, scope.checkExpr e = .ok () := by
  simp only [checkExpr]
  split
  · rename_i hbad
    simp only [reduceCtorEq, false_iff, not_and]
    intro hgood
    simp [hgood] at hbad
  · rename_i hgood
    simp only [Bool.or_eq_true, Option.isSome_iff_ne_none, not_or, not_not,
      Bool.not_eq_true] at hgood
    simp [hgood]

@[simp] theorem checkExpr_call {callee : Callee} {receiver : Option Expr} {args : List Expr} :
    scope.checkExpr (.call callee receiver args) = .ok () ↔
      callee.params.length = args.length ∧ (∀ e ∈ receiver, scope.checkExpr e = .ok ()) ∧
        ∀ e ∈ args, scope.checkExpr e = .ok () := by
  by_cases hn : callee.params.length = args.length <;>
    cases receiver <;> simp [hn]

@[simp] theorem checkExpr_invoke {kind : CallKind} {receiver : Expr} {owner name : String}
    {params : List Ty} {result : Ty} {args : List Expr} :
    scope.checkExpr (.invoke kind receiver owner name params result args) = .ok () ↔
      params.length = args.length ∧ scope.checkExpr receiver = .ok () ∧
        ∀ e ∈ args, scope.checkExpr e = .ok () := by
  rw [Expr.invoke, checkExpr_call]
  simp

@[simp] theorem checkExpr_invokeStatic {owner name : String} {params : List Ty} {result : Ty}
    {args : List Expr} :
    scope.checkExpr (.invokeStatic owner name params result args) = .ok () ↔
      params.length = args.length ∧ ∀ e ∈ args, scope.checkExpr e = .ok () := by
  rw [Expr.invokeStatic, checkExpr_call]
  simp

@[simp] theorem checkExpr_fieldOf {owner name className : String} {target : Expr} :
    scope.checkExpr (.fieldOf owner name className target) = .ok () ↔
      scope.checkExpr target = .ok () := by
  simp [Expr.fieldOf]

@[simp] theorem checkExpr_null : scope.checkExpr .null = .ok () := checkExpr_const scope _

@[simp] theorem checkExpr_int (n : Int32) : scope.checkExpr (.int n) = .ok () :=
  checkExpr_const scope _

@[simp] theorem checkExpr_bool (b : Bool) : scope.checkExpr (.bool b) = .ok () :=
  checkExpr_const scope _

@[simp] theorem checkExpr_string (s : String) : scope.checkExpr (.string s) = .ok () :=
  checkExpr_const scope _

@[simp] theorem checkExpr_zero (ty : Ty) : scope.checkExpr (.zero ty) = .ok () :=
  checkExpr_const scope _

/-! ### Expressions that generated bodies share -/

theorem checkExpr_of_mem_forwardArgs {n : Nat} (hn : n ≤ scope.args) :
    ∀ e ∈ Expr.forwardArgs n, scope.checkExpr e = .ok () := by
  intro e he
  obtain ⟨i, hi, rfl⟩ := List.mem_map.1 he
  rw [checkExpr_arg]
  exact lt_of_lt_of_le (List.mem_range.1 hi) hn

@[simp] theorem length_forwardArgs (n : Nat) : (Expr.forwardArgs n).length = n := by
  simp [Expr.forwardArgs]

@[simp] theorem checkExpr_objectArray {items : List Expr} :
    scope.checkExpr (Expr.objectArray items) = .ok () ↔
      ∀ e ∈ items, scope.checkExpr e = .ok () := by
  have hobject : Ty.object.primitive? = none ∧ Ty.object.isVoid = false := by decide
  simp [Expr.objectArray, hobject]

theorem checkExpr_boxedArgs {params : List Ty} (hn : params.length ≤ scope.args) :
    scope.checkExpr (Expr.boxedArgs params) = .ok () := by
  simp only [Expr.boxedArgs, checkExpr_objectArray, List.forall_mem_map, checkExpr_box]
  exact checkExpr_of_mem_forwardArgs scope hn

@[simp] theorem checkExpr_fromObject {ty : Ty} {e : Expr} :
    scope.checkExpr (Expr.fromObject ty e) = .ok () ↔ scope.checkExpr e = .ok () := by
  rw [Expr.fromObject]
  split
  · exact checkExpr_unbox scope
  · split
    · rfl
    · exact checkExpr_cast scope

/-! ### Statements -/

@[simp] theorem checkCond_isTrue {e : Expr} :
    scope.checkCond (.isTrue e) = .ok () ↔ scope.checkExpr e = .ok () := by
  simp

@[simp] theorem checkCond_isFalse {e : Expr} :
    scope.checkCond (.isFalse e) = .ok () ↔ scope.checkExpr e = .ok () := by
  simp

@[simp] theorem checkCond_isNull {e : Expr} :
    scope.checkCond (.isNull e) = .ok () ↔ scope.checkExpr e = .ok () := by
  simp

@[simp] theorem checkCond_notNull {e : Expr} :
    scope.checkCond (.notNull e) = .ok () ↔ scope.checkExpr e = .ok () := by
  simp

@[simp] theorem checkCond_instanceOf {e : Expr} {className : String} :
    scope.checkCond (.instanceOf e className) = .ok () ↔ scope.checkExpr e = .ok () := by
  simp

@[simp] theorem checkCond_same {a b : Expr} :
    scope.checkCond (.same a b) = .ok () ↔
      scope.checkExpr a = .ok () ∧ scope.checkExpr b = .ok () := by
  simp

@[simp] theorem checkBlock_eq_ok {b : Block} :
    scope.checkBlock b = .ok () ↔ ∀ s ∈ b, scope.checkStmt s = .ok () := by
  induction b with
  | nil => simp
  | cons s b ih => simp [ih]

@[simp] theorem checkCases_eq_ok {cases : List (Int32 × Block)} :
    scope.checkCases cases = .ok () ↔ ∀ c ∈ cases, ∀ s ∈ c.2, scope.checkStmt s = .ok () := by
  induction cases with
  | nil => simp
  | cons c cases ih => simp [ih]

@[simp] theorem checkStmt_assign {i : Nat} {e : Expr} :
    scope.checkStmt (.assign i e) = .ok () ↔ i < scope.vars ∧ scope.checkExpr e = .ok () := by
  simp

@[simp] theorem checkStmt_setField {f : FieldRef} {target value : Expr} :
    scope.checkStmt (.setField f target value) = .ok () ↔
      scope.checkExpr target = .ok () ∧ scope.checkExpr value = .ok () := by
  simp

@[simp] theorem checkStmt_eval {e : Expr} :
    scope.checkStmt (.eval e) = .ok () ↔ scope.checkExpr e = .ok () := by
  simp

@[simp] theorem checkStmt_throw {e : Expr} :
    scope.checkStmt (.throw e) = .ok () ↔ scope.checkExpr e = .ok () := by
  simp

@[simp] theorem checkStmt_cond {c : Cond} {yes no : Block} :
    scope.checkStmt (.cond c yes no) = .ok () ↔
      scope.checkCond c = .ok () ∧ (∀ s ∈ yes, scope.checkStmt s = .ok ()) ∧
        ∀ s ∈ no, scope.checkStmt s = .ok () := by
  simp

@[simp] theorem checkStmt_switch {key : Expr} {cases : List (Int32 × Block)} {otherwise : Block} :
    scope.checkStmt (.switch key cases otherwise) = .ok () ↔
      scope.checkExpr key = .ok () ∧ (cases.map (·.1)).Nodup ∧
        (∀ c ∈ cases, ∀ s ∈ c.2, scope.checkStmt s = .ok ()) ∧
          ∀ s ∈ otherwise, scope.checkStmt s = .ok () := by
  by_cases hnodup : (cases.map (·.1)).Nodup
  · simp [hnodup]
  · simp [hnodup, throw, throwThe, MonadExceptOf.throw]

@[simp] theorem checkStmt_ret_none :
    scope.checkStmt (.ret none) = .ok () ↔ scope.isVoid = true := by
  simp

@[simp] theorem checkStmt_ret_some {e : Expr} :
    scope.checkStmt (.ret (some e)) = .ok () ↔
      scope.isVoid = false ∧ scope.checkExpr e = .ok () := by
  cases hvoid : scope.isVoid <;> simp [hvoid]

@[simp] theorem checkExit_none : scope.checkExit none = .ok () := by simp

@[simp] theorem checkExit_some {inFlight : Option Nat} {block : Block} :
    scope.checkExit (some ⟨inFlight, block⟩) = .ok () ↔
      (∀ i ∈ inFlight, i < scope.vars) ∧ ∀ s ∈ block, scope.checkStmt s = .ok () := by
  cases inFlight <;> simp

@[simp] theorem checkStmt_region {body : Block} {handlers : List Handler}
    {exit : Option ExitBlock} :
    scope.checkStmt (.region body handlers exit) = .ok () ↔
      (handlers ≠ [] ∨ exit ≠ none) ∧ (∀ s ∈ body, scope.checkStmt s = .ok ()) ∧
        scope.checkHandlers [] handlers = .ok () ∧ scope.checkExit exit = .ok () := by
  by_cases hempty : handlers = [] ∧ exit = none
  · simp [hempty, throw, throwThe, MonadExceptOf.throw]
  · have hsome : handlers ≠ [] ∨ exit ≠ none := by
      rw [← not_and_or]
      exact hempty
    have : (handlers.isEmpty && exit.isNone) = false := by
      cases handlers <;> cases exit <;> simp_all
    simp [this, hsome]

theorem checkBlock_retCall {result : Ty} {call : Expr} (hvoid : scope.isVoid = result.isVoid) :
    (∀ s ∈ Stmt.retCall result call, scope.checkStmt s = .ok ()) ↔
      scope.checkExpr call = .ok () := by
  rw [Stmt.retCall]
  cases hr : result.isVoid <;> simp [hvoid, hr]

/-! ### Handlers -/

/-- Each handler can be reached behind those for `earlier` and those before it: what it
    catches is a class with a name, no subtype of one caught before, and a handler for every
    failure is the last. -/
def CatchesReachable (h : Hierarchy) : (earlier : List String) → List (Option String) → Prop
  | _, [] => True
  | _, none :: rest => rest = []
  | earlier, some caught :: rest =>
    (caught ≠ "" ∧ ∀ before ∈ earlier, h.isSubtype caught before = false) ∧
      CatchesReachable h (earlier ++ [caught]) rest

theorem checkCaught_some {earlier : List String} {isLast : Bool} {caught : String} :
    scope.checkCaught earlier isLast (some caught) = .ok () ↔
      caught ≠ "" ∧ ∀ before ∈ earlier, scope.hierarchy.isSubtype caught before = false := by
  by_cases hempty : caught = ""
  · simp [checkCaught, hempty]
  · rw [checkCaught]
    · cases hfind : earlier.find? (scope.hierarchy.isSubtype caught) with
      | none => simpa [hempty] using hfind
      | some before =>
        have hmem := List.mem_of_find?_eq_some hfind
        have hsub := List.find?_some hfind
        simp only [reduceCtorEq, false_iff, not_and, not_forall]
        exact fun _ => ⟨before, hmem, by simp [hsub]⟩
    · exact fun he => hempty he

theorem checkHandlers_eq_ok {earlier : List String} {handlers : List Handler} :
    scope.checkHandlers earlier handlers = .ok () ↔
      (∀ x ∈ handlers, x.binding < scope.vars ∧ ∀ s ∈ x.body, scope.checkStmt s = .ok ()) ∧
        CatchesReachable scope.hierarchy earlier (handlers.map (·.caught)) := by
  induction handlers generalizing earlier with
  | nil => simp [CatchesReachable]
  | cons x rest ih =>
    obtain ⟨caught, binding, block⟩ := x
    cases caught with
    | none =>
      cases rest with
      | nil => simp [CatchesReachable, checkCaught]
      | cons y rest => simp [CatchesReachable, checkCaught]
    | some caught =>
      simp only [checkHandlers, Except.bind_unit_eq_ok, checkVariable_eq_ok, checkCaught_some, ih,
        checkBlock_eq_ok, List.forall_mem_cons, List.map_cons, CatchesReachable,
        Option.toList_some]
      tauto

/-- Handlers for classes that can be reached one behind the other, and perhaps one for every
    failure at the end. -/
theorem catchesReachable_of_handlersReachable {h : Hierarchy} {earlier caught : List String}
    {last : List (Option String)} (hlast : last = [] ∨ last = [none])
    (hname : ∀ c ∈ caught, c ≠ "") (hreach : h.HandlersReachable (earlier ++ caught)) :
    CatchesReachable h earlier (caught.map some ++ last) := by
  induction caught generalizing earlier with
  | nil => rcases hlast with rfl | rfl <;> simp [CatchesReachable]
  | cons c rest ih =>
    refine ⟨⟨hname c List.mem_cons_self, fun before hb => ?_⟩, ih ?_ ?_⟩
    · exact (List.pairwise_append.1 hreach).2.2 before hb c List.mem_cons_self
    · exact fun x hx => hname x (List.mem_cons_of_mem _ hx)
    · rw [List.append_assoc]
      exact hreach

/-- Handlers with variables of their own are accepted if there is room for the variables,
    their blocks are accepted wherever the variables are, and each can be reached. -/
theorem checkHandlers_catches {first : Nat} {catches : List Catch}
    (hroom : first + catches.length ≤ scope.vars)
    (hbody : ∀ c ∈ catches, ∀ i < scope.vars, ∀ s ∈ c.body i, scope.checkStmt s = .ok ())
    (hreach : CatchesReachable scope.hierarchy [] (catches.map (·.caught))) :
    scope.checkHandlers [] (Catch.handlers first catches) = .ok () := by
  have hcaught : ∀ first, (Catch.handlers first catches).map (·.caught) =
      catches.map (·.caught) := by
    clear hroom hbody hreach
    induction catches with
    | nil => exact fun _ => rfl
    | cons c rest ih => exact fun first => by simp [Catch.handlers, ih]
  rw [checkHandlers_eq_ok, hcaught]
  refine ⟨?_, hreach⟩
  clear hreach hcaught
  induction catches generalizing first with
  | nil => simp [Catch.handlers]
  | cons c rest ih =>
    simp only [List.length_cons] at hroom
    simp only [Catch.handlers, List.forall_mem_cons]
    exact ⟨⟨by omega, hbody c List.mem_cons_self first (by omega)⟩,
      ih (by omega) fun d hd => hbody d (List.mem_cons_of_mem _ hd)⟩

end

end Scope

/-! ### Where control ends -/

section

attribute [local simp] Stmt.ends blockEnds casesEnd handlersEnd exitEnds

@[simp] theorem blockEnds_append_singleton (b : Block) (s : Stmt) :
    blockEnds (b ++ [s]) = s.ends := by
  induction b with
  | nil => simp [blockEnds]
  | cons t b ih =>
    cases hb : b ++ [s] with
    | nil => simp at hb
    | cons u c => rw [List.cons_append, hb, blockEnds, ← hb, ih]; simp

/-- A block that ends with one that does not run off its end. -/
theorem blockEnds_append {a b : Block} (hb : blockEnds b = true) : blockEnds (a ++ b) = true := by
  rcases List.eq_nil_or_concat b with rfl | ⟨init, last, rfl⟩
  · simp [blockEnds] at hb
  · rw [List.concat_eq_append, ← List.append_assoc, blockEnds_append_singleton]
    simpa using hb

@[simp] theorem blockEnds_retCall (result : Ty) (call : Expr) :
    blockEnds (Stmt.retCall result call) = true := by
  rw [Stmt.retCall]
  split <;> simp [blockEnds, Stmt.ends]

theorem handlersEnd_catches {first : Nat} {catches : List Catch}
    (hends : ∀ c ∈ catches, ∀ i, blockEnds (c.body i) = true) :
    handlersEnd (Catch.handlers first catches) = true := by
  induction catches generalizing first with
  | nil => simp [Catch.handlers, handlersEnd]
  | cons c rest ih =>
    simp only [Catch.handlers, handlersEnd, hends c List.mem_cons_self, Bool.true_and]
    exact ih fun d hd => hends d (List.mem_cons_of_mem _ hd)

end

/-! ### Methods and classes -/

namespace Scope

/-- The scope of a body with the given number of variables, in a method of instances. -/
def ofInstance (h : Hierarchy) (vars : Nat) (params : List Ty) (result : Ty) : Scope where
  hierarchy := h
  vars := vars
  args := params.length
  isStatic := false
  isVoid := result.isVoid

variable {h : Hierarchy} {vars : Nat} {params : List Ty} {result : Ty}

@[simp] theorem hierarchy_ofInstance : (ofInstance h vars params result).hierarchy = h := rfl

@[simp] theorem vars_ofInstance : (ofInstance h vars params result).vars = vars := rfl

@[simp] theorem args_ofInstance : (ofInstance h vars params result).args = params.length := rfl

@[simp] theorem isStatic_ofInstance : (ofInstance h vars params result).isStatic = false := rfl

@[simp] theorem isVoid_ofInstance :
    (ofInstance h vars params result).isVoid = result.isVoid := rfl

theorem checkExpr_forwardArgs :
    ∀ e ∈ Expr.forwardArgs params.length, (ofInstance h vars params result).checkExpr e = .ok () :=
  checkExpr_of_mem_forwardArgs _ le_rfl

end Scope

namespace Method

/-- A method is accepted if its statements are, and it has no result or does not run off the
    end. -/
theorem check_iff {h : Hierarchy} {m : Method} {body : Body} (hbody : m.body = some body) :
    m.check h = .ok () ↔ (∀ s ∈ body.block, (m.scope h body).checkStmt s = .ok ()) ∧
      (m.result.isVoid = true ∨ blockEnds body.block = true) := by
  simp only [check, hbody, Except.bind_unit_eq_ok, Scope.checkBlock_eq_ok, ← Bool.or_eq_true]
  cases m.result.isVoid || blockEnds body.block <;>
    simp [throw, throwThe, MonadExceptOf.throw, pure, Except.pure]

/-- A method of instances has its instance for `this`. -/
theorem check_eq_ok {h : Hierarchy} {m : Method} {body : Body} (hbody : m.body = some body)
    (hinstance : m.isStatic = false) : m.check h = .ok () ↔
      (∀ s ∈ body.block,
        (Scope.ofInstance h body.vars.length m.params m.result).checkStmt s = .ok ()) ∧
        (m.result.isVoid = true ∨ blockEnds body.block = true) := by
  have hscope : m.scope h body = .ofInstance h body.vars.length m.params m.result := by
    rw [scope, Scope.ofInstance, hinstance]
  rw [check_iff hbody, hscope]

theorem check_of_body {h : Hierarchy} {m : Method} {body : Body} (hbody : m.body = some body)
    (hinstance : m.isStatic = false)
    (hblock : ∀ s ∈ body.block,
      (Scope.ofInstance h body.vars.length m.params m.result).checkStmt s = .ok ())
    (hends : m.result.isVoid = true ∨ blockEnds body.block = true) : m.check h = .ok () :=
  (check_eq_ok hbody hinstance).2 ⟨hblock, hends⟩

/-- A method with the flags of a public one belongs to instances. -/
theorem isStatic_of_public {m : Method} (hm : m.access = Modifiers.publicBit) :
    m.isStatic = false := by
  rw [isStatic, hm]
  decide

/-- A public method without variables. -/
theorem check_ofBlock {h : Hierarchy} {name : String} {params : List Ty} {result : Ty}
    {block : Block}
    (hblock : ∀ s ∈ block, (Scope.ofInstance h 0 params result).checkStmt s = .ok ())
    (hends : result.isVoid = true ∨ blockEnds block = true) :
    (Method.ofBody name params result (.ofBlock block)).check h = .ok () :=
  check_of_body rfl (isStatic_of_public rfl) hblock hends

theorem check_constructorOf (h : Hierarchy) (ancestor : String) :
    (constructorOf ancestor).check h = .ok () := by
  refine check_of_body rfl (isStatic_of_public rfl) ?_ (.inl rfl)
  have hvoid : Ty.void.isVoid = true := by decide
  simp [constructorOf, Body.ofBlock, hvoid]

end Method

/-- A blueprint is accepted if all its methods are. -/
theorem Blueprint.check_eq_ok {h : Hierarchy} {b : Blueprint} :
    b.check h = .ok () ↔ ∀ m ∈ b.methods, m.check h = .ok () := by
  rw [check]
  induction b.methods with
  | nil => simp [List.forM, pure, Except.pure]
  | cons m rest ih =>
    rw [List.forM, Except.bind_unit_eq_ok, ih, List.forall_mem_cons]
    cases m.check h <;> simp [Except.mapError]

end ComponentViews
