import ComponentViews.Proofs.Kinds.Skeleton
import ComponentViews.Proofs.Room.Dispatch
import ComponentViews.Proofs.Synthesis.Skeleton

/-!
# Room for the methods of stubs and skeletons

The methods of a stub find room for their operands and variables
(`Stub.hasRoom_blueprint`), and so do those of a skeleton, unless an operation has too many
arguments or declares too many failures (`Skeleton.hasRoom_blueprint`).
-/

namespace ComponentViews

open CodeContext (widths demandOfHandlers_catches demandOfBlock_eq_zero)

variable {named checked few : Prop} {h : Hierarchy} {unit : String}

namespace Marshalling

theorem weight_write_le (ty : Ty) (out value : Expr) :
    (write h ty out value).weight ≤ out.weight + value.weight + 4 := by
  cases hrule : MarshalRule.ofType h ty with
  | value =>
    simp [write, hrule]
    omega
  | _ => simp [write, hrule]

theorem weight_read_le (ty : Ty) (input : Expr) :
    (read h ty input).weight ≤ input.weight + 6 := by
  cases hrule : MarshalRule.ofType h ty <;> simp [read, hrule]

@[simp] theorem weight_ofSelf (name : String) (params : List Ty) (result : Ty) (args : List Expr) :
    (ofSelf name params result args).weight = Expr.weightOfAll args + 4 := by
  simp only [ofSelf, Expr.weight_invoke, Expr.weight]
  omega

@[simp] theorem weight_broker : broker.weight = 4 := by simp [broker]

@[simp] theorem weight_copyObject (value : Expr) :
    (copyObject value).weight = value.weight + 6 := by
  simp [copyObject]

@[simp] theorem weight_copyObjects (values : Expr) :
    (copyObjects values).weight = values.weight + 6 := by
  simp [copyObjects]

theorem hasRoom_idsMethod (ids : List String) : (idsMethod ids).HasRoom few unit := by
  refine Method.hasRoom_ofBlock (List.forall_mem_singleton.2 ?_) fun c => by simp
  have hitems : Expr.weightOfItems (ids.map Expr.string) ≤ 2 :=
    Expr.weightOfItems_le (List.forall_mem_map.2 fun id _ => by simp)
  rw [Stmt.IsLight, Expr.weight]
  omega

end Marshalling

open Marshalling

namespace Stub

variable {interface : String} {m : RemoteOperation}

section

variable (hlength : (op m).params.length ≤ 254)

include hlength

theorem isLight_retry : ∀ s ∈ retry unit m, s.IsLight 65535 := by
  have hargs := Expr.weightOfAll_forwardArgs (op m).params.length
  refine isLight_retCall ?_
  simp
  omega

theorem isLight_remotePath : ∀ s ∈ remotePath h unit m, s.IsLight 65535 := by
  have hread : ∀ ty, (read h ty (.var input)).weight ≤ 65535 := fun ty => by
    have := weight_read_le (h := h) ty (.var input)
    rw [Expr.weight] at this
    omega
  have hwrite : ∀ ty i, (Stmt.eval (write h ty (.var output) (.arg i))).IsLight 65535 := by
    intro ty i
    have := weight_write_le (h := h) ty (.var output) (.arg i)
    simp only [Expr.weight] at this
    rw [Stmt.IsLight]
    omega
  have hexchange : ∀ s ∈ exchange h m, s.IsLight 65535 := by
    simp only [exchange, List.cons_append, List.forall_mem_cons, List.forall_mem_append]
    refine ⟨by simp [wireExpr], List.forall_mem_map.2 fun x _ => hwrite x.1 x.2, by simp, ?_,
      List.forall_mem_nil _⟩
    split <;> simp [hread]
  have hfailure : ∀ s ∈ readFailure h m, s.IsLight 65535 := by
    simp only [readFailure, List.forall_mem_append, List.forall_mem_map]
    exact ⟨⟨by simp, fun failure _ => by simp [throwDeclared, hread]⟩, by simp⟩
  simp only [remotePath, List.forall_mem_cons, Stmt.IsLight, isLightBlock_iff,
    isLightHandlers_iff, IsLightExit]
  exact ⟨⟨⟨by simp, ⟨hexchange, ⟨hfailure, isLight_retry hlength, List.forall_mem_nil _⟩,
    by simp, List.forall_mem_nil _⟩, List.forall_mem_nil _⟩,
    ⟨⟨by simp, List.forall_mem_nil _⟩, List.forall_mem_nil _⟩, trivial⟩, List.forall_mem_nil _⟩

theorem isLight_callServant : ∀ s ∈ callServant h interface m, s.IsLight 65535 := by
  have hpassed : ∀ x : Ty × Nat, (passedArg h m x.1 x.2).weight ≤ 8 := fun x => by
    rw [passedArg]
    split
    · simp
    · split <;> simp
  have hargs := Expr.weightOfAll_map_le (l := (op m).params.zipIdx) fun x _ => hpassed x
  rw [List.length_zipIdx] at hargs
  have hcall : (servantCall h interface m).weight ≤ 65500 := by
    simp only [servantCall, Expr.weight_invoke, Expr.weight, Expr.weight_fieldOf]
    omega
  have hitems : Expr.weightOfItems ((copiedArgs h m).map .arg) ≤ 2 :=
    Expr.weightOfItems_le (List.forall_mem_map.2 fun i _ => by simp)
  have hcopy : ∀ s ∈ copyArgs h m, s.IsLight 65535 := by
    rw [copyArgs]
    split
    · simp [Expr.objectArray]
      omega
    · exact List.forall_mem_nil _
  simp only [callServant, List.forall_mem_append]
  refine ⟨hcopy, isLight_retCall ?_⟩
  split
  · rw [Expr.weight_fromObject, weight_copyObject]
    exact Nat.le_trans (Nat.add_le_add_right hcall 6) (by decide)
  · exact Nat.le_trans hcall (by decide)

theorem isLight_localPath : ∀ s ∈ localPath h unit interface m, s.IsLight 65535 := by
  have hpass : ∀ s ∈ passFailure h m, s.IsLight 65535 := by
    simp only [passFailure, List.cons_append, List.forall_mem_cons, List.forall_mem_append,
      List.forall_mem_map]
    exact ⟨by simp, fun failure _ => by simp, by simp⟩
  simp only [localPath, List.forall_mem_cons, Stmt.IsLight, isLightBlock_iff, isLightHandlers_iff,
    IsLightExit]
  exact ⟨by simp [wireExpr], ⟨by simp, isLight_retry hlength, List.forall_mem_nil _⟩,
    ⟨isLight_callServant hlength, ⟨hpass, List.forall_mem_nil _⟩, by simp⟩, List.forall_mem_nil _⟩

end

variable (c : CodeContext)

theorem demand_remotePath_le : c.demandOfBlock [] (remotePath h unit m) ≤ 5 := by
  have hwrite : ∀ exits, c.demandOfBlock exits ((op m).params.zipIdx.map fun x =>
      Stmt.eval (write h x.1 (.var output) (.arg x.2))) = 0 := fun exits =>
    demandOfBlock_eq_zero (List.forall_mem_map.2 fun _ _ => by simp)
  have hexchange : c.demandOfBlock [some 0, none] (exchange h m) ≤ 2 := by
    have hret : ∀ e, c.demand [some 0, none] (.ret e) ≤ 2 := CodeContext.demand_ret_le
    have hret := hret (if (op m).result.isVoid then none else
      some (read h (op m).result (.var input)))
    simpa [exchange, hwrite] using hret
  have hfailure : c.demandOfBlock [some 0, none] (readFailure h m) = 0 := by
    refine demandOfBlock_eq_zero ?_
    simp only [readFailure, List.forall_mem_append, List.forall_mem_map]
    exact ⟨⟨by simp, fun failure _ => by simp [throwDeclared]⟩, by simp⟩
  -- The result waits while the exit block runs.
  have hretry : c.demandOfBlock [some 0, none] (retry unit m) ≤ 2 := by
    have := c.demandOfBlock_retCall_le [some 0, none] (op m).result
      (.invoke .virtual .this unit (op m).name (op m).params (op m).result
        (Expr.forwardArgs (op m).params.length))
    rwa [CodeContext.demandOfCopies] at this
  simp [remotePath, CodeContext.demand, CodeContext.demandOfHandlers, hfailure]
  omega

theorem demand_localPath_le : c.demandOfBlock [] (localPath h unit interface m) ≤ 3 := by
  have hretry : c.demandOfBlock [] (retry unit m) = 0 := by
    rw [retry, Stmt.retCall]
    split <;> simp
  have hcall : c.demandOfBlock [some 0] (callServant h interface m) ≤ 2 := by
    have hcopy : c.demandOfBlock [some 0] (copyArgs h m) = 0 := by
      rw [copyArgs]
      split <;> simp
    have := c.demandOfBlock_retCall_le [some 0] (op m).result
      (if !(op m).result.isVoid && h.needsCopy (op m).result then
        Expr.fromObject (op m).result (copyObject (servantCall h interface m))
      else servantCall h interface m)
    rw [callServant, CodeContext.demandOfBlock_append, hcopy, Nat.zero_add]
    rwa [CodeContext.demandOfCopies] at this
  have hpass : c.demandOfBlock [some 0] (passFailure h m) = 0 := by
    refine demandOfBlock_eq_zero ?_
    simp only [passFailure, List.cons_append, List.forall_mem_cons, List.forall_mem_append,
      List.forall_mem_map]
    exact ⟨by simp, fun failure _ => by simp, by simp⟩
  simp [localPath, CodeContext.demand, CodeContext.demandOfHandlers, hretry, hpass]
  omega

theorem length_vars_le : (Stub.vars h m).length ≤ 10 := by
  rw [Stub.vars]
  split <;> simp

theorem isVoid_vars : ∀ v ∈ Stub.vars h m, v.type.isVoid = false := by
  simp only [Stub.vars, List.forall_mem_append]
  refine ⟨⟨by decide, ?_⟩, by decide⟩
  split
  · simp only [List.forall_mem_singleton]
    decide
  · exact List.forall_mem_nil _

/-- The method for an operation whose parameters have values finds room. -/
theorem hasRoom_method (hm : m.exposed.HasKinds named checked) :
    (method h unit interface m).HasRoom few unit := by
  refine Method.hasRoom_of_body rfl ⟨isVoid_vars, fun hsmall => ?_, fun _ c => ?_⟩
  · have hlength := Nat.le_trans (length_le_slotsOf hm.params) hsmall.2
    simp only [List.forall_mem_singleton, Stmt.IsLight, isLightBlock_iff]
    exact ⟨by simp, isLight_remotePath hlength, isLight_localPath hlength⟩
  · have hvars := CodeContext.widths_le ((Stub.vars h m).map (·.type))
    have hcount : (Stub.vars h m).length ≤ 10 := length_vars_le
    have hremote : c.demandOfBlock [] (remotePath h unit m) ≤ 5 := demand_remotePath_le c
    have hlocal : c.demandOfBlock [] (localPath h unit interface m) ≤ 3 := demand_localPath_le c
    rw [List.length_map] at hvars
    simp only [CodeContext.demandOfBlock, CodeContext.demand_cond]
    omega

/-- The methods of a stub find room. -/
theorem hasRoom_blueprint {i : Interface} {methods : List RemoteOperation}
    (hmethods : ∀ m ∈ methods, m.exposed.HasKinds named checked) :
    ∀ m ∈ (blueprint h i methods).methods, m.HasRoom few (stubName i.name) := by
  simp only [blueprint, List.forall_mem_cons, List.forall_mem_map]
  exact ⟨Method.hasRoom_constructorOf _, hasRoom_idsMethod _,
    fun m hm => hasRoom_method (hmethods m hm)⟩

end Stub

namespace Skeleton

variable {target : String}

@[simp] theorem weight_targetExpr : (targetExpr unit target).weight = 2 := by simp [targetExpr]

@[simp] theorem weight_replyExpr (kind : String) : (replyExpr kind).weight = 4 := by
  simp [replyExpr]

theorem hasRoom_tieMembers : ∀ m ∈ tieMembers unit target, m.HasRoom few unit := by
  simp only [tieMembers, List.forall_mem_cons]
  refine ⟨?_, ?_, ?_, ?_, ?_, ?_, List.forall_mem_nil _⟩ <;>
    exact Method.hasRoom_ofBlock (by simp) fun c => by simp

theorem hasRoom_invokeMethod (routes : Table String) :
    (invokeMethod unit routes).HasRoom few unit := by
  refine Method.hasRoom_of_body rfl ⟨?_, fun _ => ?_, fun _ c => ?_⟩
  · simp only [List.forall_mem_cons]
    exact ⟨by decide, by decide, by decide, List.forall_mem_nil _⟩
  · have hcases : ∀ x ∈ (buckets routes).map fun b => (b.1, b.2.map (tryRoute unit)),
        ∀ s ∈ x.2, s.IsLight 65535 :=
      List.forall_mem_map.2 fun b _ => List.forall_mem_map.2 fun route _ => by simp [tryRoute]
    simp only [List.forall_mem_cons, Stmt.IsLight, isLightBlock_iff, isLightHandlers_iff,
      isLightCases_iff, IsLightExit]
    exact ⟨by simp, ⟨⟨⟨by simp, hcases, List.forall_mem_nil _⟩, by simp, List.forall_mem_nil _⟩,
      ⟨by simp, by simp, List.forall_mem_nil _⟩, trivial⟩, List.forall_mem_nil _⟩
  · have hcases : c.demandOfCases [none] ((buckets routes).map fun b =>
        (b.1, b.2.map (tryRoute unit))) = 0 :=
      CodeContext.demandOfCases_eq_zero (List.forall_mem_map.2 fun b _ =>
        List.forall_mem_map.2 fun route _ => by simp [tryRoute])
    have hvars := CodeContext.widths_le
      [Ty.named Known.inputStream, .named Known.systemException, .named Known.throwable]
    simp [CodeContext.demand, CodeContext.demandOfHandlers, hcases] at hvars ⊢
    omega

/-! ### Handlers -/

variable {m : Served}

theorem isLight_answer (hlength : m.operation.exposed.op.params.length ≤ 254) :
    ∀ s ∈ answer h unit target m, s.IsLight 65535 := by
  have hread : ∀ ty, (read h ty (.arg 0)).weight ≤ 8 := fun ty => by
    have := weight_read_le (h := h) ty (.arg 0)
    rwa [Expr.weight] at this
  have hargs := Expr.weightOfAll_map_le (l := m.operation.exposed.op.params) fun ty _ => hread ty
  have hcall : (targetCall h unit target m).weight ≤ 65535 := by
    simp only [targetCall, Expr.weight_invoke, Expr.weight, weight_targetExpr]
    omega
  have hwrite := weight_write_le (h := h) m.operation.exposed.op.result (.var output) (.var result)
  simp only [Expr.weight] at hwrite
  simp only [answer, List.forall_mem_append]
  refine ⟨?_, by simp⟩
  split
  · simp only [List.forall_mem_cons]
    exact ⟨hcall, by simp, List.forall_mem_nil _⟩
  · simp only [List.forall_mem_cons]
    exact ⟨hcall, by simp, Nat.le_trans hwrite (by decide), List.forall_mem_nil _⟩

theorem isLight_catches : ∀ x ∈ catches h m, ∀ i, ∀ s ∈ x.body i, s.IsLight 65535 := by
  refine List.forall_mem_map.2 fun failure _ i => ?_
  have hwrite := weight_write_le (h := h) failure (.var output) (.var i)
  simp only [Expr.weight] at hwrite
  simp [answerFailure, Catch.ofFailure]
  omega

theorem demand_answer (c : CodeContext) {exits : List (Option Nat)}
    (hexits : ∀ e, c.demand exits (.ret e) = 0) :
    c.demandOfBlock exits (answer h unit target m) = 0 := by
  rw [answer]
  split <;> simp [hexits]

theorem demand_catches (c : CodeContext) : ∀ x ∈ catches h m, ∀ i,
    blockEnds (x.body i) = true ∧ c.demandOfBlock [none] (x.body i) = 0 :=
  List.forall_mem_map.2 fun failure _ i =>
    ⟨by simp [answerFailure, Catch.ofFailure, blockEnds, Stmt.ends],
      by simp [answerFailure, Catch.ofFailure]⟩

/-- A handler finds room unless its operation has too many parameters or declares too many
    failures. -/
theorem hasRoom_handler (hm : m.operation.exposed.HasKinds named checked)
    (hfew : few → slotsOf m.operation.exposed.op.params ≤ 254 ∧
      m.operation.exposed.failures.application.length ≤ 32767) :
    (handler h unit target m).HasRoom few unit := by
  refine Method.hasRoom_of_body body_handler ⟨?_, fun hsmall => ?_, fun hsmall c => ?_⟩
  · simp only [handlerVars, List.cons_append, List.forall_mem_cons, List.forall_mem_append,
      catches, List.map_map, List.forall_mem_map]
    refine ⟨by decide, ?_, fun failure hfailure =>
      Ty.isVoid_of_isReference (hm.failures failure hfailure)⟩
    split
    · exact List.forall_mem_nil _
    · rename_i hresult
      simpa using hresult
  · have hlength := Nat.le_trans (length_le_slotsOf hm.params) (hfew hsmall.1).1
    show ∀ s ∈ handlerBlock h unit target m, s.IsLight 65535
    rw [handlerBlock]
    split
    · exact isLight_answer hlength
    · rw [List.forall_mem_singleton, Stmt.IsLight, isLightBlock_iff, isLightHandlers_iff]
      exact ⟨isLight_answer hlength, isLight_handlers isLight_catches, trivial⟩
  · -- What it takes is one variable for each declared failure and four more.
    have hblock : c.demandOfBlock [] (handlerBlock h unit target m) = 0 := by
      rw [handlerBlock]
      split
      · exact demand_answer c CodeContext.demand_ret_nil
      · simp [CodeContext.demand, demand_answer c CodeContext.demand_ret_none,
          demandOfHandlers_catches (demand_catches c)]
    have hvars : widths ((handlerVars m).map (·.type)) ≤ 4 := by
      refine Nat.le_trans (CodeContext.widths_le _) ?_
      simp only [handlerVars, List.map_cons, List.length_cons, List.length_map]
      split <;> simp
    have hcatches : widths (((catches h m).map (·.binding)).map (·.type)) =
        m.operation.exposed.failures.application.length := by
      rw [CodeContext.widths_of_isReference]
      · simp [catches]
      · simp only [catches, List.map_map, List.forall_mem_map]
        exact hm.failures
    have hfailures := (hfew hsmall.1).2
    simp only [List.map_append, CodeContext.widths_append, hcatches, hblock]
    omega

/-- The methods of a skeleton find room unless an operation has too many parameters or declares
    too many failures. -/
theorem hasRoom_blueprint {methods : List Served} (hmethods : ∀ m ∈ methods,
    m.operation.exposed.HasKinds named checked ∧
      (few → slotsOf m.operation.exposed.op.params ≤ 254 ∧
        m.operation.exposed.failures.application.length ≤ 32767)) :
    ∀ m ∈ (blueprint h unit target methods).methods, m.HasRoom few unit := by
  simp only [blueprint, List.cons_append, List.forall_mem_cons, List.forall_mem_append,
    List.forall_mem_map]
  refine ⟨Method.hasRoom_constructorOf _, ⟨hasRoom_tieMembers, hasRoom_idsMethod _,
    hasRoom_invokeMethod _, List.forall_mem_nil _⟩, fun m hm => ?_⟩
  rcases mem_foldl_addServed hm with hm | hm
  · exact absurd hm List.not_mem_nil
  · exact hasRoom_handler (hmethods m hm).1 (hmethods m hm).2

end Skeleton

end ComponentViews
