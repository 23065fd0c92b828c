import ComponentViews.Proofs.Kinds.HomeImplementation
import ComponentViews.Proofs.Room.Dispatch
import ComponentViews.Proofs.Synthesis.HomeImplementation

/-!
# Room for the methods of factory implementations

The methods of a factory implementation find room for their operands and variables, unless the
operations of the homes declare too many failures (`HomeContext.hasRoom_blueprint`).
-/

namespace ComponentViews.HomeContext

open CodeContext (widths demandOfHandlers_catches)

variable {named checked few : Prop} {c : HomeContext} {m : HomeMethod}

/-! ### Weights -/

@[simp] theorem weight_inherited (name : String) (isLocal : Bool) (params : List Ty) (result : Ty)
    (args : List Expr) :
    (inherited name isLocal params result args).weight = Expr.weightOfAll args + 4 := by
  simp only [inherited, Expr.weight_invoke, Expr.weight]
  omega

@[simp] theorem weight_beanIn (context : Nat) : (c.beanIn context).weight = 4 := by
  simp [beanIn]

@[simp] theorem weight_failureToCreate (cause : Expr) :
    (failureToCreate cause).weight = cause.weight + 2 := by
  simp [failureToCreate]

@[simp] theorem weight_activate (key : Expr) : (activate m key).weight = key.weight + 4 := by
  simp [activate]

theorem weight_beanCall_le (bean : Nat) (name : String) (result : Ty) :
    (c.beanCall m bean name result).weight ≤ 2 * m.op.params.length + 4 := by
  have := Expr.weightOfAll_forwardArgs m.op.params.length
  simp only [beanCall, Expr.weight_invoke, Expr.weight]
  omega

theorem weight_undeclaredFailure_le (cause : Expr) :
    (undeclaredFailure m cause).weight ≤ cause.weight + 4 := by
  rw [undeclaredFailure]
  split <;> simp

/-! ### Handlers -/

theorem isLight_rethrow {before : Block} (h : ∀ s ∈ before, s.IsLight 65535) :
    ∀ x ∈ c.rethrow m before, ∀ i, ∀ s ∈ x.body i, s.IsLight 65535 := by
  intro x hx i
  obtain ⟨failure, -, rfl⟩ := List.mem_map.1 hx
  exact List.forall_mem_append.2 ⟨h, by simp⟩

theorem demand_rethrow {before : Block} {code : CodeContext} {exits : List (Option Nat)}
    (h : ∀ s ∈ before, code.demand exits s = 0) : ∀ x ∈ c.rethrow m before, ∀ i,
      blockEnds (x.body i) = true ∧ code.demandOfBlock exits (x.body i) = 0 := by
  intro x hx i
  refine ⟨blockEnds_rethrow x hx i, CodeContext.demandOfBlock_eq_zero ?_⟩
  obtain ⟨failure, -, rfl⟩ := List.mem_map.1 hx
  exact List.forall_mem_append.2 ⟨h, by simp⟩

theorem widths_rethrow (hm : c.HasKinds named checked m) (before : Block) :
    widths (((c.rethrow m before).map (·.binding)).map (·.type)) =
      (c.applicationFailures m).length := by
  rw [CodeContext.widths_of_isReference]
  · simp [rethrow]
  · simp only [rethrow, List.map_map, List.forall_mem_map]
    exact hm.failures

theorem isVoid_rethrow (hm : c.HasKinds named checked m) (before : Block) :
    ∀ v ∈ (c.rethrow m before).map (·.binding), v.type.isVoid = false := by
  simp only [rethrow, List.map_map, List.forall_mem_map]
  exact fun ty hty => Ty.isVoid_of_isReference (hm.failures ty hty)

/-! ### Bodies -/

variable (hm : c.HasKinds named checked m)
  (hfew : few → (c.applicationFailures m).length ≤ 32767 ∧ m.op.params.length ≤ 254)

include hm hfew

theorem isRoomy_createStateless : (c.createStateless m).IsRoomy few := by
  have hlight : ∀ x ∈ c.rethrow m [] ++ [.all "failure" fun e =>
      [.throw (failureToCreate (.var e))]], ∀ i, ∀ s ∈ x.body i, s.IsLight 65535 :=
    List.forall_mem_append.2 ⟨isLight_rethrow (List.forall_mem_nil _), by simp [Catch.all]⟩
  refine ⟨?_, fun _ => ?_, fun hsmall code => ?_⟩
  · simp only [createStateless, List.map_append, List.forall_mem_append]
    exact ⟨isVoid_rethrow hm [], by decide⟩
  · simp only [createStateless, List.forall_mem_singleton, Stmt.IsLight, isLightBlock_iff,
      isLightHandlers_iff, IsLightExit]
    exact ⟨by simp, isLight_handlers hlight, trivial⟩
  · have hdemand : ∀ x ∈ c.rethrow m [] ++ [.all "failure" fun e =>
        [.throw (failureToCreate (.var e))]], ∀ i, blockEnds (x.body i) = true ∧
          code.demandOfBlock [none] (x.body i) = 0 :=
      List.forall_mem_append.2 ⟨demand_rethrow (List.forall_mem_nil _), by
        simp only [List.forall_mem_singleton, Catch.all]
        exact fun i => ⟨rfl, by simp⟩⟩
    have hwidths := widths_rethrow hm []
    have hfailures := (hfew hsmall).1
    have hlast := CodeContext.widths_le [Ty.named Known.throwable]
    simp only [createStateless, List.map_append, CodeContext.widths_append, hwidths,
      CodeContext.demandOfBlock, CodeContext.demand, CodeContext.demandOfExit,
      demandOfHandlers_catches hdemand, CodeContext.demandOfInFlight]
    simp [Catch.all] at hlast ⊢
    omega

omit hfew in
theorem isVoid_createVariables (hop : HomeOperation.ofName m.op.name = .create) :
    ∀ v ∈ (c.create m).vars, v.type.isVoid = false := by
  have hresult := Ty.isVoid_of_isReference (hm.result (by simp [hop]))
  have hnamed : ∀ name ∈ Known.handledClasses, (Ty.named name).isVoid = false := fun name h =>
    Ty.isVoid_of_isReference (Ty.isReference_named h)
  simp only [create, List.map_append, List.forall_mem_append]
  refine ⟨⟨?_, ?_⟩, isVoid_rethrow hm _, ?_⟩
  · simp only [List.forall_mem_cons]
    exact ⟨hresult, hnamed _ (by simp), Ty.isVoid_of_isReference hm.bean, by decide, by decide,
      List.forall_mem_nil _⟩
  · -- Only an entity has a variable for its key.
    split
    · rename_i hentity
      simpa using Ty.isVoid_of_isReference (hm.key (.inr hentity))
    · exact List.forall_mem_nil _
  · simp only [List.map_cons, List.map_nil, List.forall_mem_singleton, Catch.all]
    exact hnamed _ (by simp)

omit hm hfew in
theorem isLight_create (hlength : m.op.params.length ≤ 254) :
    ∀ s ∈ (c.create m).block, s.IsLight 65535 := by
  have hcall : ∀ bean name result, (c.beanCall m bean name result).weight ≤ 65535 :=
    fun bean name result => Nat.le_trans (weight_beanCall_le bean name result) (by omega)
  have hfailure : ∀ i, (undeclaredFailure m (.var i)).weight ≤ 65535 := fun i =>
    Nat.le_trans (weight_undeclaredFailure_le _) (by simp)
  simp only [create, List.forall_mem_cons, Stmt.IsLight, isLightBlock_iff, isLightHandlers_iff,
    IsLightExit, List.forall_mem_append]
  refine ⟨by simp, by simp, by simp, by simp, ⟨⟨by simp [beginCreation], ?_⟩,
    isLight_handlers (List.forall_mem_append.2 ⟨isLight_rethrow (by simp),
      by simp [Catch.all, hfailure]⟩), by simp [endCreation]⟩, by simp, List.forall_mem_nil _⟩
  split
  · simp [constructEntity, hcall]
  · simp [constructSession, hcall]

theorem demand_create_le (hsmall : few) (code : CodeContext) :
    widths ((c.create m).vars.map (·.type)) + code.demandOfBlock [] (c.create m).block ≤ 65280 := by
  have hdemand : ∀ exits, ∀ x ∈ c.rethrow m [.assign hasFailed (.bool true)] ++
      [.all "failure" fun e => [.assign hasFailed (.bool true),
        .throw (undeclaredFailure m (.var e))]], ∀ i,
      blockEnds (x.body i) = true ∧ code.demandOfBlock exits (x.body i) = 0 := fun exits =>
    List.forall_mem_append.2 ⟨demand_rethrow (by simp), by
      simp only [List.forall_mem_singleton, Catch.all]
      exact fun i => ⟨rfl, by simp⟩⟩
  have hconstruct : ∀ exits, code.demandOfBlock exits (if c.isEntity then c.constructEntity m
      else c.constructSession m) = 0 := by
    intro exits
    split
    · simp [constructEntity]
    · simp [constructSession]
  -- What is caught and thrown on takes one variable for each failure, all else only a few.
  have hwidths := widths_rethrow hm [.assign hasFailed (.bool true)]
  have hfailures := (hfew hsmall).1
  have hlast := CodeContext.widths_le [Ty.named Known.throwable]
  have hkey : widths ((if c.isEntity then [⟨"pkey", c.keyType⟩] else []).map
      fun v : Variable => v.type) ≤ 2 := by
    refine Nat.le_trans (CodeContext.widths_le _) ?_
    split <;> simp
  have hfirst := CodeContext.widths_le [m.op.result, .named Known.beanContext,
    .named c.beanClass, .boolean, .boolean]
  simp only [create, List.map_append, CodeContext.widths_append, hwidths,
    CodeContext.demandOfBlock, CodeContext.demand, CodeContext.demandOfExit, beginCreation,
    demandOfHandlers_catches (hdemand _), CodeContext.demandOfInFlight, hconstruct,
    CodeContext.demandOfBlock_append, endCreation, List.map_cons, List.map_nil]
  simp [Catch.all] at hlast hfirst ⊢
  omega

theorem isRoomy_create (hop : HomeOperation.ofName m.op.name = .create) :
    (c.create m).IsRoomy few :=
  ⟨isVoid_createVariables hm hop, fun hsmall => isLight_create (hfew hsmall).2,
    demand_create_le hm hfew⟩

/-! ### Workers -/

omit hfew in
theorem isVoid_workerVariables (w : WorkerPool) :
    ∀ v ∈ c.workerVariables m w, v.type.isVoid = false := by
  simp only [workerVariables, List.forall_mem_append, List.forall_mem_cons]
  exact ⟨⟨by decide, Ty.isVoid_of_isReference hm.bean, List.forall_mem_nil _⟩,
    isVoid_rethrow hm _⟩

theorem widths_workerVariables_le (hsmall : few) (w : WorkerPool) :
    widths ((c.workerVariables m w).map (·.type)) ≤ 32771 := by
  have hfailures := (hfew hsmall).1
  have hfirst := CodeContext.widths_le [Ty.named Known.entityBeanContext, .named c.beanClass]
  have hrest := widths_rethrow hm [.eval (w.releaseExpr 0), .assign 0 .null]
  simp only [workerVariables, workerCatches, List.map_append, CodeContext.widths_append, hrest,
    List.map_cons, List.map_nil]
  simp at hfirst ⊢
  omega

omit hm hfew in
theorem isLight_useWorker (hlength : m.op.params.length ≤ 254) (w : WorkerPool) (first : Nat)
    (name : String) (keepIn : Option Nat) (result : Ty) :
    ∀ s ∈ c.useWorker m w first name keepIn result, s.IsLight 65535 := by
  have hcall : ∀ bean, (c.beanCall m bean name result).weight ≤ 65535 :=
    fun bean => Nat.le_trans (weight_beanCall_le bean name result) (by omega)
  have hkeep : ∀ bean, (Stmt.keep keepIn (c.beanCall m bean name result)).IsLight 65535 := by
    intro bean
    cases keepIn <;> simp [Stmt.keep, hcall]
  simp only [useWorker, List.forall_mem_cons, Stmt.IsLight, isLightBlock_iff, isLightHandlers_iff,
    IsLightExit]
  refine ⟨by simp, ⟨?_, isLight_handlers (isLight_rethrow (by simp [WorkerPool.releaseExpr])),
    by simp [WorkerPool.discardExpr]⟩, List.forall_mem_nil _⟩
  simp [hkeep, WorkerPool.acquireExpr, WorkerPool.releaseExpr]

omit hm hfew in
theorem demand_useWorker_le (code : CodeContext) (w : WorkerPool) (first : Nat) (name : String)
    (keepIn : Option Nat) (result : Ty) :
    code.demandOfBlock [] (c.useWorker m w first name keepIn result) ≤ 1 := by
  have hkeep : ∀ exits bean, code.demand exits
      (Stmt.keep keepIn (c.beanCall m bean name result)) = 0 := by
    intro exits bean
    cases keepIn <;> simp [Stmt.keep]
  have hhandlers : ∀ handler copy, code.demandOfHandlers [some 0] copy (Catch.handlers handler
      (c.rethrow m [.eval (w.releaseExpr first), .assign first .null])) = 0 :=
    fun _ _ => demandOfHandlers_catches (demand_rethrow (by simp))
  simp [useWorker, CodeContext.demand, hkeep, workerCatches, hhandlers]

theorem isRoomy_findByPrimaryKey (hop : HomeOperation.ofName m.op.name = .findByPrimaryKey) :
    (c.findByPrimaryKey m).IsRoomy few := by
  have hresult := Ty.isVoid_of_isReference (hm.result (by simp [hop]))
  have hkey := Ty.isVoid_of_isReference (hm.key (.inl (by simp [hop])))
  refine ⟨?_, fun hsmall => ?_, fun hsmall code => ?_⟩
  · simp only [findByPrimaryKey, List.forall_mem_append, List.forall_mem_cons]
    exact ⟨⟨hresult, hkey, List.forall_mem_nil _⟩, isVoid_workerVariables hm _⟩
  · have hlength := (hfew hsmall).2
    have hargs := Expr.weightOfAll_forwardArgs (min m.op.params.length 1)
    have huse := isLight_useWorker (c := c) (hfew hsmall).2 .findByPrimaryKey 2
      (HomeOperation.entityMethod m.op.name) (some 1) c.keyType
    simp only [findByPrimaryKey, List.forall_mem_cons, Stmt.IsLight, isLightBlock_iff,
      List.forall_mem_append, Cond.IsLight]
    refine ⟨?_, ⟨by simp, ⟨huse, by simp⟩, List.forall_mem_nil _⟩, by simp, List.forall_mem_nil _⟩
    simp
    omega
  · have hwidths := widths_workerVariables_le hm hfew hsmall .findByPrimaryKey
    have hfirst := CodeContext.widths_le [m.op.result, c.keyType]
    have huse := demand_useWorker_le (c := c) (m := m) code .findByPrimaryKey 2
      (HomeOperation.entityMethod m.op.name) (some 1) c.keyType
    simp only [findByPrimaryKey, List.map_append, CodeContext.widths_append, List.map_cons,
      List.map_nil]
    simp at hfirst ⊢
    omega

theorem isRoomy_find (hop : HomeOperation.ofName m.op.name = .find) :
    (c.find m).IsRoomy few := by
  have hresult := hm.result (by simp [hop])
  -- What is found is a key or a collection of keys.
  have hfound : (c.foundType m).isVoid = false := by
    rcases foundType_cases (c := c) (m := m) with h | h
    · rw [h, Ty.isVoid_of_isReference (hm.key (.inl (by simp [hop])))]
    · rw [h, Ty.isVoid_of_isReference hresult]
  refine ⟨?_, fun hsmall => ?_, fun hsmall code => ?_⟩
  · simp only [find, List.forall_mem_cons]
    exact ⟨hfound, isVoid_workerVariables hm _⟩
  · have huse := isLight_useWorker (c := c) (hfew hsmall).2 .finder 1
      (HomeOperation.entityMethod m.op.name) (some 0) (c.foundType m)
    have hviews : (c.foundViews m (.var 0)).weight ≤ 65535 := by
      simp only [foundViews]
      split
      · simp
      split <;> simp
    simp only [find, List.forall_mem_append, List.forall_mem_cons, List.cons_append]
    exact ⟨by simp, huse, by simp [hviews], List.forall_mem_nil _⟩
  · have hwidths := widths_workerVariables_le hm hfew hsmall .finder
    have hfirst := CodeContext.widths_le [c.foundType m]
    have huse := demand_useWorker_le (c := c) (m := m) code .finder 1
      (HomeOperation.entityMethod m.op.name) (some 0) (c.foundType m)
    have hvars : widths ((c.find m).vars.map (·.type)) =
        widths [c.foundType m] + widths ((c.workerVariables m .finder).map (·.type)) :=
      CodeContext.widths_append [_] _
    rw [hvars]
    simp [find] at hfirst ⊢
    omega

theorem isRoomy_business : (c.business m).IsRoomy few := by
  have hwidths := fun hsmall => widths_workerVariables_le hm hfew hsmall .business
  have hresult := CodeContext.widths_le [m.op.result]
  have huse := demand_useWorker_le (c := c) (m := m)
  -- A result takes a variable before those for the worker.
  cases hvoid : m.op.result.isVoid with
  | true =>
    simp only [business, hvoid, if_true]
    refine ⟨isVoid_workerVariables hm _, fun hsmall => ?_, fun hsmall code => ?_⟩
    · exact List.forall_mem_append.2 ⟨isLight_useWorker (hfew hsmall).2 _ _ _ _ _, by simp⟩
    · have hwidths := hwidths hsmall
      have := huse code .business 0 (HomeOperation.entityMethod m.op.name) none m.op.result
      simp
      omega
  | false =>
    simp only [business, hvoid, Bool.false_eq_true, if_false]
    refine ⟨List.forall_mem_cons.2 ⟨hvoid, isVoid_workerVariables hm _⟩, fun hsmall => ?_,
      fun hsmall code => ?_⟩
    · exact List.forall_mem_append.2
        ⟨List.forall_mem_cons.2 ⟨by simp, isLight_useWorker (hfew hsmall).2 _ _ _ _ _⟩, by simp⟩
    · have hwidths := hwidths hsmall
      have := huse code .business 1 (HomeOperation.entityMethod m.op.name) (some 0) m.op.result
      have hvars : widths ([m.op.result] ++ (c.workerVariables m .business).map (·.type)) =
          widths [m.op.result] + widths ((c.workerVariables m .business).map (·.type)) :=
        CodeContext.widths_append [_] _
      simp at hvars hresult ⊢
      omega

/-! ### The class -/

omit hfew in
/-- The method for an operation finds room unless the operation declares too many failures. -/
theorem hasRoom_method {unit : String} (hfew : few → (c.applicationFailures m).length ≤ 32767) :
    (c.method m).HasRoom few unit := by
  have hsmall : few ∧ slotsOf m.op.params ≤ 254 →
      (c.applicationFailures m).length ≤ 32767 ∧ m.op.params.length ≤ 254 :=
    fun h => ⟨hfew h.1, Nat.le_trans (length_le_slotsOf hm.params) h.2⟩
  have hroomy : (c.body m).IsRoomy (few ∧ slotsOf m.op.params ≤ 254) := by
    rw [body]
    cases hop : HomeOperation.ofName m.op.name with
    | create =>
      dsimp only
      split
      · exact isRoomy_createStateless hm hsmall
      · exact isRoomy_create hm hsmall hop
    | findByPrimaryKey => exact isRoomy_findByPrimaryKey hm hsmall hop
    | find => exact isRoomy_find hm hsmall hop
    | business => exact isRoomy_business hm hsmall
  exact Method.hasRoom_of_body rfl hroomy

omit hm hfew in
/-- The methods of a factory implementation find room unless an operation declares too many
    failures. -/
theorem hasRoom_blueprint (hmethods : ∀ m ∈ c.request.homeMethods.1,
    c.HasKinds named checked m ∧ (few → (c.applicationFailures m).length ≤ 32767)) :
    ∀ m ∈ c.blueprint.methods, m.HasRoom few c.request.factoryName := by
  simp only [blueprint, List.forall_mem_cons, List.forall_mem_map]
  exact ⟨Method.hasRoom_constructorOf _,
    fun m hm => hasRoom_method (hmethods m hm).1 (hmethods m hm).2⟩

end ComponentViews.HomeContext
