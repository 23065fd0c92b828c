import ComponentViews.Proofs.Synthesis.Dispatch
import ComponentViews.Synthesis.HomeImplementation

/-!
# Factory implementations are accepted

The methods of a factory implementation are accepted where the operations of the homes are
what the rules ask for: creating operations and finders have a result, and
`findByPrimaryKey` has a key to look for. `HomeContext.Fits` says so of one operation.
-/

namespace ComponentViews

namespace HomeContext

variable (c : HomeContext) (m : HomeMethod)

/-- The operation is one that the factory implementation has a body for. -/
structure Fits : Prop where
  handled : (c.hierarchy.classify c.policy m.op.throws true).Handled c.hierarchy
  /-- Only the home's own business may come without a result. -/
  result : HomeOperation.ofName m.op.name ≠ .business → m.op.result.isVoid = false
  key : HomeOperation.ofName m.op.name = .findByPrimaryKey → 0 < m.op.params.length

/-- The scope of the method for an operation, with the given number of variables. -/
abbrev scopeOf (vars : Nat) : Scope := .ofInstance c.hierarchy vars m.op.params m.op.result

section

variable {c m} {vars : Nat}

@[simp] theorem checkExpr_inherited {name : String} {isLocal : Bool} {params : List Ty}
    {result : Ty} {args : List Expr} :
    (c.scopeOf m vars).checkExpr (inherited name isLocal params result args) = .ok () ↔
      params.length = args.length ∧ ∀ e ∈ args, (c.scopeOf m vars).checkExpr e = .ok () := by
  simp [inherited]

@[simp] theorem checkExpr_beanCall {bean : Nat} {name : String} {result : Ty} :
    (c.scopeOf m vars).checkExpr (c.beanCall m bean name result) = .ok () ↔ bean < vars := by
  simp only [beanCall, Scope.checkExpr_invoke, Scope.length_forwardArgs, true_and,
    Scope.checkExpr_var, Scope.vars_ofInstance, and_iff_left_iff_imp]
  exact fun _ => Scope.checkExpr_forwardArgs

@[simp] theorem checkExpr_beanIn {context : Nat} :
    (c.scopeOf m vars).checkExpr (c.beanIn context) = .ok () ↔ context < vars := by
  simp [beanIn, Hook.beanInstance]

@[simp] theorem checkExpr_failureToCreate {cause : Expr} :
    (c.scopeOf m vars).checkExpr (failureToCreate cause) = .ok () ↔
      (c.scopeOf m vars).checkExpr cause = .ok () := by
  simp [failureToCreate]

@[simp] theorem checkExpr_undeclaredFailure {cause : Expr} :
    (c.scopeOf m vars).checkExpr (undeclaredFailure m cause) = .ok () ↔
      (c.scopeOf m vars).checkExpr cause = .ok () := by
  rw [undeclaredFailure]
  split <;> simp

@[simp] theorem checkExpr_activate {key : Expr} :
    (c.scopeOf m vars).checkExpr (activate m key) = .ok () ↔
      (c.scopeOf m vars).checkExpr key = .ok () := by
  simp [activate]

/-! ### Handlers that pass failures on -/

theorem caught_rethrow (before : Block) :
    (c.rethrow m before).map (·.caught) = ((c.applicationFailures m).map (·.name)).map some := by
  simp [rethrow, Catch.ofFailure]

@[simp] theorem length_rethrow (before : Block) :
    (c.rethrow m before).length = (c.applicationFailures m).length := by
  simp [rethrow]

/-- The handlers that pass the declared failures on can be reached, and so can one for every
    failure behind them. -/
theorem catchesReachable_rethrow (hm : c.Fits m) (before : Block) {last : List Catch}
    (hlast : last = [] ∨ ∃ name body, last = [Catch.all name body]) :
    Scope.CatchesReachable c.hierarchy [] ((c.rethrow m before ++ last).map (·.caught)) := by
  rw [List.map_append, caught_rethrow]
  refine Scope.catchesReachable_of_handlersReachable ?_
    (List.forall_mem_map.2 hm.handled.named) hm.handled.reachable_application
  rcases hlast with rfl | ⟨name, body, rfl⟩
  · exact .inl rfl
  · exact .inr rfl

theorem checkBlock_rethrow {before : Block}
    (hbefore : ∀ s ∈ before, (c.scopeOf m vars).checkStmt s = .ok ()) :
    ∀ x ∈ c.rethrow m before, ∀ i < vars, ∀ s ∈ x.body i,
      (c.scopeOf m vars).checkStmt s = .ok () := by
  intro x hx i hi
  obtain ⟨failure, -, rfl⟩ := List.mem_map.1 hx
  simp only [Catch.ofFailure, List.forall_mem_append]
  exact ⟨hbefore, by simpa using hi⟩

theorem blockEnds_rethrow {before : Block} :
    ∀ x ∈ c.rethrow m before, ∀ i, blockEnds (x.body i) = true := by
  intro x hx i
  obtain ⟨failure, -, rfl⟩ := List.mem_map.1 hx
  simp [Catch.ofFailure, Stmt.ends]

end

/-! ### Creating -/

theorem checkBlock_createStateless (hm : c.Fits m) (hvoid : m.op.result.isVoid = false) :
    ∀ s ∈ (c.createStateless m).block,
      (c.scopeOf m (c.createStateless m).vars.length).checkStmt s = .ok () := by
  simp only [createStateless, List.length_map, List.forall_mem_cons, Scope.checkStmt_region]
  refine ⟨⟨.inl ?_, ?_, ?_, by simp⟩, by simp⟩
  · cases c.rethrow m [] <;> simp [Catch.handlers]
  · simp [hvoid]
  · refine Scope.checkHandlers_catches _ (by simp) ?_
      (catchesReachable_rethrow hm [] (.inr ⟨_, _, rfl⟩))
    simp only [List.forall_mem_append]
    refine ⟨checkBlock_rethrow (by simp), ?_⟩
    simp [Catch.all]

theorem blockEnds_createStateless : blockEnds (c.createStateless m).block = true := by
  have hends : handlersEnd (Catch.handlers 0 (c.rethrow m [] ++
      [.all "failure" fun e => [.throw (failureToCreate (.var e))]])) = true := by
    refine handlersEnd_catches ?_
    simp only [List.forall_mem_append]
    exact ⟨blockEnds_rethrow, by simp [Catch.all, blockEnds, Stmt.ends]⟩
  simp [createStateless, blockEnds, Stmt.ends, exitEnds, hends]

section

variable {c m} {vars : Nat}

theorem checkBlock_beginCreation (hvars : 5 ≤ vars) :
    ∀ s ∈ c.beginCreation, (c.scopeOf m vars).checkStmt s = .ok () := by
  simp only [beginCreation, createdContext, createdBean, isAnnounced]
  simp
  omega

theorem checkBlock_constructSession (hvars : 5 ≤ vars) :
    ∀ s ∈ c.constructSession m, (c.scopeOf m vars).checkStmt s = .ok () := by
  simp only [constructSession, created, createdContext, createdBean]
  simp
  omega

theorem checkBlock_constructEntity (hvars : 6 ≤ vars) :
    ∀ s ∈ c.constructEntity m, (c.scopeOf m vars).checkStmt s = .ok () := by
  simp only [constructEntity, created, createdContext, createdBean, createdKey]
  simp
  omega

theorem checkBlock_endCreation (hvars : 5 ≤ vars) :
    ∀ s ∈ endCreation, (c.scopeOf m vars).checkStmt s = .ok () := by
  simp only [endCreation, hasFailed, isAnnounced, createdContext]
  simp
  omega

end

theorem checkBlock_create (hm : c.Fits m) (hvoid : m.op.result.isVoid = false) :
    ∀ s ∈ (c.create m).block,
      (c.scopeOf m (c.create m).vars.length).checkStmt s = .ok () := by
  -- There are six variables before those of handlers for an entity, and else five.
  have hconstruct : ∀ vars, (if c.isEntity then 6 else 5) ≤ vars →
      ∀ s ∈ c.beginCreation ++ (if c.isEntity then c.constructEntity m else c.constructSession m),
        (c.scopeOf m vars).checkStmt s = .ok () := by
    intro vars hvars
    rw [List.forall_mem_append]
    refine ⟨checkBlock_beginCreation (by split at hvars <;> omega), ?_⟩
    split
    · rename_i he
      exact checkBlock_constructEntity (by simpa [he] using hvars)
    · rename_i he
      exact checkBlock_constructSession (by simpa [he] using hvars)
  simp only [create, List.forall_mem_cons]
  generalize hfirst : ([⟨"rv", m.op.result⟩, ⟨"beanO", .named Known.beanContext⟩,
    ⟨"bean", .named c.beanClass⟩, ⟨"exceptionOccurred", .boolean⟩,
    ⟨"preEjbCreateCalled", .boolean⟩] ++
    (if c.isEntity then [⟨"pkey", c.keyType⟩] else []) : List Variable) = first
  have hlen : (if c.isEntity then 6 else 5) = first.length := by
    rw [← hfirst]
    cases c.isEntity <;> simp
  have hfive : 5 ≤ first.length := by
    rw [← hlen]
    split <;> omega
  simp only [List.length_append, List.length_map, List.length_singleton, length_rethrow]
  generalize hvars : first.length + ((c.applicationFailures m).length + 1) = vars
  have hcreated : created < vars := by simp only [created]; omega
  have hcontext : createdContext < vars := by simp only [createdContext]; omega
  have hflag : hasFailed < vars := by simp only [hasFailed]; omega
  have hannounced : isAnnounced < vars := by simp only [isAnnounced]; omega
  refine ⟨by simpa using hcreated, by simpa using hcontext, by simpa using hflag,
    by simpa using hannounced, ?_, by simpa [hvoid] using hcreated, by simp⟩
  rw [Scope.checkStmt_region]
  refine ⟨.inr (by simp), hconstruct _ (by rw [hlen]; omega), ?_, ?_⟩
  · refine Scope.checkHandlers_catches _ (by simp [hvars]) ?_
      (catchesReachable_rethrow hm _ (.inr ⟨_, _, rfl⟩))
    simp only [List.forall_mem_append]
    refine ⟨checkBlock_rethrow (by simpa using hflag), ?_⟩
    simp only [Catch.all, List.forall_mem_singleton]
    exact fun i hi => by simpa using And.intro hflag hi
  · rw [Scope.checkExit_some]
    exact ⟨by simp, checkBlock_endCreation (by omega)⟩

/-! ### Workers -/

section

variable {c m} {vars : Nat}

theorem checkBlock_useWorker (hm : c.Fits m) (w : WorkerPool) {first : Nat} (name : String)
    (keepIn : Option Nat) (result : Ty)
    (hroom : first + 2 + (c.applicationFailures m).length ≤ vars)
    (hkeep : ∀ i ∈ keepIn, i < vars) :
    ∀ s ∈ c.useWorker m w first name keepIn result, (c.scopeOf m vars).checkStmt s = .ok () := by
  have hworker : first < vars := by omega
  have hbean : first + 1 < vars := by omega
  have hrelease : (c.scopeOf m vars).checkExpr (w.releaseExpr first) = .ok () := by
    simpa [WorkerPool.releaseExpr] using hworker
  have hdiscard : (c.scopeOf m vars).checkExpr (w.discardExpr first) = .ok () := by
    simpa [WorkerPool.discardExpr] using hworker
  have hacquire : (c.scopeOf m vars).checkExpr w.acquireExpr = .ok () := by
    simp [WorkerPool.acquireExpr]
  have hcall : (c.scopeOf m vars).checkStmt
      (.keep keepIn (c.beanCall m (first + 1) name result)) = .ok () := by
    cases keepIn with
    | none => simpa [Stmt.keep] using hbean
    | some i => simpa [Stmt.keep] using And.intro (hkeep i rfl) hbean
  simp only [useWorker, List.forall_mem_cons]
  refine ⟨by simpa using hworker, ?_, by simp⟩
  rw [Scope.checkStmt_region]
  refine ⟨.inr (by simp), ?_, ?_, ?_⟩
  · simp [hacquire, hcall, hrelease, hworker, hbean]
  · -- The handlers come behind the variables for the worker and its bean.
    refine Scope.checkHandlers_catches _ (by simpa [workerCatches] using hroom)
      (checkBlock_rethrow ?_) ?_
    · simp [hrelease, hworker]
    · simpa [workerCatches] using catchesReachable_rethrow hm
        [.eval (w.releaseExpr first), .assign first .null] (.inl rfl)
  · simp [hdiscard, hworker]

@[simp] theorem length_workerVariables (w : WorkerPool) :
    (c.workerVariables m w).length = 2 + (c.applicationFailures m).length := by
  simp [workerVariables, workerCatches]
  omega

end

theorem checkBlock_findByPrimaryKey (hm : c.Fits m) (hvoid : m.op.result.isVoid = false)
    (hkey : 0 < m.op.params.length) :
    ∀ s ∈ (c.findByPrimaryKey m).block,
      (c.scopeOf m (c.findByPrimaryKey m).vars.length).checkStmt s = .ok () := by
  have hone : min m.op.params.length 1 = 1 := by omega
  have hargs : ∀ e ∈ Expr.forwardArgs 1,
      (c.scopeOf m (c.findByPrimaryKey m).vars.length).checkExpr e = .ok () :=
    Scope.checkExpr_of_mem_forwardArgs _ hkey
  have hvars : (c.findByPrimaryKey m).vars.length = 2 + 2 + (c.applicationFailures m).length := by
    simp [findByPrimaryKey]
    omega
  rw [hvars] at hargs ⊢
  have hworker := checkBlock_useWorker hm .findByPrimaryKey
    (HomeOperation.entityMethod m.op.name) (some 1) c.keyType
    (le_refl (2 + 2 + (c.applicationFailures m).length)) (by simp; omega)
  simp only [findByPrimaryKey, hone, List.forall_mem_cons, Scope.checkStmt_cond,
    List.forall_mem_append]
  refine ⟨?_, ⟨?_, ⟨hworker, ?_⟩, by simp⟩, ?_, by simp⟩
  · simp only [Scope.checkStmt_assign, Scope.checkExpr_cast, checkExpr_inherited,
      Scope.length_forwardArgs, List.length_singleton, true_and, Scope.vars_ofInstance]
    exact ⟨by omega, hargs⟩
  · simp
  · simp
    omega
  · simp [hvoid]

theorem checkBlock_find (hm : c.Fits m) (hvoid : m.op.result.isVoid = false) :
    ∀ s ∈ (c.find m).block, (c.scopeOf m (c.find m).vars.length).checkStmt s = .ok () := by
  have hvars : (c.find m).vars.length = 1 + 2 + (c.applicationFailures m).length := by
    simp [find]
    omega
  have hworker := checkBlock_useWorker hm .finder (HomeOperation.entityMethod m.op.name) (some 0)
    (c.foundType m) (le_refl (1 + 2 + (c.applicationFailures m).length)) (by simp)
  have hviews : (c.scopeOf m (c.find m).vars.length).checkExpr (c.foundViews m (.var 0)) =
      .ok () := by
    simp only [foundViews]
    split
    · simp [find]
    split <;> simp [find]
  rw [hvars] at hviews ⊢
  simp only [find, List.cons_append, List.forall_mem_cons, List.forall_mem_append]
  exact ⟨by simp, hworker, by simp [hvoid, hviews], by simp⟩

theorem checkBlock_business (hm : c.Fits m) :
    ∀ s ∈ (c.business m).block,
      (c.scopeOf m (c.business m).vars.length).checkStmt s = .ok () := by
  cases hvoid : m.op.result.isVoid
  · have hvars : (c.business m).vars.length = 1 + 2 + (c.applicationFailures m).length := by
      simp [business, hvoid]
      omega
    have hworker := checkBlock_useWorker hm .business (HomeOperation.entityMethod m.op.name)
      (some 0) m.op.result (le_refl (1 + 2 + (c.applicationFailures m).length))
      (by simp)
    rw [hvars]
    simp only [business, hvoid, List.forall_mem_append]
    exact ⟨⟨by simp, hworker⟩, by simp [hvoid]⟩
  · have hvars : (c.business m).vars.length = 0 + 2 + (c.applicationFailures m).length := by
      simp [business, hvoid]
    have hworker := checkBlock_useWorker hm .business (HomeOperation.entityMethod m.op.name)
      none m.op.result (le_refl (0 + 2 + (c.applicationFailures m).length)) (by simp)
    rw [hvars]
    simp only [business, hvoid, List.forall_mem_append]
    exact ⟨⟨by simp, hworker⟩, by simp [hvoid]⟩

/-! ### The class -/

theorem checkBlock_body (hm : c.Fits m) :
    ∀ s ∈ (c.body m).block, (c.scopeOf m (c.body m).vars.length).checkStmt s = .ok () := by
  have hresult := hm.result
  have hkey := hm.key
  cases hop : HomeOperation.ofName m.op.name with
  | create =>
    simp only [body, hop]
    have hvoid := hresult (by simp [hop])
    split
    · exact c.checkBlock_createStateless m hm hvoid
    · exact c.checkBlock_create m hm hvoid
  | findByPrimaryKey =>
    simp only [body, hop]
    exact c.checkBlock_findByPrimaryKey m hm (hresult (by simp [hop])) (hkey hop)
  | find =>
    simp only [body, hop]
    exact c.checkBlock_find m hm (hresult (by simp [hop]))
  | business =>
    simp only [body, hop]
    exact c.checkBlock_business m hm

theorem blockEnds_body : blockEnds (c.body m).block = true := by
  cases hop : HomeOperation.ofName m.op.name with
  | create =>
    simp only [body, hop]
    split
    · exact c.blockEnds_createStateless m
    · simp [create, blockEnds, Stmt.ends]
  | findByPrimaryKey => simp [body, hop, findByPrimaryKey, blockEnds, Stmt.ends]
  | find =>
    simp only [body, hop, find]
    exact blockEnds_append (by simp [blockEnds, Stmt.ends])
  | business =>
    simp only [body, hop, business]
    exact blockEnds_append (by simp [blockEnds, Stmt.ends])

/-- The method for an operation that the rules let through is accepted. -/
theorem check_method (hm : c.Fits m) : (c.method m).check c.hierarchy = .ok () :=
  Method.check_of_body rfl (Method.isStatic_of_public rfl) (c.checkBlock_body m hm)
    (.inr (c.blockEnds_body m))

/-- The factory implementation is accepted if there is a body for each operation. -/
theorem check_blueprint (hfits : ∀ m ∈ c.request.homeMethods.1, c.Fits m) :
    c.blueprint.check c.hierarchy = .ok () := by
  refine Blueprint.check_eq_ok.2 ?_
  simp only [blueprint, List.forall_mem_cons, List.forall_mem_map]
  exact ⟨Method.check_constructorOf _ _, fun m hm => c.check_method m (hfits m hm)⟩

variable {c m} in
/-- Conversely, an accepted factory implementation has a key to look for: with none, the beans in
    use are asked for nothing. -/
theorem length_params_of_check (hcheck : c.blueprint.check c.hierarchy = .ok ())
    (hm : m ∈ c.request.homeMethods.1)
    (hop : HomeOperation.ofName m.op.name = .findByPrimaryKey) : 0 < m.op.params.length := by
  have hmethod : (c.method m).check c.hierarchy = .ok () :=
    Blueprint.check_eq_ok.1 hcheck _ (List.mem_cons_of_mem _ (List.mem_map_of_mem hm))
  have hblock := ((Method.check_eq_ok rfl (Method.isStatic_of_public rfl)).1 hmethod).1
  simp only [body, hop, findByPrimaryKey, List.forall_mem_cons] at hblock
  have harity := hblock.1
  simp only [method, Scope.checkStmt_assign, Scope.checkExpr_cast, checkExpr_inherited,
    Scope.length_forwardArgs, List.length_singleton] at harity
  omega

end HomeContext

end ComponentViews
