import ComponentViews.Proofs.Blueprint
import ComponentViews.Synthesis.Dispatch

/-!
# Dispatch methods are accepted

The body of a dispatch method passes the structural check whatever the kind of view, the
policy and the signature, as long as the failures it handles can be told apart in the order
of their handlers.
-/

namespace ComponentViews

/-- The failures of a method have handlers that can be reached, one behind the other. -/
structure Failures.Handled (h : Hierarchy) (f : Failures) : Prop where
  reachable : h.HandlersReachable (f.handlerTypes.map (·.name))
  named : ∀ ty ∈ f.application, ty.name ≠ ""

/-- A failure that a handler can be for is a class with a name. -/
def Ty.IsFailure (ty : Ty) : Prop := ty.isArray = false ∧ ty.name ≠ ""

theorem Hierarchy.classify_handled {h : Hierarchy} (hk : h.KeepsStandard) {declared : List Ty}
    (hanti : h.AntisymmOn declared) (hdeclared : ∀ ty ∈ declared, ty.IsFailure)
    (policy : FailurePolicy) (remoteStyle : Bool) :
    (h.classify policy declared remoteStyle).Handled h where
  reachable := handlerTypes_reachable hk hanti fun ty hty => (hdeclared ty hty).1
  named ty hty :=
    (hdeclared ty ((checked_application policy declared remoteStyle).declared ty hty)).2

namespace Failures.Handled

variable {h : Hierarchy} {f : Failures}

theorem named_handlerTypes (hf : f.Handled h) : ∀ c ∈ f.handlerTypes.map (·.name), c ≠ "" := by
  have hsystem : Known.runtimeException ≠ "" := by decide
  have hremote : Known.remoteException ≠ "" := by decide
  simp only [handlerTypes, List.map_append, List.forall_mem_append, List.forall_mem_map]
  refine ⟨⟨?_, ?_⟩, hf.named⟩ <;> split <;> simp [Ty.named, *]

/-- The application's failures by themselves can be handled in their order too. -/
theorem reachable_application (hf : f.Handled h) :
    h.HandlersReachable (f.application.map (·.name)) := by
  have := hf.reachable
  rw [Failures.handlerTypes, List.map_append] at this
  exact (List.pairwise_append.1 this).2.1

end Failures.Handled

/-! ### The container's hooks -/

namespace Scope

variable (scope : Scope)

@[simp] theorem checkExpr_hook {hook : Hook} {receiver : Expr} {args : List Expr} :
    scope.checkExpr (hook.invoke receiver args) = .ok () ↔
      hook.params.length = args.length ∧ scope.checkExpr receiver = .ok () ∧
        ∀ e ∈ args, scope.checkExpr e = .ok () := by
  simp [Hook.invoke]

@[simp] theorem checkExpr_hookInherited {hook : Hook} {args : List Expr} :
    scope.checkExpr (hook.invokeInherited args) = .ok () ↔
      hook.params.length = args.length ∧ scope.isStatic = false ∧
        ∀ e ∈ args, scope.checkExpr e = .ok () := by
  simp [Hook.invokeInherited]

@[simp] theorem checkExpr_baseExpr {kind : ViewKind} {unit : String} :
    scope.checkExpr (kind.baseExpr unit) = .ok () ↔ scope.isStatic = false := by
  rw [ViewKind.baseExpr]
  split <;> simp

@[simp] theorem checkExpr_containerExpr {kind : ViewKind} {unit : String} :
    scope.checkExpr (kind.containerExpr unit) = .ok () ↔ scope.isStatic = false := by
  simp [ViewKind.containerExpr]

@[simp] theorem checkExpr_supportExpr {kind : ViewKind} {unit : String} :
    scope.checkExpr (kind.supportExpr unit) = .ok () ↔ scope.isStatic = false := by
  simp [ViewKind.supportExpr]

end Scope

namespace DispatchSite

variable (site : DispatchSite) {m : ExposedOperation} {h : Hierarchy}

/-- The scope of the dispatch method for an operation, with the given number of variables. -/
abbrev scopeOf (h : Hierarchy) (m : ExposedOperation) (vars : Nat) : Scope :=
  .ofInstance h vars m.op.params m.op.result

section

variable {vars : Nat}

@[simp] theorem checkExpr_base : (scopeOf h m vars).checkExpr site.base = .ok () := by
  simp [base]

@[simp] theorem checkExpr_container : (scopeOf h m vars).checkExpr site.container = .ok () := by
  simp [container]

@[simp] theorem checkExpr_idExpr : (scopeOf h m vars).checkExpr (idExpr m) = .ok () := by
  simp [idExpr]

@[simp] theorem checkExpr_directCall {bean : Expr} :
    (scopeOf h m vars).checkExpr (site.directCall m bean) = .ok () ↔
      (scopeOf h m vars).checkExpr bean = .ok () := by
  simp only [directCall, Scope.checkExpr_invoke, Scope.length_forwardArgs, true_and,
    and_iff_left_iff_imp]
  exact fun _ => Scope.checkExpr_forwardArgs

@[simp] theorem checkExpr_boxedArgs :
    (scopeOf h m vars).checkExpr (Expr.boxedArgs m.op.params) = .ok () :=
  Scope.checkExpr_boxedArgs _ le_rfl

@[simp] theorem checkExpr_wrapFailure {failure : Expr} :
    (scopeOf h m vars).checkExpr (wrapFailure m failure) = .ok () ↔
      (scopeOf h m vars).checkExpr failure = .ok () := by
  rw [wrapFailure]
  split <;> simp

end

/-! ### Standard methods -/

/-- There is a place for every variable of a standard method before those of handlers. -/
theorem length_vars : (site.vars m).length = (places m).handlers := by
  cases hr : hasResult m <;> simp [vars, places, hr]

/-- The scope of a standard method. -/
abbrev standardScope (h : Hierarchy) (m : ExposedOperation) : Scope :=
  scopeOf h m ((places m).handlers + (catches m).length)

/-- The places of a standard method are those of variables, and that of the result too if
    there is one. -/
structure PlacesBelow (m : ExposedOperation) (vars : Nat) : Prop where
  support : (places m).support < vars
  failed : (places m).failed < vars
  args : (places m).args < vars
  bean : (places m).bean < vars
  inFlight : (places m).inFlight < vars
  postFailure : (places m).postFailure < vars
  result : ∀ rv ∈ (places m).result, rv < vars

theorem placesBelow : PlacesBelow m ((places m).handlers + (catches m).length) := by
  cases hr : hasResult m <;> constructor <;> simp [places, hr] <;> omega

theorem checkBlock_prologue :
    ∀ s ∈ site.prologue m, (standardScope h m).checkStmt s = .ok () := by
  have hp := placesBelow (m := m)
  simp only [prologue, List.forall_mem_append, List.forall_mem_map]
  refine ⟨⟨?_, ?_⟩, ?_⟩
  · simpa using hp.result
  · split
    · simpa [Hook.checkState] using hp.support
    · simpa using hp.support
  · simpa using hp.failed

theorem checkBlock_collectArgs :
    ∀ s ∈ site.collectArgs m, (standardScope h m).checkStmt s = .ok () := by
  have hp := placesBelow (m := m)
  simp only [collectArgs, List.forall_mem_cons]
  refine ⟨by simpa using hp.args, ?_⟩
  split
  · simpa using hp.args
  split
  · simp
  · simpa [Hook.needsArguments] using hp.args

theorem checkExpr_announce : (standardScope h m).checkExpr (site.announce m) = .ok () := by
  have hp := placesBelow (m := m)
  simp only [announce]
  split
  · simpa [Hook.endpointPreInvoke] using hp.args
  · split <;>
      simpa [Hook.preInvoke, Hook.preInvokeStatelessCreate, Hook.callParams] using
        And.intro hp.support hp.args

theorem checkExpr_conclude : (standardScope h m).checkExpr (site.conclude m) = .ok () := by
  have hp := placesBelow (m := m)
  simp only [conclude]
  split
  · simp [Hook.endpointPostInvoke]
  · split <;>
      simpa [Hook.postInvoke, Hook.postInvokeStatelessCreate, Hook.callParams] using hp.support

theorem checkExpr_chain : (standardScope h m).checkExpr (site.chain m) = .ok () := by
  simpa [chain, Hook.invokeChain] using placesBelow.support

theorem checkStmt_performCall :
    (standardScope h m).checkStmt (site.performCall m) = .ok () := by
  have hp := placesBelow (m := m)
  have hchain := site.checkExpr_chain (h := h) (m := m)
  simp only [performCall]
  split
  · split
    · rename_i rv hrv
      simpa [hchain] using hp.result rv hrv
    · simpa using hchain
  · simp only [Stmt.keep]
    split
    · rename_i rv hrv
      simpa using And.intro (hp.result rv hrv) hp.bean
    · simpa using hp.bean

theorem checkBlock_guarded :
    ∀ s ∈ site.guarded m, (standardScope h m).checkStmt s = .ok () := by
  have hp := placesBelow (m := m)
  simp only [guarded, List.forall_mem_append, List.forall_mem_cons]
  refine ⟨site.checkBlock_collectArgs, ?_, site.checkStmt_performCall, by simp⟩
  simpa [site.checkExpr_announce] using hp.bean

theorem checkStmt_record {failure : Nat}
    (hf : failure < (places m).handlers + (catches m).length) :
    (standardScope h m).checkStmt (record m failure) = .ok () := by
  have hp := placesBelow (m := m)
  rw [record, Hook.setUnchecked]
  split <;>
    simpa [Hook.setUncheckedRemote, Hook.setUncheckedLocal] using And.intro hp.support hf

theorem checkBlock_recordAndThrow {failure : Nat} {e : Expr}
    (hf : failure < (places m).handlers + (catches m).length)
    (he : (standardScope h m).checkExpr e = .ok ()) :
    ∀ s ∈ recordAndThrow m failure e, (standardScope h m).checkStmt s = .ok () := by
  simp only [recordAndThrow, List.forall_mem_cons]
  exact ⟨by simpa using placesBelow.failed, checkStmt_record hf, by simpa using he, by simp⟩

theorem checkBlock_epilogue :
    ∀ s ∈ site.epilogue m, (standardScope h m).checkStmt s = .ok () := by
  have hp := placesBelow (m := m)
  have hrecord := checkStmt_record (h := h) hp.postFailure
  have hconclude := site.checkExpr_conclude (h := h) (m := m)
  simp [epilogue, Scope.checkHandlers_eq_ok, Scope.CatchesReachable, hrecord, hconclude,
    Hook.failureCleanup, hp.inFlight, hp.postFailure, hp.failed, hp.support]

/-- The classes that the handlers of a standard method catch, and then everything. -/
theorem caught_catches :
    (catches m).map (·.caught) = (m.failures.handlerTypes.map (·.name)).map some ++ [none] := by
  simp only [catches, Failures.handlerTypes, List.map_append, List.map_map]
  congr 1
  congr 1
  · congr 1 <;> split <;> simp [Catch.ofClass, Ty.named]

theorem checkBlock_catches :
    ∀ c ∈ catches m, ∀ i < (places m).handlers + (catches m).length, ∀ s ∈ c.body i,
      (standardScope h m).checkStmt s = .ok () := by
  have hp := placesBelow (m := m)
  intro c hc i hi
  simp only [catches, List.mem_append, List.mem_map, List.mem_singleton] at hc
  rcases hc with ((hc | hc) | ⟨failure, -, rfl⟩) | rfl
  · split at hc
    · obtain rfl := List.mem_singleton.1 hc
      exact checkBlock_recordAndThrow hi (by simpa using hi)
    · exact absurd hc List.not_mem_nil
  · split at hc
    · obtain rfl := List.mem_singleton.1 hc
      refine checkBlock_recordAndThrow hi ?_
      split <;> simpa using hi
    · exact absurd hc List.not_mem_nil
  · simpa [Catch.ofFailure, Hook.setChecked] using And.intro hp.support hi
  · exact checkBlock_recordAndThrow hi (by simpa using hi)

theorem checkBlock_standardBody (hm : m.failures.Handled h) :
    ∀ s ∈ (site.standardBody m).block, (standardScope h m).checkStmt s = .ok () := by
  have hp := placesBelow (m := m)
  have hhandlers : (standardScope h m).checkHandlers []
      (Catch.handlers (places m).handlers (catches m)) = .ok () := by
    refine Scope.checkHandlers_catches _ le_rfl checkBlock_catches ?_
    rw [caught_catches]
    exact Scope.catchesReachable_of_handlersReachable (.inr rfl) hm.named_handlerTypes
      hm.reachable
  have hret : (standardScope h m).checkStmt (.ret ((places m).result.map .var)) = .ok () := by
    cases hvoid : m.op.result.isVoid
    · simp only [places, hasResult, hvoid, Bool.not_false, if_true, Option.map_some,
        Scope.checkStmt_ret_some, Scope.isVoid_ofInstance, true_and, Scope.checkExpr_var,
        Scope.vars_ofInstance]
      omega
    · simp [places, hasResult, hvoid]
  simp only [standardBody, List.forall_mem_append, List.forall_mem_cons]
  refine ⟨site.checkBlock_prologue, ?_, hret, by simp⟩
  simp only [Scope.checkStmt_region]
  refine ⟨.inr (by simp), site.checkBlock_guarded, hhandlers, ?_⟩
  rw [Scope.checkExit_some]
  exact ⟨by simpa using hp.inFlight, site.checkBlock_epilogue⟩

theorem length_standardBody :
    (site.standardBody m).vars.length = (places m).handlers + (catches m).length := by
  simp [standardBody, length_vars]

/-! ### Other methods -/

theorem checkBlock_asyncBody :
    ∀ s ∈ (site.asyncBody m).block,
      (scopeOf h m (site.asyncBody m).vars.length).checkStmt s = .ok () := by
  simp only [asyncBody, Body.ofBlock]
  split
  · rename_i hvoid
    simpa [Hook.scheduleAsync] using hvoid
  · rename_i hvoid
    split <;> simpa [Hook.scheduleAsync] using hvoid

theorem checkBlock_managedBody :
    ∀ s ∈ (site.managedBody m).block,
      (scopeOf h m (site.managedBody m).vars.length).checkStmt s = .ok () := by
  rw [managedBody]
  split
  · simp only [List.forall_mem_append]
    refine ⟨?_, ?_⟩
    · simp [Hook.preInvokeManaged, Hook.callParams, managedContext]
    · split
      · rename_i hvoid
        simpa [Hook.invokeChain] using hvoid
      · rename_i hvoid
        simpa [Hook.invokeChain] using hvoid
  · simp only [Body.ofBlock]
    rw [Scope.checkBlock_retCall _ rfl]
    simp [Hook.beanInstance, managedContext]

/-! ### The method -/

theorem blockEnds_body :
    blockEnds (if m.policy.asynchronous then site.asyncBody m
      else if site.kind = .managed then site.managedBody m
      else site.standardBody m).block = true := by
  split
  · simp only [asyncBody, Body.ofBlock]
    split
    · simp [blockEnds, Stmt.ends]
    · split <;> simp [blockEnds, Stmt.ends]
  split
  · rw [managedBody]
    split
    · refine blockEnds_append ?_
      split <;> simp [blockEnds, Stmt.ends]
    · simp [Body.ofBlock]
  · exact blockEnds_append (by simp [blockEnds, Stmt.ends])

/-- Every dispatch method is accepted. -/
theorem check_method (hm : m.failures.Handled h) : (site.method m).check h = .ok () := by
  refine Method.check_of_body rfl (Method.isStatic_of_public rfl) ?_ (.inr site.blockEnds_body)
  show ∀ s ∈ _, (scopeOf h m _).checkStmt s = .ok ()
  split
  · exact site.checkBlock_asyncBody
  split
  · exact site.checkBlock_managedBody
  · rw [length_standardBody]
    exact site.checkBlock_standardBody hm

end DispatchSite

end ComponentViews
