import ComponentViews.Proofs.Code.Kinded
import ComponentViews.Synthesis.Dispatch

/-!
# Operands of dispatch methods

The body of a dispatch method is kinded whatever the kind of view and the policy, as long as the
parameters have values and what is called a class is one: the failures that are declared, the
bean class and the class that has the method.
-/

namespace ComponentViews

variable {named checked : Prop} {c : CodeContext}

/-- The kinds of values that generated code expects of an operation. -/
structure ExposedOperation.HasKinds (named checked : Prop) (m : ExposedOperation) : Prop where
  params : ∀ ty ∈ m.op.params, ty.isVoid = false
  failures : ∀ ty ∈ m.failures.application, ty.isReference = true
  call : ∀ kind, FitsCall named checked kind m.op.params m.op.result
  /-- What is called asynchronously has no result, or one that is still to come. -/
  scheduled : m.policy.asynchronous = true →
    m.op.result.isVoid = true ∨ m.op.result.isNamed Known.future = true

namespace DispatchSite

variable {site : DispatchSite} {m : ExposedOperation} {vars : List Variable} {params : List Ty}
  {result : Ty}

/-! ### What all methods are made of -/

@[simp] theorem kindOf?_container : c.kindOf? site.container = some .reference := by
  simp [container, ViewKind.containerExpr]

@[simp] theorem kindOf?_supportExpr :
    c.kindOf? (site.kind.supportExpr site.unit) = some .reference := by
  simp [ViewKind.supportExpr]

@[simp] theorem kindOf?_idExpr : c.kindOf? (idExpr m) = some .int := by
  simp [idExpr]

@[simp] theorem kinded_idExpr : c.Kinded named checked (idExpr m) := by
  simp [idExpr]

@[simp] theorem kindOf?_directCall {bean : Expr} :
    c.kindOf? (site.directCall m bean) = m.op.result.slotKind? := by
  simp [directCall]

@[simp] theorem kindOf?_wrapFailure {failure : Expr} :
    c.kindOf? (wrapFailure m failure) = some .reference := by
  rw [wrapFailure]
  split <;> simp

@[simp] theorem kindOf?_announce : c.kindOf? (site.announce m) = some .reference := by
  simp only [announce]
  split
  · simp [Hook.endpointPreInvoke]
  · split <;> simp [Hook.preInvoke, Hook.preInvokeStatelessCreate]

@[simp] theorem kindOf?_chain : c.kindOf? (site.chain m) = some .reference := by
  simp [chain, Hook.invokeChain]

@[simp] theorem kindOf?_managedContext : c.kindOf? site.managedContext = some .reference := by
  simp [managedContext]

theorem kindOf?_base (hc : c.Sees vars params result) :
    c.kindOf? site.base = some .reference := by
  rw [base, ViewKind.baseExpr]
  cases site.kind <;> simp [ViewKind.baseAccess, hc.kindOf?_this]

theorem kinded_directCall (hc : c.Sees vars m.op.params result) (hm : m.HasKinds named checked)
    {bean : Expr} (hbean : c.Kinded named checked bean) (hkind : c.kindOf? bean = some .reference) :
    c.Kinded named checked (site.directCall m bean) := by
  simp [directCall, hbean, hkind, hc.map_forwardArgs, hm.call]

variable [Known.AreFit named checked]

theorem kinded_base (hc : c.Sees vars params result) : c.Kinded named checked site.base := by
  rw [base, ViewKind.baseExpr]
  cases site.kind <;> simp [ViewKind.baseAccess, hc.kinded_this, hc.kindOf?_this]

theorem kinded_container (hc : c.Sees vars params result) :
    c.Kinded named checked site.container :=
  (CodeContext.kinded_fieldOf (by simp)).2 ⟨kinded_base hc, kindOf?_base hc⟩

theorem kinded_supportExpr (hc : c.Sees vars params result) :
    c.Kinded named checked (site.kind.supportExpr site.unit) :=
  (CodeContext.kinded_fieldOf (by simp)).2 ⟨kinded_base hc, kindOf?_base hc⟩

theorem kinded_wrapFailure {failure : Expr} (hfailure : c.Kinded named checked failure)
    (hkind : c.kindOf? failure = some .reference) :
    c.Kinded named checked (wrapFailure m failure) := by
  rw [wrapFailure]
  split <;> simp [hfailure, hkind]

/-! ### Standard methods -/

/-- The kinds of the variables of a standard method. -/
structure PlaceKinds (c : CodeContext) (m : ExposedOperation) : Prop where
  support : c.kindOf? (.var (places m).support) = some .reference
  failed : c.kindOf? (.var (places m).failed) = some .int
  args : c.kindOf? (.var (places m).args) = some .reference
  bean : c.kindOf? (.var (places m).bean) = some .reference
  inFlight : c.kindOf? (.var (places m).inFlight) = some .reference
  postFailure : c.kindOf? (.var (places m).postFailure) = some .reference
  result : ∀ rv ∈ (places m).result, c.kindOf? (.var rv) = m.op.result.slotKind?
  handlers : ∀ k x, (catches m)[k]? = some x →
    c.kindOf? (.var ((places m).handlers + k)) = x.binding.type.slotKind?

/-- The variables of a standard method besides that of the result. -/
def laterVars (site : DispatchSite) (m : ExposedOperation) : List Variable :=
  [⟨"s", .named Known.deployedSupport⟩, ⟨"failed", .boolean⟩, ⟨"args", Hook.objects⟩,
    ⟨"bean", .named site.beanClass⟩, ⟨"inFlight", .named Known.throwable⟩,
    ⟨"postFailure", .named Known.throwable⟩] ++ (catches m).map (·.binding)

theorem getElem?_vars (k : Nat) :
    (site.standardBody m).vars[(places m).support + k]? = (site.laterVars m)[k]? := by
  cases hr : hasResult m <;>
    simp [standardBody, DispatchSite.vars, laterVars, places, hr, Nat.add_comm 1]

theorem placeKinds (hbean : (Ty.named site.beanClass).isReference = true)
    (hc : c.Sees (site.standardBody m).vars m.op.params m.op.result) : PlaceKinds c m := by
  have hvar : ∀ k v, (site.laterVars m)[k]? = some v →
      c.kindOf? (.var ((places m).support + k)) = v.type.slotKind? :=
    fun k v hv => hc.kindOf?_var ((getElem?_vars k).trans hv)
  refine ⟨(hvar 0 _ rfl).trans (by simp), (hvar 1 _ rfl).trans (by simp),
    (hvar 2 _ rfl).trans (by simp), (hvar 3 _ rfl).trans (Ty.slotKind?_of_isReference hbean),
    (hvar 4 _ rfl).trans (by simp), (hvar 5 _ rfl).trans (by simp), fun rv hrv => ?_,
    fun k x hx => ?_⟩
  · cases hr : hasResult m
    · simp [places, hr] at hrv
    · obtain rfl : 0 = rv := by simpa [places, hr] using hrv
      exact hc.kindOf?_var (v := ⟨"rv", m.op.result⟩)
        (by simp [standardBody, DispatchSite.vars, hr])
  · have hk := hvar (6 + k) x.binding (by simp [laterVars, Nat.add_comm 6, hx])
    rwa [← Nat.add_assoc] at hk

/-- Where there is a variable for the result, there is a result. -/
theorem isVoid_of_mem_places {rv : Nat} (hrv : rv ∈ (places m).result) :
    m.op.result.isVoid = false := by
  cases hvoid : m.op.result.isVoid with
  | false => rfl
  | true => simp [places, hasResult, hvoid] at hrv

section

variable (hc : c.Sees vars m.op.params m.op.result) (hp : PlaceKinds c m)
  (hm : m.HasKinds named checked)

include hc hp

theorem kinded_prologue : ∀ s ∈ site.prologue m, c.KindedStmt named checked s := by
  simp only [prologue, List.forall_mem_append, List.forall_mem_map]
  refine ⟨⟨fun rv hrv => ?_, ?_⟩, by simp [hp.failed]⟩
  · have hrv := Option.mem_toList.1 hrv
    have hvoid := isVoid_of_mem_places hrv
    simp [CodeContext.kindOf?_zero hvoid, hp.result rv hrv, Ty.slotKind?_ne_none hvoid]
  · split
    · simp [Hook.checkState, hp.support, kinded_base hc, kindOf?_base hc, kinded_supportExpr hc]
    · simp [hp.support]

theorem kinded_collectArgs (hm : m.HasKinds named checked) :
    ∀ s ∈ site.collectArgs m, c.KindedStmt named checked s := by
  have hboxed : c.Kinded named checked (Expr.boxedArgs m.op.params) :=
    hc.kinded_boxedArgs hm.params
  simp only [collectArgs, List.forall_mem_cons]
  refine ⟨by simp [hp.args], ?_⟩
  split
  · simp [hboxed, hp.args]
  split
  · simp
  · simp [hboxed, hp.args, Hook.needsArguments, kinded_base hc, kindOf?_base hc,
      kinded_container hc]

theorem kinded_announce : c.Kinded named checked (site.announce m) := by
  simp only [announce]
  split
  · simp [Hook.endpointPreInvoke, kinded_base hc, kindOf?_base hc, hp.args]
  · split <;>
      simp [Hook.preInvoke, Hook.preInvokeStatelessCreate, Hook.callParams, kinded_base hc,
        kindOf?_base hc, kinded_container hc, hp.support, hp.args]

theorem kinded_conclude : c.Kinded named checked (site.conclude m) := by
  simp only [conclude]
  split
  · simp [Hook.endpointPostInvoke, kinded_base hc, kindOf?_base hc]
  · split <;>
      simp [Hook.postInvoke, Hook.postInvokeStatelessCreate, Hook.callParams, kinded_base hc,
        kindOf?_base hc, kinded_container hc, hp.support]

theorem kinded_chain : c.Kinded named checked (site.chain m) := by
  simp [chain, Hook.invokeChain, kinded_container hc, hp.support]

include hm

theorem kinded_performCall : c.KindedStmt named checked (site.performCall m) := by
  have hchain : c.Kinded named checked (site.chain m) := kinded_chain hc hp
  have hcall : c.Kinded named checked (site.directCall m (.var (places m).bean)) :=
    kinded_directCall hc hm (by simp) hp.bean
  simp only [performCall]
  split
  · split
    · rename_i rv hrv
      have hvoid := isVoid_of_mem_places hrv
      simp [hchain, hvoid, hp.result rv hrv, CodeContext.kindOf?_fromObject hvoid kindOf?_chain,
        Ty.slotKind?_ne_none hvoid]
    · simpa using hchain
  · simp only [Stmt.keep]
    split
    · rename_i rv hrv
      simp [hcall, hp.result rv hrv, Ty.slotKind?_ne_none (isVoid_of_mem_places hrv)]
    · simpa using hcall

theorem kinded_guarded (hbean : (Ty.named site.beanClass).isReference = true) :
    ∀ s ∈ site.guarded m, c.KindedStmt named checked s := by
  simp only [guarded, List.forall_mem_append, List.forall_mem_cons]
  refine ⟨kinded_collectArgs hc hp hm, ?_, kinded_performCall hc hp hm, by simp⟩
  simp [hbean, kinded_announce hc hp, hp.bean, Ty.slotKind?_of_isReference hbean]

end

theorem kinded_record (hp : PlaceKinds c m) {failure : Nat}
    (hf : c.kindOf? (.var failure) = some .reference) :
    c.KindedStmt named checked (record m failure) := by
  rw [record, Hook.setUnchecked]
  split <;> simp [Hook.setUncheckedRemote, Hook.setUncheckedLocal, hp.support, hf]

theorem kinded_recordAndThrow (hp : PlaceKinds c m) {failure : Nat} {e : Expr}
    (hf : c.kindOf? (.var failure) = some .reference) (he : c.Kinded named checked e)
    (hkind : c.kindOf? e = some .reference) :
    ∀ s ∈ recordAndThrow m failure e, c.KindedStmt named checked s := by
  simp [recordAndThrow, hp.failed, kinded_record hp hf, he, hkind]

theorem kinded_epilogue (hc : c.Sees vars m.op.params m.op.result) (hp : PlaceKinds c m) :
    ∀ s ∈ site.epilogue m, c.KindedStmt named checked s := by
  simp [epilogue, kinded_conclude hc hp, kinded_record hp hp.postFailure, hp.inFlight,
    hp.postFailure, hp.failed, hp.support, Hook.failureCleanup, kinded_container hc]

theorem kinded_catches (hp : PlaceKinds c m) (hm : m.HasKinds named checked) :
    ∀ x ∈ catches m, c.KindedCatch named checked x := by
  -- A failure that is not declared is thrown again as it is, or within another.
  have hwrapped : ∀ i, c.kindOf? (.var i) = some .reference →
      ∀ s ∈ recordAndThrow m i (wrapFailure m (.var i)), c.KindedStmt named checked s :=
    fun i hi => kinded_recordAndThrow hp hi (kinded_wrapFailure (CodeContext.kinded_var i) hi)
      kindOf?_wrapFailure
  intro x hx
  simp only [catches, List.mem_append, List.mem_map, List.mem_singleton] at hx
  rcases hx with ((hx | hx) | ⟨failure, hfailure, rfl⟩) | rfl
  · split at hx
    · obtain rfl := List.mem_singleton.1 hx
      exact ⟨Ty.isReference_named (by simp), hwrapped⟩
    · exact absurd hx List.not_mem_nil
  · split at hx
    · obtain rfl := List.mem_singleton.1 hx
      refine ⟨Ty.isReference_named (by simp), fun i hi => ?_⟩
      cases hrmi : m.isRmi with
      | false => simpa [Catch.ofClass, hrmi] using hwrapped i hi
      | true =>
        have hvar : c.Kinded named checked (.var i) := CodeContext.kinded_var i
        simpa [Catch.ofClass, hrmi] using kinded_recordAndThrow hp hi hvar hi
    · exact absurd hx List.not_mem_nil
  · refine ⟨hm.failures failure hfailure, fun i hi => ?_⟩
    simp [Catch.ofFailure, Hook.setChecked, hp.support, hi]
  · exact ⟨Ty.isReference_named (by simp), hwrapped⟩

theorem kinded_standardBody (hbean : (Ty.named site.beanClass).isReference = true)
    (hm : m.HasKinds named checked)
    (hc : c.Sees (site.standardBody m).vars m.op.params m.op.result) :
    ∀ s ∈ (site.standardBody m).block, c.KindedStmt named checked s := by
  have hp := placeKinds hbean hc
  simp only [standardBody, List.forall_mem_append, List.forall_mem_cons]
  refine ⟨kinded_prologue hc hp, ?_, ?_, by simp⟩
  · rw [CodeContext.kindedStmt_region]
    refine ⟨kinded_guarded hc hp hm hbean,
      CodeContext.kinded_handlers hp.handlers (kinded_catches hp hm), ?_⟩
    simpa [hp.inFlight] using kinded_epilogue hc hp
  · cases hrv : (places m).result with
    | none => simp
    | some rv =>
      simp [hp.result rv hrv, hc.result, Ty.slotKind?_ne_none (isVoid_of_mem_places hrv)]

/-! ### Other methods -/

theorem kinded_asyncBody (hm : m.HasKinds named checked) (hasync : m.policy.asynchronous = true)
    (hc : c.Sees (site.asyncBody m).vars m.op.params m.op.result) :
    ∀ s ∈ (site.asyncBody m).block, c.KindedStmt named checked s := by
  have hboxed : c.Kinded named checked (Expr.boxedArgs m.op.params) :=
    hc.kinded_boxedArgs hm.params
  have hscheduled : c.Kinded named checked (Hook.scheduleAsync.invoke site.container
      [site.base, idExpr m, Expr.boxedArgs m.op.params]) := by
    simp [Hook.scheduleAsync, hboxed, kinded_base hc, kindOf?_base hc, kinded_container hc]
  simp only [asyncBody, Body.ofBlock]
  split
  · simpa using hscheduled
  · rename_i hvoid
    have hfuture := (hm.scheduled hasync).resolve_left hvoid
    have hresult : m.op.result.slotKind? = some .reference := by
      rw [Ty.isNamed_iff.1 hfuture, Ty.slotKind?_named (by simp)]
    simp only [hfuture, if_true, List.forall_mem_singleton, CodeContext.kindedStmt_ret_some]
    exact ⟨hscheduled, by rw [hc.result, hresult]; simp [Hook.scheduleAsync]⟩

theorem kinded_managedContext (hc : c.Sees vars params result) :
    c.Kinded named checked site.managedContext := by
  simp [managedContext, hc.kinded_this, hc.kindOf?_this]

theorem kinded_managedBody (hbean : (Ty.named site.beanClass).isReference = true)
    (hm : m.HasKinds named checked)
    (hc : c.Sees (site.managedBody m).vars m.op.params m.op.result) :
    ∀ s ∈ (site.managedBody m).block, c.KindedStmt named checked s := by
  -- With interceptors the body runs their chain, without them it calls the bean directly.
  cases hinterceptors : m.policy.interceptors with
  | true =>
    rw [managedBody, if_pos hinterceptors] at hc ⊢
    have hboxed : c.Kinded named checked (Expr.boxedArgs m.op.params) :=
      hc.kinded_boxedArgs hm.params
    have hsupport : c.kindOf? (.var 0) = some .reference :=
      (hc.kindOf?_var rfl).trans (Ty.slotKind?_named (by simp))
    have hargs : c.kindOf? (.var 1) = some .reference :=
      (hc.kindOf?_var rfl).trans Ty.slotKind?_objects
    have hchain : c.Kinded named checked
        (Hook.invokeChain.invoke site.container [.var 0, .null]) := by
      simp [Hook.invokeChain, kinded_container hc, hsupport]
    have hkind : c.kindOf? (Hook.invokeChain.invoke site.container [.var 0, .null]) =
        some .reference := by
      simp [Hook.invokeChain]
    simp only [List.forall_mem_append]
    refine ⟨?_, ?_⟩
    · simp [hboxed, hsupport, hargs, Hook.preInvokeManaged, Hook.callParams, kinded_base hc,
        kindOf?_base hc, kinded_container hc, kinded_managedContext hc]
    · split
      · simpa using hchain
      · rename_i hvoid
        rw [Bool.not_eq_true] at hvoid
        rw [List.forall_mem_singleton, CodeContext.kindedStmt_ret_some, hc.result,
          CodeContext.kindOf?_fromObject hvoid hkind]
        exact ⟨CodeContext.kinded_fromObject hvoid hchain hkind, rfl,
          Ty.slotKind?_ne_none hvoid⟩
  | false =>
    rw [managedBody, if_neg (by simp [hinterceptors])] at hc ⊢
    have hinstance : c.Kinded named checked
        (.cast (.named site.beanClass) (Hook.beanInstance.invoke site.managedContext [])) := by
      simp [hbean, Hook.beanInstance, kinded_managedContext hc]
    refine CodeContext.kinded_retCall hc.result (kinded_directCall hc hm hinstance ?_)
      kindOf?_directCall
    simpa using Ty.slotKind?_of_isReference hbean

/-! ### The method -/

/-- Every dispatch method is kinded. -/
theorem isKinded_method (hunit : (Ty.named site.unit).isReference = true)
    (hbean : (Ty.named site.beanClass).isReference = true) (hm : m.HasKinds named checked) :
    (site.method m).IsKinded named checked site.unit := by
  refine Method.isKinded_of_body rfl hunit fun c hc => ?_
  cases hasync : m.policy.asynchronous with
  | true => 
    simp only [hasync, if_true] at hc ⊢
    exact kinded_asyncBody hm hasync hc
  | false =>
    simp only [hasync, Bool.false_eq_true, if_false] at hc ⊢
    split at hc
    · rename_i hmanaged
      rw [if_pos hmanaged]
      exact kinded_managedBody hbean hm hc
    · rename_i hmanaged
      rw [if_neg hmanaged]
      exact kinded_standardBody hbean hm hc

end DispatchSite

end ComponentViews
