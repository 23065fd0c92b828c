import ComponentViews.Proofs.Code.Kinded
import ComponentViews.Synthesis.HomeImplementation

/-!
# Operands of factory implementations

What a factory implementation hands out, and the keys by which it finds, have to be references,
since it keeps both where the container expects objects (`HomeContext.HasKinds`).
-/

namespace ComponentViews.HomeContext

variable {named checked : Prop} {c : HomeContext} {m : HomeMethod} {code : CodeContext}
  {vars : List Variable} {params : List Ty} {result : Ty}

/-- The kinds of values that the factory implementation expects of an operation. -/
structure HasKinds (named checked : Prop) (c : HomeContext) (m : HomeMethod) : Prop where
  bean : (Ty.named c.beanClass).isReference = true
  /-- Sessions have no keys. -/
  key : HomeOperation.ofName m.op.name ≠ .create ∨ c.isEntity = true →
    c.keyType.isReference = true
  params : ∀ ty ∈ m.op.params, ty.isVoid = false
  failures : ∀ ty ∈ c.applicationFailures m, ty.isReference = true
  result : HomeOperation.ofName m.op.name ≠ .business → m.op.result.isReference = true
  /-- What is asked for among the beans in use is a key. -/
  first : HomeOperation.ofName m.op.name = .findByPrimaryKey →
    ∃ ty, m.op.params.head? = some ty ∧ ty.isReference = true
  call : ∀ result : Ty, (result = .void ∨ result = c.keyType ∨ result = m.op.result ∨
    ∃ name, result = c.beanResult m name) → FitsCall named checked .virtual m.op.params result

/-! ### What methods are made of -/

@[simp] theorem kindOf?_inherited {name : String} {isLocal : Bool} {args : List Expr} :
    code.kindOf? (inherited name isLocal params result args) = result.slotKind? := by
  simp [inherited]

@[simp] theorem kindOf?_beanCall {bean : Nat} {name : String} :
    code.kindOf? (c.beanCall m bean name result) = result.slotKind? := by
  simp [beanCall]

@[simp] theorem kindOf?_beanIn {context : Nat} :
    code.kindOf? (c.beanIn context) = (Ty.named c.beanClass).slotKind? := by
  simp [beanIn]

@[simp] theorem kindOf?_failureToCreate {cause : Expr} :
    code.kindOf? (failureToCreate cause) = some .reference := by
  simp [failureToCreate]

@[simp] theorem kindOf?_undeclaredFailure {cause : Expr} :
    code.kindOf? (undeclaredFailure m cause) = some .reference := by
  rw [undeclaredFailure]
  split <;> simp

@[simp] theorem kindOf?_activate {key : Expr} :
    code.kindOf? (activate m key) = m.op.result.slotKind? := by
  simp [activate]

@[simp] theorem slotKind?_handedOut (isLocal : Bool) :
    (handedOut isLocal).slotKind? = some .reference := by
  cases isLocal <;> simp [handedOut, Request.viewInterface]

theorem kinded_inherited (hc : code.Sees vars params result) {name : String} {isLocal : Bool}
    {types : List Ty} {given : Ty} {args : List Expr} :
    code.Kinded named checked (inherited name isLocal types given args) ↔
      code.AllKinded named checked args ∧ args.map code.kindOf? = types.map Ty.slotKind? ∧
        FitsCall named checked .special types given := by
  simp [inherited, hc.kinded_this, hc.kindOf?_this]

theorem kinded_beanCall (hc : code.Sees vars m.op.params result) {bean : Nat} {name : String}
    {given : Ty} (hbean : code.kindOf? (.var bean) = some .reference)
    (hfits : FitsCall named checked .virtual m.op.params given) :
    code.Kinded named checked (c.beanCall m bean name given) := by
  simp [beanCall, hbean, hc.map_forwardArgs, hfits]

variable [Known.AreFit named checked]

@[simp] theorem fits_handedOut (isLocal : Bool) : (handedOut isLocal).Fits named checked := by
  cases isLocal <;> simp [handedOut, Request.viewInterface]

theorem kinded_beanIn (hm : c.HasKinds named checked m) {context : Nat}
    (hcontext : code.kindOf? (.var context) = some .reference) :
    code.Kinded named checked (c.beanIn context) := by
  simp [beanIn, hm.bean, Hook.beanInstance, hcontext]

theorem kinded_activate (hc : code.Sees vars params result) (href : m.op.result.isReference = true)
    {key : Expr} (hkey : code.Kinded named checked key)
    (hkind : code.kindOf? key = some .reference) :
    code.Kinded named checked (activate m key) := by
  simp [activate, href, kinded_inherited hc, hkey, hkind]

theorem kinded_failureToCreate {cause : Expr} (hcause : code.Kinded named checked cause)
    (hkind : code.kindOf? cause = some .reference) :
    code.Kinded named checked (failureToCreate cause) := by
  simp [failureToCreate, hcause, hkind]

theorem kinded_undeclaredFailure (hc : code.Sees vars params result) {cause : Expr}
    (hcause : code.Kinded named checked cause) (hkind : code.kindOf? cause = some .reference) :
    code.Kinded named checked (undeclaredFailure m cause) := by
  rw [undeclaredFailure]
  split
  · simp [kinded_inherited hc, hcause, hkind]
  · exact kinded_failureToCreate hcause hkind

omit [Known.AreFit named checked] in
theorem kinded_rethrow (hm : c.HasKinds named checked m) {before : Block}
    (hbefore : ∀ s ∈ before, code.KindedStmt named checked s) :
    ∀ x ∈ c.rethrow m before, code.KindedCatch named checked x := by
  intro x hx
  obtain ⟨failure, hfailure, rfl⟩ := List.mem_map.1 hx
  refine ⟨hm.failures failure hfailure, fun i hi => ?_⟩
  simp only [Catch.ofFailure, List.forall_mem_append]
  exact ⟨hbefore, by simp [hi]⟩

/-! ### Creating -/

theorem kinded_createStateless (hm : c.HasKinds named checked m)
    (href : m.op.result.isReference = true)
    (hc : code.Sees (c.createStateless m).vars m.op.params m.op.result) :
    ∀ s ∈ (c.createStateless m).block, code.KindedStmt named checked s := by
  simp only [createStateless, List.forall_mem_singleton, CodeContext.kindedStmt_region] at hc ⊢
  refine ⟨?_, CodeContext.kinded_handlers (hc.kindOf?_binding (l := [])) ?_, by simp⟩
  · have hwrapper : ∀ isLocal : Bool, (Ty.named (if isLocal then Known.localWrapper
        else Known.remoteWrapper)).Fits named checked ∧
        (Ty.named (if isLocal then Known.localWrapper else Known.remoteWrapper)).slotKind? =
          some .reference := by
      intro isLocal
      cases isLocal <;> simp
    simp [href, kinded_inherited hc, hwrapper, hc.result, Ty.slotKind?_of_isReference href]
  · simp only [List.forall_mem_append, List.forall_mem_singleton]
    refine ⟨kinded_rethrow hm (by simp), Ty.isReference_named (by simp), fun i hi => ?_⟩
    simp [Catch.all, kinded_failureToCreate, hi]

/-- The kinds of the variables of a creating operation. -/
structure CreationKinds (code : CodeContext) : Prop where
  created : code.kindOf? (.var created) = some .reference
  context : code.kindOf? (.var createdContext) = some .reference
  bean : code.kindOf? (.var createdBean) = some .reference
  failed : code.kindOf? (.var hasFailed) = some .int
  announced : code.kindOf? (.var isAnnounced) = some .int

section

variable (hc : code.Sees vars m.op.params m.op.result) (hk : CreationKinds code)
  (hm : c.HasKinds named checked m) (href : m.op.result.isReference = true)

include hc hk hm

theorem kinded_beginCreation : ∀ s ∈ c.beginCreation, code.KindedStmt named checked s := by
  simp [beginCreation, kinded_inherited hc, kinded_beanIn hm, hk.context, hk.bean, hk.announced,
    Ty.slotKind?_of_isReference hm.bean]

include href

theorem kinded_constructSession :
    ∀ s ∈ c.constructSession m, code.KindedStmt named checked s := by
  have hinit : code.Kinded named checked (c.beanCall m createdBean (c.request.initMethod m.op)
      (c.beanResult m (c.request.initMethod m.op))) :=
    kinded_beanCall hc hk.bean (hm.call _ (.inr (.inr (.inr ⟨_, rfl⟩))))
  simp [constructSession, hinit, href, kinded_inherited hc, hk.context, hk.created,
    Ty.slotKind?_of_isReference href]

theorem kinded_constructEntity (hentity : c.isEntity = true)
    (hkey : code.kindOf? (.var createdKey) = some .reference) :
    ∀ s ∈ c.constructEntity m, code.KindedStmt named checked s := by
  have hcreate : ∀ name, code.Kinded named checked (c.beanCall m createdBean name c.keyType) :=
    fun _ => kinded_beanCall hc hk.bean (hm.call _ (.inr (.inl rfl)))
  have hpost : ∀ name, code.Kinded named checked (c.beanCall m createdBean name .void) :=
    fun _ => kinded_beanCall hc hk.bean (hm.call _ (.inl rfl))
  simp [constructEntity, hcreate, hpost, href, kinded_inherited hc, hk.context, hk.created, hkey,
    Ty.slotKind?_of_isReference href, Ty.slotKind?_of_isReference (hm.key (.inr hentity))]

omit hm href in
theorem kinded_endCreation : ∀ s ∈ endCreation, code.KindedStmt named checked s := by
  simp [endCreation, kinded_inherited hc, hk.failed, hk.announced, hk.context]

end

theorem kinded_create (hm : c.HasKinds named checked m) (href : m.op.result.isReference = true)
    (hc : code.Sees (c.create m).vars m.op.params m.op.result) :
    ∀ s ∈ (c.create m).block, code.KindedStmt named checked s := by
  simp only [create, List.forall_mem_cons, CodeContext.kindedStmt_region] at hc ⊢
  have hk : CreationKinds code := by
    constructor
    · exact (hc.kindOf?_var rfl).trans (Ty.slotKind?_of_isReference href)
    · exact (hc.kindOf?_var rfl).trans (Ty.slotKind?_named (by simp))
    · exact (hc.kindOf?_var rfl).trans (Ty.slotKind?_of_isReference hm.bean)
    · exact (hc.kindOf?_var rfl).trans Ty.slotKind?_boolean
    · exact (hc.kindOf?_var rfl).trans Ty.slotKind?_boolean
  refine ⟨by simp [hk.created], by simp [hk.context], by simp [hk.failed], by simp [hk.announced],
    ⟨?_, CodeContext.kinded_handlers hc.kindOf?_binding ?_, ?_⟩, ?_, by simp⟩
  · rw [List.forall_mem_append]
    refine ⟨kinded_beginCreation hc hk hm, ?_⟩
    -- Only an entity has a key, in a variable that comes behind the others.
    split
    · rename_i he
      have hkey : code.kindOf? (.var createdKey) = some .reference :=
        (hc.kindOf?_var (v := ⟨"pkey", c.keyType⟩) (by rw [if_pos he]; rfl)).trans
          (Ty.slotKind?_of_isReference (hm.key (.inr he)))
      exact kinded_constructEntity hc hk hm href he hkey
    · exact kinded_constructSession hc hk hm href
  · simp only [List.forall_mem_append, List.forall_mem_singleton]
    refine ⟨kinded_rethrow hm (by simp [hk.failed]), Ty.isReference_named (by simp),
      fun i hi => ?_⟩
    simp [Catch.all, hk.failed, kinded_undeclaredFailure hc, hi]
  · simpa using kinded_endCreation hc hk
  · simp [hk.created, hc.result, Ty.slotKind?_of_isReference href]

/-! ### Workers -/

/-- The kinds of the variables of a use of a worker, from place `first` on. -/
structure WorkerKinds (code : CodeContext) (catches : List Catch) (first : Nat) : Prop where
  worker : code.kindOf? (.var first) = some .reference
  bean : code.kindOf? (.var (first + 1)) = some .reference
  handlers : ∀ k x, catches[k]? = some x →
    code.kindOf? (.var (first + 2 + k)) = x.binding.type.slotKind?

omit [Known.AreFit named checked] in
theorem workerKinds (hm : c.HasKinds named checked m) {w : WorkerPool} {l : List Variable}
    (hc : code.Sees (l ++ c.workerVariables m w) params result) (worker : Nat) :
    WorkerKinds code (c.workerCatches m w worker) l.length := by
  have hvar : ∀ k v, (c.workerVariables m w)[k]? = some v →
      code.kindOf? (.var (l.length + k)) = v.type.slotKind? := by
    intro k v hv
    refine hc.kindOf?_var ?_
    rwa [List.getElem?_append_right (Nat.le_add_right _ _), Nat.add_sub_cancel_left]
  refine ⟨(hvar 0 _ rfl).trans (Ty.slotKind?_named (by simp)),
    (hvar 1 _ rfl).trans (Ty.slotKind?_of_isReference hm.bean), fun k x hx => ?_⟩
  -- What a handler does before it throws again does not change its variable.
  have hbindings : (c.workerCatches m w 0).map (·.binding) =
      (c.workerCatches m w worker).map (·.binding) := by
    simp [workerCatches, rethrow, Catch.ofFailure]
  rw [Nat.add_assoc]
  refine hvar (2 + k) x.binding ?_
  rw [workerVariables, hbindings, List.getElem?_append_right (by simp)]
  simp [hx]

theorem kinded_useWorker (hm : c.HasKinds named checked m)
    (hc : code.Sees vars m.op.params m.op.result) {w : WorkerPool} {first : Nat}
    (hk : WorkerKinds code (c.workerCatches m w first) first) (name : String) {keepIn : Option Nat}
    {given : Ty} (hkeep : ∀ i ∈ keepIn, code.kindOf? (.var i) = given.slotKind? ∧
      given.isVoid = false)
    (hfits : FitsCall named checked .virtual m.op.params given) :
    ∀ s ∈ c.useWorker m w first name keepIn given, code.KindedStmt named checked s := by
  have hacquire : code.Kinded named checked w.acquireExpr := by
    simp [WorkerPool.acquireExpr, Hook.invokeInherited, hc.kinded_this, hc.kindOf?_this]
  have hrelease : code.Kinded named checked (w.releaseExpr first) := by
    simp [WorkerPool.releaseExpr, Hook.invokeInherited, hc.kinded_this, hc.kindOf?_this, hk.worker]
  have hdiscard : code.Kinded named checked (w.discardExpr first) := by
    simp [WorkerPool.discardExpr, Hook.invokeInherited, hc.kinded_this, hc.kindOf?_this, hk.worker]
  have hcall : code.KindedStmt named checked
      (.keep keepIn (c.beanCall m (first + 1) name given)) := by
    have hcall : code.Kinded named checked (c.beanCall m (first + 1) name given) :=
      kinded_beanCall hc hk.bean hfits
    cases keepIn with
    | none => simpa [Stmt.keep] using hcall
    | some i => simp [Stmt.keep, hcall, hkeep i rfl, Ty.slotKind?_ne_none (hkeep i rfl).2]
  simp only [useWorker, List.forall_mem_cons, CodeContext.kindedStmt_region]
  refine ⟨by simp [hk.worker], ⟨?_, CodeContext.kinded_handlers hk.handlers ?_, ?_⟩, by simp⟩
  · have hworker : code.kindOf? w.acquireExpr = some .reference := by
      simp [WorkerPool.acquireExpr]
    simp [hacquire, hworker, hk.worker, hk.bean, kinded_beanIn hm, hcall, hrelease,
      Ty.slotKind?_of_isReference hm.bean]
  · exact kinded_rethrow hm (by simp [hrelease, hk.worker])
  · simp [hdiscard, hk.worker]

theorem kinded_findByPrimaryKey (hm : c.HasKinds named checked m)
    (hop : HomeOperation.ofName m.op.name = .findByPrimaryKey)
    (hc : code.Sees (c.findByPrimaryKey m).vars m.op.params m.op.result) :
    ∀ s ∈ (c.findByPrimaryKey m).block, code.KindedStmt named checked s := by
  have href := hm.result (by simp [hop])
  have hkeyType := Ty.slotKind?_of_isReference (hm.key (.inl (by simp [hop])))
  obtain ⟨ty, hty, hkey⟩ := hm.first hop
  have hrv : code.kindOf? (.var 0) = some .reference :=
    (hc.kindOf?_var rfl).trans (Ty.slotKind?_of_isReference href)
  have hpkey : code.kindOf? (.var 1) = some .reference :=
    (hc.kindOf?_var rfl).trans hkeyType
  simp only [findByPrimaryKey] at hc ⊢
  have hk := workerKinds hm (l := [_, _]) hc 2
  have hfirst : (Expr.forwardArgs (min m.op.params.length 1)).map code.kindOf? =
      [some .reference] := by
    obtain ⟨rest, hrest⟩ := List.head?_eq_some_iff.1 hty
    have hone : min m.op.params.length 1 = 1 := by simp [hrest]
    have harg : code.kindOf? (.arg 0) = some .reference :=
      (hc.kindOf?_arg (by rw [hrest]; rfl)).trans (Ty.slotKind?_of_isReference hkey)
    simp [hone, Expr.forwardArgs, harg]
  simp only [List.forall_mem_cons, CodeContext.kindedStmt_cond, List.forall_mem_append]
  refine ⟨?_, ⟨by simp [hrv], ⟨kinded_useWorker hm hc hk _ ?_ (hm.call _ (.inr (.inl rfl))), ?_⟩,
    by simp⟩, ?_, by simp⟩
  · simp [href, hrv, kinded_inherited hc, hfirst, Ty.slotKind?_of_isReference href]
  · simpa [hkeyType, Ty.isVoid_of_isReference (hm.key (.inl (by simp [hop])))] using hpkey
  · simp [hrv, kinded_activate hc href, hpkey, Ty.slotKind?_of_isReference href]
  · simp [hrv, hc.result, Ty.slotKind?_of_isReference href]

/-- The operation finds several beans. -/
def FindsSeveral (m : HomeMethod) : Prop :=
  m.op.result = .named Known.collection ∨ m.op.result = .named Known.enumeration

omit [Known.AreFit named checked] in
theorem foundType_of_findsSeveral (h : FindsSeveral m) : c.foundType m = m.op.result := by
  rcases h with h | h <;> simp [foundType, h, Ty.isNamed, Ty.named]

omit [Known.AreFit named checked] in
theorem foundType_cases : c.foundType m = c.keyType ∨ c.foundType m = m.op.result := by
  rw [foundType]
  split
  · rename_i hseveral
    rw [Bool.or_eq_true, Ty.isNamed_iff, Ty.isNamed_iff] at hseveral
    rcases hseveral with h | h <;> simp [h, Ty.named]
  · exact .inl rfl

theorem kinded_foundViews (hc : code.Sees vars params result)
    (href : m.op.result.isReference = true) {found : Expr}
    (hkinded : code.Kinded named checked found)
    (hfound : (c.foundType m).slotKind? = some .reference)
    (hkind : code.kindOf? found = some .reference) :
    code.Kinded named checked (c.foundViews m found) ∧
      code.kindOf? (c.foundViews m found) = some .reference := by
  have hconvert : FindsSeveral m → ∀ name, code.Kinded named checked
      (inherited name m.isLocal [c.foundType m] (c.foundType m) [found]) := by
    intro hseveral name
    have hfits : (c.foundType m).Fits named checked := by
      rw [foundType_of_findsSeveral hseveral]
      rcases hseveral with h | h <;> exact h ▸ Ty.fits_named (by simp)
    simp [kinded_inherited hc, hkinded, hkind, hfound, hfits]
  simp only [foundViews]
  split
  · rename_i hresult
    exact ⟨hconvert (.inl (Ty.isNamed_iff.1 hresult)) _, by simp [hfound]⟩
  split
  · rename_i hresult
    exact ⟨hconvert (.inr (Ty.isNamed_iff.1 hresult)) _, by simp [hfound]⟩
  · exact ⟨kinded_activate hc href hkinded hkind, by simp [Ty.slotKind?_of_isReference href]⟩

theorem kinded_find (hm : c.HasKinds named checked m)
    (hop : HomeOperation.ofName m.op.name = .find)
    (hc : code.Sees (c.find m).vars m.op.params m.op.result) :
    ∀ s ∈ (c.find m).block, code.KindedStmt named checked s := by
  have href := hm.result (by simp [hop])
  have hfoundRef : (c.foundType m).isReference = true := by
    rcases foundType_cases (c := c) (m := m) with h | h
    · rw [h, hm.key (.inl (by simp [hop]))]
    · rw [h, href]
  have hfound := Ty.slotKind?_of_isReference hfoundRef
  have hcall : FitsCall named checked .virtual m.op.params (c.foundType m) := by
    rcases foundType_cases (c := c) (m := m) with h | h
    · exact hm.call _ (.inr (.inl h))
    · exact hm.call _ (.inr (.inr (.inl h)))
  have hvar : code.kindOf? (.var 0) = some .reference := (hc.kindOf?_var rfl).trans hfound
  simp only [find] at hc ⊢
  have hk := workerKinds hm (l := [_]) hc 1
  simp only [List.cons_append, List.forall_mem_cons, List.forall_mem_append]
  refine ⟨by simp [hvar], kinded_useWorker hm hc hk _
    (by simp [hvar, hfound, Ty.isVoid_of_isReference hfoundRef]) hcall, ?_, by simp⟩
  have hviews : code.Kinded named checked (c.foundViews m (.var 0)) ∧
      code.kindOf? (c.foundViews m (.var 0)) = some .reference :=
    kinded_foundViews hc href (CodeContext.kinded_var 0) hfound hvar
  simp [hviews, hc.result, Ty.slotKind?_of_isReference href]

theorem kinded_business (hm : c.HasKinds named checked m)
    (hc : code.Sees (c.business m).vars m.op.params m.op.result) :
    ∀ s ∈ (c.business m).block, code.KindedStmt named checked s := by
  have hcall := hm.call m.op.result (.inr (.inr (.inl rfl)))
  cases hvoid : m.op.result.isVoid with
  | true =>
    simp only [business, hvoid, if_true] at hc ⊢
    have hk := workerKinds hm (l := []) hc 0
    simp only [List.forall_mem_append]
    exact ⟨⟨by simp, kinded_useWorker hm hc hk _ (by simp) hcall⟩, by simp⟩
  | false =>
    simp only [business, hvoid, Bool.false_eq_true, if_false] at hc ⊢
    have hk := workerKinds hm (l := [_]) hc 1
    have hvar : code.kindOf? (.var 0) = m.op.result.slotKind? :=
      hc.kindOf?_var (v := ⟨"result", m.op.result⟩) rfl
    have hvalue := Ty.slotKind?_ne_none hvoid
    simp only [List.forall_mem_append]
    refine ⟨⟨?_, kinded_useWorker hm hc hk _ (by simp [hvar, hvoid]) hcall⟩, ?_⟩
    · simp [hvar, CodeContext.kindOf?_zero hvoid, hvalue]
    · simp [hvar, hc.result, hvalue]

/-! ### The class -/

/-- The method for an operation is kinded. -/
theorem isKinded_method (hunit : (Ty.named c.request.factoryName).isReference = true)
    (hm : c.HasKinds named checked m) :
    (c.method m).IsKinded named checked c.request.factoryName := by
  refine Method.isKinded_of_body rfl hunit fun code hc => ?_
  simp only [method, body] at hc ⊢
  cases hop : HomeOperation.ofName m.op.name with
  | create =>
    simp only [hop] at hc ⊢
    have href := hm.result (by simp [hop])
    split at hc
    · rename_i hstateless
      rw [if_pos hstateless]
      exact kinded_createStateless hm href hc
    · rename_i hstateless
      rw [if_neg hstateless]
      exact kinded_create hm href hc
  | findByPrimaryKey =>
    simp only [hop] at hc ⊢
    exact kinded_findByPrimaryKey hm hop hc
  | find =>
    simp only [hop] at hc ⊢
    exact kinded_find hm hop hc
  | business =>
    simp only [hop] at hc ⊢
    exact kinded_business hm hc

/-- The factory implementation is kinded if the operations of the homes have the kinds that it
    expects. -/
theorem isKinded_blueprint (hunit : (Ty.named c.request.factoryName).isReference = true)
    (hmethods : ∀ m ∈ c.request.homeMethods.1, c.HasKinds named checked m) :
    c.blueprint.IsKinded named checked := by
  simp only [Blueprint.IsKinded, blueprint, List.forall_mem_cons, List.forall_mem_map]
  exact ⟨Method.isKinded_constructorOf _ hunit,
    fun m hm => isKinded_method hunit (hmethods m hm)⟩

end ComponentViews.HomeContext
