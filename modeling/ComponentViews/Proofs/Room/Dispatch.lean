import ComponentViews.Proofs.Code.Weight
import ComponentViews.Proofs.Kinds.Dispatch
import ComponentViews.Proofs.Synthesis.Wrapper

/-!
# Room for the methods of wrappers

The methods of a wrapper find room for their operands and variables, unless the operations
declare too many failures (`Wrapper.hasRoom_blueprint`).
-/

namespace ComponentViews

/-- Parameters that have values take a slot each at least. -/
theorem length_le_slotsOf {params : List Ty} (h : ∀ ty ∈ params, ty.isVoid = false) :
    params.length ≤ slotsOf params := by
  induction params with
  | nil => exact Nat.le_refl 0
  | cons ty rest ih =>
    obtain ⟨hty, hrest⟩ := List.forall_mem_cons.1 h
    obtain ⟨kind, hkind⟩ := Ty.exists_slotKind? hty
    have hpos := kind.slots_pos
    rw [← Ty.slots_of_slotKind? hkind] at hpos
    have := ih hrest
    rw [slotsOf, List.length_cons]
    omega

namespace DispatchSite

open CodeContext (widths demandOfHandlers_catches)

variable {site : DispatchSite} {m : ExposedOperation}

@[simp] theorem weight_base : site.base.weight = 2 := by
  rw [base, ViewKind.baseExpr]
  split <;> simp

@[simp] theorem weight_container : site.container.weight = 2 := by
  rw [container, ViewKind.containerExpr, Expr.weight_fieldOf]
  exact weight_base

@[simp] theorem weight_idExpr : (idExpr m).weight = 2 := Expr.weight_int _

theorem weight_supportExpr : (site.kind.supportExpr site.unit).weight = 2 := by
  rw [ViewKind.supportExpr, Expr.weight_fieldOf]
  exact weight_base

theorem weight_directCall_le (bean : Expr) :
    (site.directCall m bean).weight ≤ bean.weight + 2 * m.op.params.length + 2 := by
  rw [directCall, Expr.weight_invoke]
  have := Expr.weightOfAll_forwardArgs m.op.params.length
  omega

theorem weight_wrapFailure_le (failure : Expr) : (wrapFailure m failure).weight ≤
    failure.weight + 8 := by
  rw [wrapFailure]
  split <;> simp <;> omega

theorem weight_announce_le : (site.announce m).weight ≤ 20 := by
  rw [announce]
  split <;> simp

theorem weight_conclude_le : (site.conclude m).weight ≤ 20 := by
  rw [conclude]
  split <;> simp

theorem weight_chain : (site.chain m).weight = 8 := by simp [chain]

/-! ### Weights of blocks -/

theorem isLight_prologue : ∀ s ∈ site.prologue m, s.IsLight 65535 := by
  simp only [prologue, List.forall_mem_append, List.forall_mem_map, List.forall_mem_singleton]
  refine ⟨⟨fun i _ => by simp, ?_⟩, by simp⟩
  split <;> simp [weight_supportExpr]

theorem isLight_guarded (hparams : m.op.params.length ≤ 254) :
    ∀ s ∈ site.guarded m, s.IsLight 65535 := by
  have hannounce : (site.announce m).weight ≤ 20 := weight_announce_le
  have hboxed := Expr.weight_boxedArgs m.op.params
  have hchain : (site.chain m).weight = 8 := weight_chain
  have hdirect : (site.directCall m (.var (places m).bean)).weight ≤
      2 + 2 * m.op.params.length + 2 := Nat.le_trans (weight_directCall_le _) (by simp)
  have hperform : (site.performCall m).IsLight 65535 := by
    rw [performCall]
    split
    · cases (places m).result <;> simp [hchain]
    · cases (places m).result <;> simp only [Stmt.keep, Stmt.IsLight] <;> omega
  have hcollect : ∀ s ∈ site.collectArgs m, s.IsLight 65535 := by
    rw [collectArgs]
    split
    · simp; omega
    · split <;> simp
      omega
  intro s hs
  rw [guarded, List.mem_append, List.mem_cons, List.mem_singleton] at hs
  rcases hs with hs | rfl | rfl
  · exact hcollect s hs
  · rw [Stmt.IsLight, Expr.weight]
    omega
  · exact hperform

theorem isLight_recordAndThrow {failure : Nat} {e : Expr} (he : e.weight ≤ 65535) :
    ∀ s ∈ recordAndThrow m failure e, s.IsLight 65535 := by
  simp [recordAndThrow, record, he]

theorem isLight_catches : ∀ x ∈ catches m, ∀ i, ∀ s ∈ x.body i, s.IsLight 65535 := by
  have hwrap : ∀ i, (wrapFailure m (.var i)).weight ≤ 65535 := fun i => by
    have := weight_wrapFailure_le (m := m) (.var i)
    rw [Expr.weight] at this
    omega
  have hnative : ∀ i, (if m.isRmi then Expr.var i else wrapFailure m (.var i)).weight ≤ 65535 := by
    intro i
    split
    · simp
    · exact hwrap i
  intro x hx i
  simp only [catches, List.mem_append] at hx
  -- The four parts of the list of handlers.
  rcases hx with ((hx | hx) | hx) | hx
  · split at hx
    · rw [List.mem_singleton.1 hx]
      exact isLight_recordAndThrow (hwrap i)
    · exact absurd hx List.not_mem_nil
  · split at hx
    · rw [List.mem_singleton.1 hx]
      exact isLight_recordAndThrow (hnative i)
    · exact absurd hx List.not_mem_nil
  · obtain ⟨failure, -, rfl⟩ := List.mem_map.1 hx
    simp [Catch.ofFailure]
  · rw [List.mem_singleton.1 hx]
    exact isLight_recordAndThrow (hwrap i)

theorem isLight_epilogue : ∀ s ∈ site.epilogue m, s.IsLight 65535 := by
  have hconclude : (site.conclude m).weight ≤ 20 := weight_conclude_le
  simp [epilogue, record]
  omega

/-! ### Slots of blocks -/

theorem demand_prologue (c : CodeContext) : c.demandOfBlock [] (site.prologue m) = 0 := by
  refine CodeContext.demandOfBlock_eq_zero ?_
  simp only [prologue, List.forall_mem_append, List.forall_mem_map, List.forall_mem_singleton]
  refine ⟨⟨fun i _ => by simp, ?_⟩, by simp⟩
  split <;> simp

theorem demand_guarded (c : CodeContext) (exits : List (Option Nat)) :
    c.demandOfBlock exits (site.guarded m) = 0 := by
  have hcollect : c.demandOfBlock exits (site.collectArgs m) = 0 := by
    rw [collectArgs]
    split
    · simp
    · split <;> simp
  have hperform : c.demand exits (site.performCall m) = 0 := by
    rw [performCall]
    split <;> cases (places m).result <;> simp [Stmt.keep]
  simp [guarded, hcollect, hperform]

theorem demand_catches (c : CodeContext) (exits : List (Option Nat)) : ∀ x ∈ catches m, ∀ i,
    blockEnds (x.body i) = true ∧ c.demandOfBlock exits (x.body i) = 0 := by
  intro x hx i
  simp only [catches, List.mem_append] at hx
  rcases hx with ((hx | hx) | hx) | hx
  · split at hx
    · rw [List.mem_singleton.1 hx]
      exact ⟨rfl, by simp [Catch.ofClass, recordAndThrow, record]⟩
    · exact absurd hx List.not_mem_nil
  · split at hx
    · rw [List.mem_singleton.1 hx]
      exact ⟨rfl, by simp [Catch.ofClass, recordAndThrow, record]⟩
    · exact absurd hx List.not_mem_nil
  · obtain ⟨failure, -, rfl⟩ := List.mem_map.1 hx
    exact ⟨rfl, by simp [Catch.ofFailure]⟩
  · rw [List.mem_singleton.1 hx]
    exact ⟨rfl, by simp [Catch.all, recordAndThrow, record]⟩

theorem demand_epilogue_le (c : CodeContext) (exits : List (Option Nat)) :
    c.demandOfBlock exits (site.epilogue m) ≤ 1 := by
  simp [epilogue, record, CodeContext.demand, CodeContext.demandOfHandlers]

/-! ### Methods -/

theorem length_catches_le : (catches m).length ≤ m.failures.application.length + 3 := by
  simp only [catches, List.length_append, List.length_map, List.length_singleton]
  split <;> split <;> simp <;> omega

theorem isReference_catches (hfailures : ∀ ty ∈ m.failures.application, ty.isReference = true) :
    ∀ x ∈ catches m, x.binding.type.isReference = true := by
  intro x hx
  simp only [catches, List.mem_append] at hx
  rcases hx with ((hx | hx) | hx) | hx
  · split at hx
    · rw [List.mem_singleton.1 hx]
      exact Ty.isReference_named (by simp)
    · exact absurd hx List.not_mem_nil
  · split at hx
    · rw [List.mem_singleton.1 hx]
      exact Ty.isReference_named (by simp)
    · exact absurd hx List.not_mem_nil
  · obtain ⟨failure, hfailure, rfl⟩ := List.mem_map.1 hx
    exact hfailures failure hfailure
  · rw [List.mem_singleton.1 hx]
    exact Ty.isReference_named (by simp)

theorem isVoid_vars (hbean : (Ty.named site.beanClass).isReference = true) :
    ∀ v ∈ site.vars m, v.type.isVoid = false := by
  have hnamed : ∀ name ∈ Known.handledClasses, (Ty.named name).isVoid = false := fun name h =>
    Ty.isVoid_of_isReference (Ty.isReference_named h)
  intro v hv
  rw [vars, List.mem_append] at hv
  rcases hv with hv | hv
  · split at hv
    · rename_i hresult
      rw [List.mem_singleton.1 hv]
      simpa [hasResult] using hresult
    · exact absurd hv List.not_mem_nil
  · simp only [List.mem_cons, List.not_mem_nil, or_false] at hv
    rcases hv with rfl | rfl | rfl | rfl | rfl | rfl
    · exact hnamed _ (by simp)
    · decide
    · decide
    · exact Ty.isVoid_of_isReference hbean
    · exact hnamed _ (by simp)
    · exact hnamed _ (by simp)

theorem length_vars_le : (site.vars m).length ≤ 7 := by
  rw [vars]
  split <;> simp

variable {named checked few : Prop}

/-- A body that hands the call over to the container is an expression. -/
theorem isRoomy_asyncBody (hparams : few → m.op.params.length ≤ 254) :
    (site.asyncBody m).IsRoomy few := by
  have hboxed := Expr.weight_boxedArgs m.op.params
  rw [asyncBody]
  refine ⟨List.forall_mem_nil _, fun hfew => ?_, fun _ c => ?_⟩
  · have := hparams hfew
    dsimp only [Body.ofBlock]
    split
    · simp; omega
    split <;> simp <;> omega
  · dsimp only [Body.ofBlock]
    split
    · simp [widths]
    split <;> simp [widths]

theorem isLight_managedBody (hparams : m.op.params.length ≤ 254) :
    ∀ s ∈ (site.managedBody m).block, s.IsLight 65535 := by
  have hboxed := Expr.weight_boxedArgs m.op.params
  rw [managedBody]
  split
  · have hchain : (Hook.invokeChain.invoke site.container [.var 0, .null]).weight = 8 := by simp
    dsimp only
    rw [List.forall_mem_append]
    refine ⟨by simp [managedContext]; omega, ?_⟩
    split <;> simp [hchain]
  · refine isLight_retCall (Nat.le_trans (weight_directCall_le _) ?_)
    simp [managedContext]
    omega

/-- Nothing waits in a managed body, but for what is boxed before it is returned. -/
theorem slots_managedBody_le (c : CodeContext) :
    widths ((site.managedBody m).vars.map (·.type)) +
      c.demandOfBlock [] (site.managedBody m).block ≤ 65280 := by
  rw [managedBody]
  split
  · have hwidths := CodeContext.widths_le
      ([⟨"s", .named Known.deployedSupport⟩, ⟨"args", Hook.objects⟩].map Variable.type)
    have hlast : c.demandOfBlock [] (if m.op.result.isVoid then
        [.eval (Hook.invokeChain.invoke site.container [.var 0, .null]), .ret none]
        else [.ret (some (Expr.fromObject m.op.result
          (Hook.invokeChain.invoke site.container [.var 0, .null])))]) = 0 := by
      split <;> simp
    simp only [CodeContext.demandOfBlock_append, hlast]
    simp at hwidths ⊢
    omega
  · have := c.demandOfBlock_retCall_le [] m.op.result (site.directCall m
      (.cast (.named site.beanClass) (Hook.beanInstance.invoke site.managedContext [])))
    rw [CodeContext.demandOfCopies] at this
    dsimp only [Body.ofBlock]
    simp [widths]
    omega

theorem isRoomy_managedBody (hparams : few → m.op.params.length ≤ 254) :
    (site.managedBody m).IsRoomy few := by
  refine ⟨?_, fun hfew => isLight_managedBody (hparams hfew), fun _ => slots_managedBody_le⟩
  rw [managedBody]
  split
  · simp [Ty.isVoid_of_isReference, Ty.isReference_named]
    decide
  · exact List.forall_mem_nil _

/-- Beside the region nothing waits; in it, only the exit block takes slots. -/
theorem demand_region_le (site : DispatchSite) (m : ExposedOperation) (c : CodeContext) :
    c.demand [] (.region (site.guarded m) (Catch.handlers (places m).handlers (catches m))
      (some ⟨some (places m).inFlight, site.epilogue m⟩)) ≤ 2 := by
  have hepilogue : c.demandOfBlock [] (site.epilogue m) ≤ 1 := demand_epilogue_le c []
  simp only [CodeContext.demand, demand_guarded, CodeContext.demandOfExit, Option.getD_some,
    CodeContext.demandOfInFlight, demandOfHandlers_catches (demand_catches c _)]
  split <;> omega

/-- There is a variable for each handler, so that the failures must not be too many. -/
theorem isRoomy_standardBody (hbean : (Ty.named site.beanClass).isReference = true)
    (hfailures : ∀ ty ∈ m.failures.application, ty.isReference = true)
    (hparams : few → m.op.params.length ≤ 254)
    (hfew : few → m.failures.application.length ≤ 32767) : (site.standardBody m).IsRoomy few := by
  have hbindings := isReference_catches hfailures
  rw [standardBody]
  refine ⟨?_, fun hsmall => ?_, fun hsmall c => ?_⟩
  · exact List.forall_mem_append.2 ⟨isVoid_vars hbean, List.forall_mem_map.2 fun x hx =>
      Ty.isVoid_of_isReference (hbindings x hx)⟩
  · simp only [List.forall_mem_append, List.forall_mem_cons]
    refine ⟨isLight_prologue, ?_, ?_, List.forall_mem_nil _⟩
    · rw [Stmt.IsLight, isLightBlock_iff, isLightHandlers_iff, IsLightExit, isLightBlock_iff]
      exact ⟨isLight_guarded (hparams hsmall), isLight_handlers isLight_catches, isLight_epilogue⟩
    · cases (places m).result <;> simp
  · have hvars := CodeContext.widths_le ((site.vars m).map (·.type))
    have hcount : (site.vars m).length ≤ 7 := length_vars_le
    have hcatches : widths (((catches m).map (·.binding)).map (·.type)) = _ :=
      CodeContext.widths_of_isReference (by simpa using hbindings)
    have hlengthCatches : (catches m).length ≤ m.failures.application.length + 3 :=
      length_catches_le
    have hfew := hfew hsmall
    have hregion := demand_region_le site m c
    rw [List.map_append, CodeContext.widths_append]
    simp only [List.length_map] at hvars hcatches
    simp only [CodeContext.demandOfBlock_append, demand_prologue, CodeContext.demandOfBlock,
      CodeContext.demand_ret_nil, hcatches]
    omega

/-- A dispatch method finds room unless it declares too many failures. -/
theorem hasRoom_method {unit : String} (hbean : (Ty.named site.beanClass).isReference = true)
    (hm : m.HasKinds named checked)
    (hfew : few → m.failures.application.length ≤ 32767) : (site.method m).HasRoom few unit := by
  have hparams : few ∧ slotsOf m.op.params ≤ 254 → m.op.params.length ≤ 254 := fun hsmall =>
    Nat.le_trans (length_le_slotsOf hm.params) hsmall.2
  refine Method.hasRoom_of_body rfl ?_
  split
  · exact isRoomy_asyncBody hparams
  split
  · exact isRoomy_managedBody hparams
  · exact isRoomy_standardBody hbean hm.failures hparams fun hsmall => hfew hsmall.1

end DispatchSite

namespace Wrapper

variable {few : Prop} {unit : String}

theorem hasRoom_identityMembers (kind : ViewKind) :
    ∀ m ∈ identityMembers kind unit, m.HasRoom few unit := by
  rw [identityMembers]
  split
  · exact List.forall_mem_nil _
  split
  · simp only [ownIdentity, List.forall_mem_cons]
    refine ⟨?_, ?_, List.forall_mem_nil _⟩ <;>
      exact Method.hasRoom_ofBlock (by simp) fun c => by simp
  · simp only [baseIdentity, List.forall_mem_cons]
    refine ⟨?_, ?_, List.forall_mem_nil _⟩ <;>
      exact Method.hasRoom_ofBlock (by simp) fun c => by simp

theorem hasRoom_passOn {hook : Hook} (throws : List String) (hparams : hook.params.length ≤ 254) :
    (passOn unit hook throws).HasRoom few unit := by
  have hargs := Expr.weightOfAll_forwardArgs hook.params.length
  refine Method.hasRoom_of_body rfl ⟨List.forall_mem_nil _, fun _ => ?_, fun _ c => ?_⟩
  · simp [Body.ofBlock]
    omega
  · simp [Body.ofBlock, CodeContext.widths]

theorem hasRoom_deliveryMembers (kind : ViewKind) :
    ∀ m ∈ deliveryMembers kind unit, m.HasRoom few unit := by
  rw [deliveryMembers]
  split
  · simp only [List.forall_mem_cons]
    exact ⟨hasRoom_passOn _ (by decide), hasRoom_passOn _ (by decide), hasRoom_passOn _ (by decide),
      List.forall_mem_nil _⟩
  · exact List.forall_mem_nil _

theorem hasRoom_guards (r : Request) : ∀ m ∈ guards r, m.HasRoom few unit := by
  rw [guards]
  split
  · exact List.forall_mem_map.2 fun m _ => Method.hasRoom_of_body rfl ⟨List.forall_mem_nil _,
      fun _ => by simp [Body.ofBlock], fun _ c => by simp [Body.ofBlock, CodeContext.widths]⟩
  · exact List.forall_mem_nil _

/-- The methods of a wrapper find room unless an operation declares too many failures. -/
theorem hasRoom_blueprint {named checked : Prop} {r : Request} {exposed : List ExposedOperation}
    (hfactory : (Ty.named r.factoryName).isReference = true)
    (hbean : (Ty.named r.bean.className).isReference = true)
    (hexposed : ∀ m ∈ exposed, m.HasKinds named checked ∧
      (few → m.failures.application.length ≤ 32767)) :
    ∀ m ∈ (blueprint r exposed).methods, m.HasRoom few r.wrapperName := by
  intro m hm
  rcases mem_addMissing hm with hm | hm
  · rcases List.mem_cons.1 hm with rfl | hm
    · exact Method.hasRoom_constructorOf _
    · obtain ⟨op, hop, rfl⟩ := List.mem_map.1 hm
      refine DispatchSite.hasRoom_method ?_ (hexposed op hop).1 (hexposed op hop).2
      rw [siteFor]
      dsimp only
      split
      · exact hfactory
      · exact hbean
  · simp only [List.mem_append] at hm
    rcases hm with (hm | hm) | hm
    · exact hasRoom_identityMembers r.kind m hm
    · exact hasRoom_deliveryMembers r.kind m hm
    · exact hasRoom_guards r m hm

end Wrapper

end ComponentViews
