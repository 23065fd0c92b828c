import ComponentViews.Proofs.Kinds
import ComponentViews.Proofs.Names

/-!
# Requests with plain names

In a request where classes and operations go by identifiers (`Request.HasPlainNames`) the
operands of generated code have the kinds that are expected also where descriptors have to be
legible and have to be written (`Request.hasKinds_exposed`, `Request.hasKinds_home`).
-/

namespace ComponentViews

/-- A name that operations can have: an identifier that does not begin with an underscore. -/
structure IsMethodName (name : String) : Prop where
  plain : Text.Lacks ['(', '<'] name
  /-- Names that begin so are those of the members that stubs and skeletons have. -/
  visible : name.toList.head? ≠ some '_'

instance (name : String) : Decidable (IsMethodName name) :=
  decidable_of_iff (Text.Lacks ['(', '<'] name ∧ name.toList.head? ≠ some '_')
    ⟨fun h => ⟨h.1, h.2⟩, fun h => ⟨h.1, h.2⟩⟩

theorem IsMethodName.ne_constructor {name : String} (h : IsMethodName name) :
    name ≠ Known.constructor := fun heq => h.plain.not_mem (c := '<') (by simp) (heq ▸ by decide)

/-- The types of an operation are plain, and its failures are classes. -/
structure Operation.HasPlainTypes (op : Operation) : Prop where
  params : ∀ ty ∈ op.params, ty.IsPlain
  result : op.result.IsPlainResult
  failures : ∀ ty ∈ op.throws, ty.isArray = false ∧ IsClassName ty.name

instance (op : Operation) : Decidable op.HasPlainTypes :=
  decidable_of_iff ((∀ ty ∈ op.params, ty.IsPlain) ∧ op.result.IsPlainResult ∧
    ∀ ty ∈ op.throws, ty.isArray = false ∧ IsClassName ty.name)
    ⟨fun h => ⟨h.1, h.2.1, h.2.2⟩, fun h => ⟨h.1, h.2, h.3⟩⟩

/-- A signature of plain types fits calls; of interfaces, if it has few arguments. -/
theorem fitsCall_plain {named checked : Prop} {kind : CallKind} {params : List Ty} {result : Ty}
    (hparams : ∀ ty ∈ params, ty.IsPlain) (hresult : result.IsPlainResult)
    (hslots : checked → kind = .interface → slotsOf params ≤ 254) :
    FitsCall named checked kind params result where
  values ty hty := (hparams ty hty).isVoid
  legible _ ty hty := (hparams ty hty).not_mem (by simp)
  writable _ := isMethod_methodDescriptor (fun ty hty => (hparams ty hty).isWritable)
    (hresult.imp id fun h => h.isWritable)
  slots := hslots

namespace Request

/-- The classes and the operations that a request describes go by identifiers; among the methods
    of the bean class there can be constructors. -/
structure HasPlainNames (r : Request) : Prop where
  classes : ∀ c ∈ r.describedClasses, IsClassName c.name
  interfaceMethods : ∀ i ∈ r.interfaces ++ r.companion?.toList, ∀ op ∈ i.methods,
    IsMethodName op.name
  beanMethods : ∀ op ∈ r.bean.methods, op.name = Known.constructor ∨ IsMethodName op.name
  types : ∀ op ∈ r.declaredOperations, op.HasPlainTypes
  keyType : ∀ ty ∈ r.factory.bind (·.keyType), ty.IsPlain

namespace HasPlainNames

variable {r : Request} {s : Settings} {h : Hierarchy} {named checked : Prop}

theorem namesClasses (hr : r.HasPlainNames) : r.NamesClasses where
  described c hc := (hr.classes c hc).isReference
  failures op hop ty hty := ((hr.types op hop).failures ty hty).2.isReference

theorem paramsHaveValues (hr : r.HasPlainNames) : r.ParamsHaveValues :=
  fun op hop ty hty => ((hr.types op hop).params ty hty).isVoid

theorem interface (hr : r.HasPlainNames) {i : Interface} (hi : i ∈ r.interfaces) :
    IsClassName i.name :=
  hr.classes i.decl (List.mem_append_left _ (List.mem_append_left _ (List.mem_append_right _
    (List.mem_map_of_mem hi))))

/-! ### The operations exposed -/

/-- Operations that are exposed have the signatures of candidates. -/
theorem exists_candidate {op : Operation} (hop : op ∈ r.exposure.1) :
    ∃ candidate ∈ r.exposureCandidates,
      op.name = candidate.name ∧ op.params = candidate.params := by
  have hfold : ∀ (candidates : List Operation) (found : List Operation × List String),
      ∀ o ∈ (candidates.foldl r.addExposed found).1, ∃ candidate ∈ found.1 ++ candidates,
        o.name = candidate.name ∧ o.params = candidate.params := by
    intro candidates
    induction candidates with
    | nil => exact fun found o ho => ⟨o, by simpa using ho, rfl, rfl⟩
    | cons first rest ih =>
      intro found o ho
      obtain ⟨candidate, hcandidate, hname, hparams⟩ := ih _ o ho
      rcases List.mem_append.1 hcandidate with hfound | hrest
      · obtain ⟨ops, warnings⟩ := found
        simp only [addExposed] at hfound
        split at hfound
        · refine ⟨candidate, ?_, hname, hparams⟩
          simp only [List.mem_append, List.mem_cons, List.not_mem_nil, or_false] at hfound ⊢
          exact hfound.imp id .inl
        · split at hfound
          · exact ⟨candidate, List.mem_append_left _ hfound, hname, hparams⟩
          · obtain ⟨kept, hkept, rfl⟩ := List.mem_map.1 hfound
            refine ⟨kept, List.mem_append_left _ hkept, hname.trans ?_, hparams.trans ?_⟩ <;>
              split <;> rfl
      · exact ⟨candidate, List.mem_append_right _ (List.mem_cons_of_mem _ hrest), hname, hparams⟩
  exact hfold _ _ op hop

theorem isMethodName_exposure (hr : r.HasPlainNames) {op : Operation}
    (hop : op ∈ r.exposure.1) : IsMethodName op.name := by
  obtain ⟨candidate, hcandidate, hname, -⟩ := exists_candidate hop
  rw [hname]
  rw [exposureCandidates] at hcandidate
  split at hcandidate
  · obtain ⟨hlisted, hkept⟩ := List.mem_filter.1 hcandidate
    obtain ⟨m, hm, rfl⟩ := List.mem_map.1 hlisted
    rw [Bool.and_eq_true] at hkept
    rw [Operation.name_ownedBy] at hkept ⊢
    -- Constructors of the bean are no candidates.
    exact (hr.beanMethods m hm).resolve_left (by simpa using hkept.2)
  · obtain ⟨i, hi, hlisted⟩ := List.mem_flatMap.1 hcandidate
    obtain ⟨m, hm, rfl⟩ := List.mem_map.1 hlisted
    rw [Operation.name_ownedBy]
    exact hr.interfaceMethods i (List.mem_append_left _ hi) m hm

/-- The operations exposed have plain types. -/
theorem hasPlainTypes_exposure (hr : r.HasPlainNames) {op : Operation} (hop : op ∈ r.exposure.1) :
    op.HasPlainTypes := by
  have hview := isOfView_exposure op hop
  obtain ⟨declared, hdeclared, -, hparams, hresult⟩ := hview.exists_declared
  have htypes := hr.types declared hdeclared
  refine ⟨hparams ▸ htypes.params, hresult ▸ htypes.result, fun ty hty => ?_⟩
  obtain ⟨lister, hlister, hty⟩ := hview.failures ty hty
  exact (hr.types lister hlister).failures ty hty

/-- The operations exposed have the kinds that are expected; where calls of interfaces are to be
    written, if they have few arguments. -/
theorem hasKinds_exposed (hr : r.HasPlainNames) (hops : checkOperations h r = .ok ())
    {policy : FailurePolicy} {table : DispatchTable} {m : ExposedOperation}
    (hm : m ∈ r.exposedOperations h policy table)
    (hslots : checked → slotsOf m.op.params ≤ 254) : m.HasKinds named checked := by
  have hkinds := hasKinds_exposedOperations hr.namesClasses hr.paramsHaveValues hops policy table
    m hm
  obtain ⟨op, hop, rfl⟩ := List.mem_map.1 hm
  have htypes := hr.hasPlainTypes_exposure hop
  exact { hkinds with
    call := fun _ => fitsCall_plain htypes.params htypes.result fun hchecked _ => hslots hchecked }

/-! ### The operations of homes -/

/-- The operations of homes have the kinds that the factory implementation expects. -/
theorem hasKinds_home (hr : r.HasPlainNames) (hkeys : r.HasReferenceKeys)
    (hadmitted : ∀ home ∈ r.homes, ∀ op ∈ home.2.ownedMethods, IsAdmitted r.hierarchy r home.1 op)
    {policy : FailurePolicy}
    (hcheck : (HomeContext.mk r r.hierarchy policy).blueprint.check r.hierarchy = .ok ()) :
    ∀ m ∈ r.homeMethods.1, (HomeContext.mk r r.hierarchy policy).HasKinds named checked m := by
  intro m hm
  have hkinds := hasKinds_homeMethods hr.namesClasses hr.paramsHaveValues hkeys
    (namesClasses_hierarchy hr.namesClasses) hadmitted hcheck m hm
  obtain ⟨home, hhome, hmethod, -⟩ := mem_homeMethods hm
  obtain ⟨op, hop, howned⟩ := List.mem_map.1 hmethod
  have htypes := hr.types op (declared_of_mem_homes hhome op hop)
  have hparams : ∀ ty ∈ m.op.params, ty.IsPlain := by
    rw [← howned, Operation.params_ownedBy]
    exact htypes.params
  have hkey : (HomeContext.mk r r.hierarchy policy).keyType.IsPlainResult := by
    rw [HomeContext.keyType]
    cases hgiven : r.factory.bind (·.keyType) with
    | none => exact .inr (Ty.isPlain_handled (by simp))
    | some key => exact .inr (hr.keyType key hgiven)
  have hresult : m.op.result.IsPlainResult := by
    rw [← howned, Operation.result_ownedBy]
    exact htypes.result
  have hbean : ∀ name, ((HomeContext.mk r r.hierarchy policy).beanResult m name).IsPlainResult := by
    intro name
    rw [HomeContext.beanResult]
    cases hfind : r.bean.find? name m.op.params with
    | none => exact .inl rfl
    | some method =>
      exact (hr.types method (List.mem_append_right _ (List.mem_of_find?_eq_some hfind))).result
  refine { hkinds with call := fun result hcases => fitsCall_plain hparams ?_ (by simp) }
  -- The results that are asked for: none, the key, the declared one, the one of the bean.
  rcases hcases with rfl | rfl | rfl | ⟨name, rfl⟩
  · exact .inl rfl
  · exact hkey
  · exact hresult
  · exact hbean name

end HasPlainNames

end Request

end ComponentViews
