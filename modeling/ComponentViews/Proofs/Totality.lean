import ComponentViews.Proofs.Code.Sizes
import ComponentViews.Proofs.Distinct
import ComponentViews.Proofs.Room.HomeImplementation
import ComponentViews.Proofs.Room.Remote

/-!
# What can be synthesized can be generated

The classes of a request with plain names become class files that the verifier accepts, unless
something is larger than a class file can hold (`Request.generate_of_blueprints`). The members of
each class are told apart, and no body is at fault for its operands.
-/

namespace ComponentViews

/-! ### Limits -/

/-- Whether a class file cannot be emitted for its size alone: the pool is full, or the code of a
    method or one of its jumps is too long. -/
def EmissionFault.isLimit : EmissionFault → Bool
  | .poolOverflow => true
  | .method _ (.lowering fault) => fault.isLimit
  | _ => false

namespace Blueprint

/-- A method has more arguments than the machine can pass, which are 254 slots besides the object,
    or declares more failures than the pool of a class has room for, which has 65534 places and
    gives two to each class. -/
def DeclaresTooMuch (b : Blueprint) : Prop :=
  ∃ m ∈ b.methods, 254 < slotsOf m.params ∨ 65534 < 2 * (m.throws.map (·.name)).dedup.length

theorem few_of_not_declaresTooMuch {b : Blueprint} (hb : ¬ b.DeclaresTooMuch) {m : Method}
    (hm : m ∈ b.methods) :
    slotsOf m.params ≤ 254 ∧ 2 * (m.throws.map (·.name)).dedup.length ≤ 65534 := by
  rw [DeclaresTooMuch, not_exists] at hb
  have hmethod := not_and.1 (hb m) hm
  rwa [not_or, Nat.not_lt, Nat.not_lt] at hmethod

end Blueprint

/-- No class has a method that declares too much. -/
def Synthesis.DeclaresLittle (synthesis : Synthesis) : Prop :=
  ∀ b ∈ synthesis.blueprints, ¬ b.DeclaresTooMuch

namespace Blueprint

/-- Something in the class is larger than a class file can hold. -/
inductive ExceedsLimit (b : Blueprint) (major : UInt16) : Prop
  | declarations (h : b.DeclaresTooMuch)
  /-- The pool is full, or code or a jump is too long. -/
  | emission {fault : EmissionFault} (h : b.classFile major = .error fault)
      (hfault : fault.isLimit = true)
  /-- A text has more bytes, or a table more entries, than can be written; the code of each method
      is the one that is filed with it. -/
  | lengths {cf : ClassFile} {entries : List (Member × Option CodeAttribute)}
      (h : b.classFile major = .ok cf) (hmethods : cf.methods = entries.map (·.1))
      (hentries : List.Forall₂ (fun m e => m.IsEmitted b.name major cf.pool e.1 e.2) b.methods
        entries)
      (hlong : ¬ b.IsWritable cf (entries.map (·.2)))

/-- The class has a class file in which everything is far from its limit, as can be found out by
    looking at it: a list of eight bytes an entry is too long only beyond 524280 bytes. -/
def IsSmall (b : Blueprint) (major : UInt16) : Prop :=
  ¬ b.DeclaresTooMuch ∧ b.methods.length ≤ 65535 ∧ (∀ m ∈ b.methods, m.throws.length ≤ 65535) ∧
    ∃ cf, b.classFile major = .ok cf ∧ (∀ k ∈ cf.pool.toList, k.FitsText) ∧
      ∀ member ∈ cf.methods, ∀ a ∈ member.attributes, a.info.length ≤ 524280

instance (b : Blueprint) : Decidable b.DeclaresTooMuch :=
  inferInstanceAs (Decidable (∃ m ∈ b.methods,
    254 < slotsOf m.params ∨ 65534 < 2 * (m.throws.map (·.name)).dedup.length))

instance (b : Blueprint) (major : UInt16) : Decidable (b.IsSmall major) :=
  inferInstanceAs (Decidable (_ ∧ _ ∧ _ ∧ ∃ cf, b.classFile major = .ok cf ∧
    (∀ k ∈ cf.pool.toList, k.FitsText) ∧
      ∀ member ∈ cf.methods, ∀ a ∈ member.attributes, a.info.length ≤ 524280))

/-- A small class exceeds no limit. -/
theorem IsSmall.not_exceedsLimit {b : Blueprint} {major : UInt16} (hb : b.IsSmall major) :
    ¬ b.ExceedsLimit major := by
  obtain ⟨hdeclares, hmethods, hthrows, cf, hcf, htexts, hfiled⟩ := hb
  rintro (hmany | ⟨hfault, -⟩ | ⟨hcf', hentries, hemitted, hlong⟩)
  · exact hdeclares hmany
  · rw [hcf] at hfault
    cases hfault
  · cases hcf.symm.trans hcf'
    refine hlong ((isWritable_iff hcf).2 ⟨htexts, hmethods, hthrows, ?_⟩)
    -- The exception tables are in the code that is filed.
    simp only [List.forall_mem_map]
    rintro ⟨member, code⟩ he c rfl
    obtain ⟨i, hi, hentry⟩ := List.mem_iff_getElem.1 he
    have hmethod := hemitted.get (hemitted.length_eq ▸ hi) hi
    rw [List.get_eq_getElem, List.get_eq_getElem, hentry] at hmethod
    obtain ⟨a, ha, hlength⟩ := hmethod.length_table_le
    have hshort := hfiled member (hentries ▸ List.mem_map_of_mem he) a ha
    omega

variable {b : Blueprint} {checked few : Prop} {h : Hierarchy} {major : UInt16}

/-- The methods of a class whose members are plain and whose operands are of the right kinds can be
    emitted. -/
theorem isEmittable (hplain : b.HasPlainMembers) (hkinded : b.IsKinded True checked)
    (hroom : ∀ m ∈ b.methods, m.HasRoom few b.name) (hcheck : b.check h = .ok ())
    (hfew : checked → few ∧ ∀ m ∈ b.methods, slotsOf m.params ≤ 254) :
    b.IsEmittable checked h where
  distinct := hplain.distinct
  fields := hplain.fields
  methods m hm := by
    obtain ⟨body, hbody⟩ := Option.isSome_iff_exists.1 (hplain.methods m hm).body
    exact {
      body := ⟨body, hbody, fun flag => CodeContext.typedBlock_of_kinded _
        (hkinded m hm body hbody flag)⟩
      vars := (hroom m hm).vars
      params := fun ty hty => ((hplain.methods m hm).params ty hty).isVoid
      check := Blueprint.check_eq_ok.1 hcheck m hm
      slots := fun hchecked body hbody flag =>
        ((hroom m hm).room (hfew hchecked).1 ((hfew hchecked).2 m hm) body hbody flag).slots }

/-- Where all bodies find room, sizes alone can be at fault. -/
theorem isLimit_of_explains (hroom : ∀ m ∈ b.methods, m.HasRoom few b.name) (hfew : few)
    (hslots : ∀ m ∈ b.methods, slotsOf m.params ≤ 254) {fault : EmissionFault}
    (hfault : b.Explains major fault) : fault.isLimit = true := by
  rcases hfault with rfl | ⟨m, hm, f, body, rfl, hbody, hlarge⟩
  · rfl
  · exact ((hroom m hm).room hfew (hslots m hm) body hbody _).isLimit hlarge

end Blueprint

/-- What is generated for a class of a request: its class file under its name, and the verifier
    accepts the bytes. -/
structure GeneratedClass.Represents (c : GeneratedClass) (b : Blueprint) (s : Settings) : Prop where
  name : c.name = b.name
  file : ∃ cf, b.classFile s.major = .ok cf ∧ c.bytes = cf.encode
  verified : c.verify = .ok ()

/-! ### The classes of a request -/

namespace Request

variable {r : Request} {s : Settings} {h : Hierarchy} {synthesis : Synthesis}

/-- The factory implementation is among the classes. -/
theorem factory_mem_blueprints (hsyn : r.synthesize s h = .ok synthesis)
    (hfactory : r.hasFactory = true) :
    (HomeContext.mk r h s.failures).blueprint ∈ synthesis.blueprints := by
  obtain ⟨-, remote, -, hblueprints⟩ := of_synthesize hsyn
  rw [hblueprints, if_pos hfactory]
  exact List.mem_append_left _ (List.mem_append_left _
    (List.mem_cons_of_mem _ (List.mem_singleton.2 rfl)))

/-- What holds of the wrapper, of the factory implementation, of the stub for each interface and of
    the skeleton holds of all classes. -/
theorem forall_mem_blueprints {P : Blueprint → Prop} (hsyn : r.synthesize s h = .ok synthesis)
    (hwrapper : P (Wrapper.blueprint r
      (r.exposedOperations h s.failures synthesis.dispatchIds)))
    (hfactory : r.hasFactory = true → P (HomeContext.mk r h s.failures).blueprint)
    (hstub : ∀ i ∈ r.interfaces, ∀ ops, r.remoteOperations s h
      (r.exposedOperations h s.failures synthesis.dispatchIds) i = .ok ops →
        P (Stub.blueprint h i ops))
    (hskeleton : ∀ first ∈ r.interfaces, ∀ methods : List Skeleton.Served,
      (∀ m ∈ methods, m.operation.exposed ∈
        r.exposedOperations h s.failures synthesis.dispatchIds ∧
          ∃ i ∈ r.interfaces, m.interface = i.name) →
        P (Skeleton.blueprint h r.skeletonName first.name methods)) :
    ∀ b ∈ synthesis.blueprints, P b := by
  obtain ⟨-, remote, hremote, hblueprints⟩ := of_synthesize hsyn
  have hserved := exposed_of_mem_allRemoteOperations hremote
  rw [hblueprints]
  simp only [List.cons_append, List.forall_mem_cons, List.forall_mem_append, List.forall_mem_map]
  refine ⟨hwrapper, ⟨?_, fun p hp => ?_⟩, fun b hb => ?_⟩
  · split
    · exact List.forall_mem_singleton.2 (hfactory ‹_›)
    · exact List.forall_mem_nil _
  · rw [allRemoteOperations] at hremote
    split at hremote
    · obtain ⟨i, hi, hp⟩ := Except.mem_of_mapM_eq_ok hremote p hp
      simp only [Except.bind_eq_ok, pure, Except.pure, Except.ok.injEq] at hp
      obtain ⟨ops, hops, rfl⟩ := hp
      exact hstub i hi ops hops
    · cases hremote
      exact absurd hp List.not_mem_nil
  · obtain ⟨⟨first, ops⟩, hfirst, rfl⟩ := Option.map_eq_some_iff.1 (Option.mem_toList.1 hb)
    refine hskeleton first (hserved _ (List.mem_of_mem_head? hfirst)).1 _ fun m hm => ?_
    obtain ⟨p, hp, hm⟩ := List.mem_flatMap.1 hm
    obtain ⟨op, hop, rfl⟩ := List.mem_map.1 hm
    exact ⟨(hserved p hp).2 op hop, p.1, (hserved p hp).1, rfl⟩

/-- The members of all classes are plain and are told apart. -/
theorem hasPlainMembers_blueprints (hr : r.HasPlainNames)
    (hsyn : r.synthesize s h = .ok synthesis) :
    ∀ b ∈ synthesis.blueprints, b.HasPlainMembers :=
  forall_mem_blueprints hsyn (Wrapper.hasPlainMembers_blueprint hr)
    (fun _ => HomeContext.hasPlainMembers_blueprint hr)
    (fun _ _ _ hops => Stub.hasPlainMembers_blueprint hr hops)
    fun _ hfirst _ _ => Skeleton.hasPlainMembers_blueprint (hr.interface hfirst)

/-- Operands of all classes have the kinds that are expected; where calls of interfaces are to be
    written, if no operation has too many arguments. -/
theorem isKinded_plain (checked : Prop) (hr : r.HasPlainNames)
    (hrules : checkRules r.hierarchy r = .ok ())
    (hsyn : r.synthesize s r.hierarchy = .ok synthesis)
    (hhome : r.hasFactory = true → ∀ m ∈ r.homeMethods.1,
      (HomeContext.mk r r.hierarchy s.failures).HasKinds True checked m)
    (hslots : checked → ∀ m ∈ r.exposedOperations r.hierarchy s.failures synthesis.dispatchIds,
      slotsOf m.op.params ≤ 254) :
    ∀ b ∈ synthesis.blueprints, b.IsKinded True checked := by
  have hops : checkOperations r.hierarchy r = .ok () := by
    rw [checkRules, Except.bind_unit_eq_ok, Except.bind_unit_eq_ok] at hrules
    exact hrules.2.1
  have hexposed : ∀ m ∈ r.exposedOperations r.hierarchy s.failures synthesis.dispatchIds,
      m.HasKinds True checked :=
    fun m hm => hr.hasKinds_exposed hops hm fun hchecked => hslots hchecked m hm
  have hinterfaces := hr.namesClasses.interfaces
  refine forall_mem_blueprints hsyn
    (Wrapper.isKinded_blueprint (isReference_wrapperName r) (isReference_factoryName r)
      hr.namesClasses.bean hexposed)
    (fun hfactory => HomeContext.isKinded_blueprint (isReference_factoryName r) (hhome hfactory))
    (fun i hi ops hops => Stub.isKinded_blueprint (isReference_stubName _) (hinterfaces i hi)
      fun m hm => hexposed _ (exposed_of_mem_remoteOperations hops m hm))
    fun first hfirst methods hmethods => Skeleton.isKinded_blueprint (isReference_skeletonName r)
      (hinterfaces first hfirst) (Ty.isPlain_named (hr.interface hfirst)).fits fun m hm => ?_
  obtain ⟨hmexposed, i, hi, hinterface⟩ := hmethods m hm
  exact ⟨hexposed _ hmexposed, hinterface ▸ hinterfaces i hi⟩

/-! ### Room -/

/-- Failures that are classes are told apart by their names. -/
theorem length_application_le {declared : List Ty} (policy : FailurePolicy) (remoteStyle : Bool)
    (hclasses : ∀ ty ∈ declared, ty.isArray = false)
    (hfew : 2 * (declared.map (·.name)).dedup.length ≤ 65534) :
    (h.classify policy declared remoteStyle).application.length ≤ 32767 := by
  have hchecked := Hierarchy.checked_application (h := h) policy declared remoteStyle
  have hdims : ∀ ty ∈ declared, ty.dims = 0 := fun ty hty => by
    simpa [Ty.isArray] using hclasses ty hty
  have hnames : ((h.classify policy declared remoteStyle).application.map (·.name)).Nodup := by
    refine hchecked.nodup.map_on fun a ha b hb hname => ?_
    have hda := hdims a (hchecked.declared a ha)
    have hdb := hdims b (hchecked.declared b hb)
    cases a
    cases b
    simp only at hda hdb hname
    rw [hda, hdb, hname]
  have hsubset : (h.classify policy declared remoteStyle).application.map (·.name) ⊆
      (declared.map (·.name)).dedup := fun name hname => by
    obtain ⟨ty, hty, rfl⟩ := List.mem_map.1 hname
    exact List.mem_dedup.2 (List.mem_map_of_mem (hchecked.declared ty hty))
  have hle := (hnames.subperm hsubset).length_le
  rw [List.length_map] at hle
  omega

/-- The operations exposed have few arguments and few failures if the methods of the wrapper do. -/
theorem few_exposed (hr : r.HasPlainNames) (hsyn : r.synthesize s h = .ok synthesis)
    (hfew : synthesis.DeclaresLittle) :
    ∀ m ∈ r.exposedOperations h s.failures synthesis.dispatchIds,
      slotsOf m.op.params ≤ 254 ∧ m.failures.application.length ≤ 32767 := by
  obtain ⟨-, remote, -, hblueprints⟩ := of_synthesize hsyn
  have hwrapper : Wrapper.blueprint r
      (r.exposedOperations h s.failures synthesis.dispatchIds) ∈ synthesis.blueprints := by
    rw [hblueprints]
    exact List.mem_append_left _ (List.mem_append_left _ List.mem_cons_self)
  intro m hm
  obtain ⟨hslots, hthrows⟩ := Blueprint.few_of_not_declaresTooMuch (hfew _ hwrapper)
    (Wrapper.method_mem_blueprint r hm)
  obtain ⟨op, hop, rfl⟩ := List.mem_map.1 hm
  exact ⟨hslots, length_application_le _ _
    (fun ty hty => ((hr.hasPlainTypes_exposure hop).failures ty hty).1) hthrows⟩

/-- The operations of homes have few failures if the methods of the factory implementation do. -/
theorem few_home (hr : r.HasPlainNames) (hsyn : r.synthesize s h = .ok synthesis)
    (hfew : synthesis.DeclaresLittle) (hfactory : r.hasFactory = true) :
    ∀ m ∈ r.homeMethods.1,
      ((HomeContext.mk r h s.failures).applicationFailures m).length ≤ 32767 := by
  intro m hm
  have hmethod : (HomeContext.mk r h s.failures).method m ∈
      (HomeContext.mk r h s.failures).blueprint.methods :=
    List.mem_cons_of_mem _ (List.mem_map_of_mem hm)
  exact length_application_le _ _
    (fun ty hty => ((HomeContext.plain_homeMethods hr m hm).1.failures ty hty).1)
    (Blueprint.few_of_not_declaresTooMuch
      (hfew _ (factory_mem_blueprints hsyn hfactory)) hmethod).2

/-- The bodies of all classes find room for what they work on. -/
theorem hasRoom_blueprints (hr : r.HasPlainNames) (hrules : checkRules r.hierarchy r = .ok ())
    (hsyn : r.synthesize s r.hierarchy = .ok synthesis)
    (hhome : r.hasFactory = true → ∀ m ∈ r.homeMethods.1,
      (HomeContext.mk r r.hierarchy s.failures).HasKinds True False m) :
    ∀ b ∈ synthesis.blueprints, ∀ m ∈ b.methods, m.HasRoom synthesis.DeclaresLittle b.name := by
  have hops : checkOperations r.hierarchy r = .ok () := by
    rw [checkRules, Except.bind_unit_eq_ok, Except.bind_unit_eq_ok] at hrules
    exact hrules.2.1
  have hkinds : ∀ m ∈ r.exposedOperations r.hierarchy s.failures synthesis.dispatchIds,
      m.HasKinds True False := fun m hm => hr.hasKinds_exposed hops hm False.elim
  refine forall_mem_blueprints hsyn
    (Wrapper.hasRoom_blueprint (isReference_factoryName r) hr.namesClasses.bean
      fun m hm => ⟨hkinds m hm, fun hfew => (few_exposed hr hsyn hfew m hm).2⟩)
    (fun hfactory => HomeContext.hasRoom_blueprint
      fun m hm => ⟨hhome hfactory m hm, fun hfew => few_home hr hsyn hfew hfactory m hm⟩)
    (fun i hi ops hops => Stub.hasRoom_blueprint
      fun m hm => hkinds _ (exposed_of_mem_remoteOperations hops m hm))
    fun first hfirst methods hmethods => Skeleton.hasRoom_blueprint fun m hm =>
      ⟨hkinds _ (hmethods m hm).1, fun hfew => few_exposed hr hsyn hfew _ (hmethods m hm).1⟩

/-! ### Generation -/

/-- A class in which nothing is too large is generated, and its class file is accepted. -/
theorem exists_generate {b : Blueprint} {few : Prop} (hplain : b.HasPlainMembers)
    (hkinded : b.IsKinded True True) (hroom : ∀ m ∈ b.methods, m.HasRoom few b.name) (hfew : few)
    (hcheck : b.check h = .ok ()) (hmajor : s.check = .ok ()) (hfits : ¬ b.ExceedsLimit s.major) :
    ∃ c : GeneratedClass, b.generate s = .ok c ∧ c.Represents b s := by
  have hslots : ∀ m ∈ b.methods, slotsOf m.params ≤ 254 := fun m hm =>
    (Blueprint.few_of_not_declaresTooMuch (fun hmany => hfits (.declarations hmany)) hm).1
  rcases Blueprint.classFile_cases
      (Blueprint.isEmittable hplain hkinded hroom hcheck fun _ => ⟨hfew, hslots⟩) s.major with
    ⟨cf, hcf, hwritten⟩ | ⟨fault, hfault, hexplains⟩
  · have hrange : ClassFile.minMajor ≤ s.major ∧ s.major ≤ ClassFile.maxMajor := by
      rw [Settings.check] at hmajor
      split at hmajor
      · assumption
      · cases hmajor
    obtain ⟨read, hread⟩ := hwritten.ofVerifiedBytes hcf hplain.returnsResults hrange
      fun entries hmethods hentries => by
        by_contra hlong
        exact hfits (.lengths hcf hmethods hentries hlong)
    have hverify : GeneratedClass.verify ⟨b.name, cf.encode⟩ = .ok () := by
      simp [GeneratedClass.verify, hread, Except.mapError, bind, Except.bind, pure, Except.pure]
    refine ⟨⟨b.name, cf.encode⟩, ?_, ⟨rfl, ⟨cf, hcf, rfl⟩, hverify⟩⟩
    simp [Blueprint.generate, hcf, Except.mapError, bind, Except.bind, pure, Except.pure]
  · exact absurd
      (.emission hfault (Blueprint.isLimit_of_explains hroom hfew hslots hexplains)) hfits

/-- No cast is at fault in a class whose operands are of the right kinds; and where its bodies find
    room, sizes alone can be. -/
theorem fault_of_classFile {b : Blueprint} {few : Prop} (hplain : b.HasPlainMembers)
    (hkinded : b.IsKinded True False) (hroom : ∀ m ∈ b.methods, m.HasRoom few b.name)
    (hcheck : b.check h = .ok ()) {fault : EmissionFault}
    (hfault : b.classFile s.major = .error fault) :
    (∀ label source target, fault ≠ .method label (.lowering (.badCast source target))) ∧
      (few → (∀ m ∈ b.methods, slotsOf m.params ≤ 254) → fault.isLimit = true) := by
  rcases Blueprint.classFile_cases
      (Blueprint.isEmittable hplain hkinded hroom hcheck False.elim) s.major with
    ⟨cf, hcf, -⟩ | ⟨f, hf, hexplains⟩
  · rw [hcf] at hfault
    cases hfault
  · cases hf.symm.trans hfault
    refine ⟨?_, fun hfew hslots => Blueprint.isLimit_of_explains hroom hfew hslots hexplains⟩
    rintro label source target rfl
    rcases hexplains with hoverflow | ⟨m, -, f, body, hmethod, -, hlarge⟩
    · cases hoverflow
    · cases hmethod
      exact hlarge

/-- If each class is generated, then all are, in their order. -/
theorem generate_of_forall (hs : r.blueprints s = .ok synthesis)
    (hall : ∀ b ∈ synthesis.blueprints,
      ∃ c : GeneratedClass, b.generate s = .ok c ∧ c.Represents b s) :
    ∃ classes, r.generate s = .ok ⟨synthesis, classes⟩ ∧
      List.Forall₂ (fun b c => c.Represents b s) synthesis.blueprints classes := by
  obtain ⟨classes, hclasses⟩ := Except.exists_mapM_eq_ok fun b hb =>
    (hall b hb).imp fun _ hc => hc.1
  have hrepresents : List.Forall₂ (fun b c => c.Represents b s) synthesis.blueprints classes := by
    refine ((List.forall₂_and_left _ _).2 ⟨hall, Except.forall₂_of_mapM_eq_ok hclasses⟩).imp ?_
    rintro b c ⟨⟨c', hc', hrepresents⟩, hgenerate⟩
    cases hc'.symm.trans hgenerate
    exact hrepresents
  have hverify : ∀ c ∈ classes, c.verify = .ok () := by
    intro c hc
    obtain ⟨i, hi, rfl⟩ := List.mem_iff_getElem.1 hc
    exact (hrepresents.get (hrepresents.length_eq ▸ hi) hi).verified
  refine ⟨classes, ?_, hrepresents⟩
  simp only [generate, hs, hclasses, bind, Except.bind, pure, Except.pure]
  split
  · rw [Except.forM_eq_ok.2 hverify]
  · rfl

/-- A local home without methods of its own. -/
def bareHome : Request :=
  { homeHandingOut "acme.Account" with
    interfaces := [{ name := "acme.AccountHome", parents := [Known.ejbLocalHome] }] }

end Request

end ComponentViews
