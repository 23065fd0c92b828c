import ComponentViews.Proofs.Hierarchy.Standard
import ComponentViews.Proofs.Synthesis.Classes
import ComponentViews.Proofs.WireName

/-!
# The remote operations of a request

A request of a remote kind that breaks no rule has one interface, and its stub and skeleton
are made for the same operations (`Request.Carries.single`). The operations exposed have
different signatures (`Request.nodup_exposure`), and so they have different names on the
wire (`Request.nodup_remoteOperations`).
-/

namespace ComponentViews.Request

variable {r : Request}

/-! ### Signatures and names -/

/-- Settling failures leaves the signatures as they are. -/
theorem map_signatureKey_settled (ops : List Operation) (key : String) (throws : List Ty) :
    ((ops.map fun o => if o.signatureKey == key then { o with throws } else o).map
      (·.signatureKey)) = ops.map (·.signatureKey) := by
  rw [List.map_map]
  refine List.map_congr_left fun o _ => ?_
  rw [Function.comp_apply]
  split <;> rfl

theorem nodup_addExposed {found : List Operation × List String} {op : Operation}
    (hfound : (found.1.map (·.signatureKey)).Nodup) :
    ((r.addExposed found op).1.map (·.signatureKey)).Nodup := by
  obtain ⟨ops, warnings⟩ := found
  simp only [addExposed]
  split
  · rename_i hnew
    rw [List.map_append, List.map_singleton]
    refine List.nodup_append.2 ⟨hfound, List.nodup_singleton _, fun k hk l hl hkl => ?_⟩
    obtain ⟨o, ho, rfl⟩ := List.mem_map.1 hk
    rw [List.mem_singleton] at hl
    exact List.find?_eq_none.1 hnew o ho (beq_iff_eq.2 (hkl.trans hl))
  · split
    · exact hfound
    · rwa [map_signatureKey_settled]

/-- The operations exposed have different signatures. -/
theorem nodup_exposure : (r.exposure.1.map (·.signatureKey)).Nodup := by
  have hfold : ∀ (candidates : List Operation) (found : List Operation × List String),
      (found.1.map (·.signatureKey)).Nodup →
      ((candidates.foldl r.addExposed found).1.map (·.signatureKey)).Nodup := by
    intro candidates
    induction candidates with
    | nil => exact fun _ hfound => hfound
    | cons op rest ih => exact fun found hfound => ih _ (nodup_addExposed hfound)
  exact hfold _ _ List.nodup_nil

/-- The operations that an interface owns have different signatures. -/
theorem nodup_owned (r : Request) (h : Hierarchy) (policy : FailurePolicy) (table : DispatchTable)
    (owner : String) : ((((r.exposedOperations h policy table).filter (·.op.owner == owner)).map
      (·.op)).map (·.signatureKey)).Nodup := by
  have hall : (r.exposedOperations h policy table).map (·.op) = r.exposure.1 := by
    rw [exposedOperations, List.map_map]
    exact List.map_id _
  have hsub : (((r.exposedOperations h policy table).filter (·.op.owner == owner)).map
      (·.op)).Sublist r.exposure.1 := by
    rw [← hall]
    exact List.filter_sublist.map _
  exact (nodup_exposure (r := r)).sublist (hsub.map _)

/-- The remote operations of an interface have different names. -/
theorem nodup_remoteOperations {s : Settings} {h : Hierarchy} {policy : FailurePolicy}
    {table : DispatchTable} {i : Interface} {ops : List RemoteOperation}
    (hops : r.remoteOperations s h (r.exposedOperations h policy table) i = .ok ops) :
    (ops.map (·.wire.name)).Nodup := by
  rw [remoteOperations] at hops
  let own := (r.exposedOperations h policy table).filter (·.op.owner == i.name)
  have hkeys := r.nodup_owned h policy table i.name
  cases hnames : WireName.assign h (some (Dotted.simpleName i.name)) (r.keepsLegacyNames s)
      (own.map (·.op)) with
  | error conflict => simp [own, hnames, bind, Except.bind] at hops
  | ok names =>
    simp only [own, hnames, bind, Except.bind, pure, Except.pure, Except.ok.injEq] at hops
    obtain ⟨hlen, hnodup⟩ := WireName.nodup_assign hnames hkeys
    subst hops
    rw [List.map_map]
    have hzip : (own.zip names).map (WireName.name ∘ Prod.snd) = names.map (·.name) := by
      rw [← List.map_map, List.map_snd_zip]
      rw [hlen, List.length_map]
    exact hzip ▸ hnodup

/-! ### Stub and skeleton -/

/-- The operations that stubs and skeleton carry, for each interface; none if they cannot be
    worked out. -/
def remote (r : Request) (s : Settings) : List (Interface × List RemoteOperation) :=
  match r.dispatchTable with
  | .error _ => []
  | .ok table =>
    match r.allRemoteOperations s r.hierarchy
      (r.exposedOperations r.hierarchy s.failures table) with
    | .error _ => []
    | .ok remote => remote

/-- What is worked out for a request for which there are classes. -/
theorem of_blueprints {s : Settings} {synthesis : Synthesis}
    (hs : r.blueprints s = .ok synthesis) : checkRules r.hierarchy r = .ok () ∧
      r.allRemoteOperations s r.hierarchy
        (r.exposedOperations r.hierarchy s.failures synthesis.dispatchIds) = .ok (r.remote s) ∧
      (∀ p ∈ r.remote s, Stub.blueprint r.hierarchy p.1 p.2 ∈ synthesis.blueprints) ∧
      ∀ b, r.skeleton? r.hierarchy (r.remote s) = some b → b ∈ synthesis.blueprints := by
  obtain ⟨-, hrules, worked, hworked, -, rfl⟩ := blueprints_eq_ok.1 hs
  obtain ⟨htable, found, hremote, hblueprints⟩ := of_synthesize hworked
  have hfound : r.remote s = found := by
    simp only [remote, htable, hremote]
  rw [hfound]
  refine ⟨hrules, hremote, fun p hp => ?_, fun b hb => ?_⟩
  · rw [hblueprints]
    exact List.mem_append_left _ (List.mem_append_right _ (List.mem_map_of_mem hp))
  · rw [hblueprints]
    exact List.mem_append_right _ (Option.mem_toList.2 hb)

/-- Kinds that neither take several interfaces nor do without any expose one. -/
theorem single_of_checkInterfaces {h : Hierarchy}
    (hkind : r.kind.supportsAggregate = false ∧ r.kind.isNoInterface = false)
    (hrules : checkInterfaces h r = .ok ()) : ∃ i, r.interfaces = [i] := by
  obtain ⟨haggregate, hno⟩ := hkind
  match hi : r.interfaces with
  | [] => simp [checkInterfaces, hi, hno, bind, Except.bind, throw, throwThe,
      MonadExceptOf.throw] at hrules
  | [i] => exact ⟨i, rfl⟩
  | i :: j :: rest => simp [checkInterfaces, hi, haggregate, bind, Except.bind, throw, throwThe,
      MonadExceptOf.throw] at hrules

/-- The classes of a request of a remote kind have been synthesized, and no operation is
    named like the members that stubs inherit. -/
structure Carries (r : Request) (s : Settings) : Prop where
  isRemote : r.kind.isRemote = true
  keepsStandard : r.KeepsStandard
  synthesized : ∃ synthesis, r.blueprints s = .ok synthesis
  named : ∀ p ∈ r.remote s, ∀ m ∈ p.2, Text.startsWith "_" m.exposed.op.name = false

namespace Carries

variable {s : Settings}

/-- The stubs and the skeleton are among the classes. -/
theorem mem_blueprints (hc : r.Carries s) : ∃ synthesis, r.blueprints s = .ok synthesis ∧
    (∀ p ∈ r.remote s, Stub.blueprint r.hierarchy p.1 p.2 ∈ synthesis.blueprints) ∧
    ∀ b, r.skeleton? r.hierarchy (r.remote s) = some b → b ∈ synthesis.blueprints := by
  obtain ⟨synthesis, hsyn⟩ := hc.synthesized
  exact ⟨synthesis, hsyn, (of_blueprints hsyn).2.2⟩

/-- There is one interface, and its operations have different names on the wire. -/
theorem single (hc : r.Carries s) : ∃ i ops, r.remote s = [(i, ops)] ∧
    (ops.map (·.wire.name)).Nodup := by
  obtain ⟨synthesis, hsyn⟩ := hc.synthesized
  obtain ⟨hrules, hremote, -⟩ := of_blueprints hsyn
  have hinterfaces : checkInterfaces r.hierarchy r = .ok () := by
    rw [checkRules] at hrules
    cases hi : checkInterfaces r.hierarchy r with
    | error v => simp [hi, bind, Except.bind] at hrules
    | ok u => rfl
  have hkind : r.kind.supportsAggregate = false ∧ r.kind.isNoInterface = false := by
    have hremote := hc.isRemote
    cases hk : r.kind <;> rw [hk] at hremote <;> first | exact ⟨rfl, rfl⟩ | cases hremote
  obtain ⟨i, hi⟩ := single_of_checkInterfaces hkind hinterfaces
  rw [allRemoteOperations, if_pos hc.isRemote, hi, List.mapM_cons, List.mapM_nil] at hremote
  cases hops : r.remoteOperations s r.hierarchy
      (r.exposedOperations r.hierarchy s.failures synthesis.dispatchIds) i with
  | error conflict => simp [hops, bind, Except.bind] at hremote
  | ok ops =>
    simp only [hops, bind, Except.bind, pure, Except.pure, Except.ok.injEq] at hremote
    exact ⟨i, ops, hremote.symm, nodup_remoteOperations hops⟩

theorem exists_skeleton (hc : r.Carries s) :
    ∃ skeleton, r.skeleton? r.hierarchy (r.remote s) = some skeleton := by
  obtain ⟨i, ops, hremote, -⟩ := hc.single
  rw [hremote]
  exact ⟨_, rfl⟩

/-- The skeleton serves the operations of the interface. -/
theorem skeleton_eq (hc : r.Carries s) {i : Interface} {ops : List RemoteOperation}
    {skeleton : Blueprint} (hi : (i, ops) ∈ r.remote s)
    (hskeleton : r.skeleton? r.hierarchy (r.remote s) = some skeleton) :
    (ops.map (·.wire.name)).Nodup ∧ skeleton =
      Skeleton.blueprint r.hierarchy r.skeletonName i.name (ops.map fun op => ⟨i.name, op⟩) := by
  obtain ⟨i', ops', hremote, hnames⟩ := hc.single
  rw [hremote, List.mem_singleton] at hi
  cases hi
  refine ⟨hnames, ?_⟩
  rw [hremote, skeleton?] at hskeleton
  simpa using hskeleton.symm

end Carries

end ComponentViews.Request
