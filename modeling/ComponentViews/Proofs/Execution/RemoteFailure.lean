import ComponentViews.Proofs.Execution.RemoteCall

/-!
# Declared failures over the wire

A declared failure of the servant crosses the wire by an id that stands for the declared class,
and with the failure behind it. The skeleton writes the id of the first declared class that the
failure is a subtype of; the stub compares the id with those of the declared classes in their
order, and reads the failure as one of the class that it finds first. Both mean the same class
where the ids differ, and then the caller gets a failure of the servant's own class that holds
what the servant's held (`Request.call_remote_failure`).

The ids are made of the names of the classes, in which an exception's last syllables are cut
off, so that two classes may share one; `Request.misses_failure` shows what becomes of a failure
then, and where other conditions do not hold.
-/

namespace ComponentViews

open Effect Loopback

namespace Loopback

/-- A failure of the servant, thrown when the store was `store`, has reached the caller as
    `caught`, by way of the declared class `failure`. -/
structure Rethrown (h : Hierarchy) (m : RemoteOperation) (failure : Ty) (thrown : ObjectRef)
    (store : Heap) (caught : ObjectRef) (l' : Loopback) : Prop where
  /-- The skeleton's first handler for the failure is that of the class. -/
  handler : Skeleton.declared? h m.exposed.failures.application thrown = some failure
  /-- The stub's first branch for the id is that of the class, too. -/
  branch : m.exposed.failures.application.find?
    (fun ty => Idl.repositoryId ty == Idl.repositoryId failure) = some failure
  className : caught.className = thrown.className
  slots : l'.heap.slotsOf caught.id = store.slotsOf thrown.id

end Loopback

namespace Request

variable {r : Request} {s : Settings} {i : Interface} {ops : List RemoteOperation}
  {m : RemoteOperation} {skeleton : Blueprint} {this : ObjectRef} {args : List Value} {l : Loopback}
  {servant : Servant} {className : String}

/-- A declared failure of the servant reaches the caller of a stub on the other side of the wire
    as a failure of its own class that holds the same. -/
theorem call_remote_failure (hc : r.Carries s) (hi : (i, ops) ∈ r.remote s) (hm : m ∈ ops)
    (hskeleton : r.skeleton? r.hierarchy (r.remote s) = some skeleton) (depth : Nat)
    (hready : CallReady r.hierarchy i.name m.exposed.op.params this args l)
    (hgiven : servant m.exposed.op.name (Stub.sent r.hierarchy m args l).1 = .error className)
    (hthrowable : r.hierarchy.isThrowable className = true)
    (hdeclared : ∃ ty ∈ m.exposed.failures.application,
      r.hierarchy.isSubtype className ty.name = true)
    (hsystem : r.hierarchy.isSubtype className Known.systemException = false)
    (hids : (m.exposed.failures.application.map Idl.repositoryId).Nodup) :
    ∃ failure w thrown left caught l',
      exec (serve (r.link skeleton servant false) m.exposed.op.name
        (Stub.sent r.hierarchy m args l).1) w = (.error thrown, left) ∧
      thrown.className = className ∧
      exec ((Stub.blueprint r.hierarchy i ops).run
        (environment (r.link skeleton servant false) (depth + 1)) this
        (Stub.method r.hierarchy (stubName i.name) i.name m) args) l = (.error caught, l') ∧
      l'.received = l.received ++ [(Stub.sent r.hierarchy m args l).1] ∧
      Rethrown r.hierarchy m failure thrown left.heap caught l' := by
  obtain ⟨failure, hfind⟩ := Option.isSome_iff_exists.1
    (List.find?_isSome.2 hdeclared : (m.exposed.failures.application.find?
      (r.hierarchy.isSubtype className ·.name)).isSome = true)
  obtain ⟨w, out, l', hw, hsent, hanswers, hrun⟩ := exec_stub hc hi hm hskeleton servant depth
    hready fun className' hgiven' hagain => by
      cases hgiven.symm.trans hgiven'
      cases hagain.undeclared.symm.trans hfind
  obtain ⟨caught, rfl, hlater, hpassed⟩ :=
    hanswers.declared className failure hgiven hfind hthrowable hsystem hids
  have hcarried := hanswers.carried hready hw hsent
  let left : Loopback :=
    { w.called (Stub.sent r.hierarchy m args l).1 with heap := w.heap.next }
  refine ⟨failure, w, ⟨w.heap.lastId + 1, className⟩, left, caught, l', ?_, rfl, hrun,
    hcarried.received, hfind, ?_, hpassed.className_eq, hpassed.slotsOf_eq hlater le_rfl⟩
  · rw [exec_serve, served]
    simp only [link, hgiven]
    rfl
  · exact Stub.find?_repositoryId hids (List.mem_of_find?_eq_some hfind)

/-- A business view of an account that can be closed, and may have other operations. -/
def closable (throws : List String) (types : List ClassDecl) (others : List Operation := []) :
    Request where
  component := "Account"
  kind := .businessRemote
  interfaces := [{
    name := "acme.Account"
    parents := [Known.remote]
    methods := { name := "close", throws := throws.map .named } :: others }]
  bean := {
    className := "acme.AccountBean"
    methods := { name := "close", throws := throws.map .named } :: others }
  types

/-- Accounts with money on them cannot be closed. -/
def limited : Request :=
  closable ["acme.LimitException"] [.extending "acme.LimitException" Known.exception,
    .extending "acme.BalanceException" "acme.LimitException"]

/-- A servant that fails as accounts with money on them do. -/
def refuse : Servant := fun _ _ => .error "acme.BalanceException"

theorem carries_limited : limited.Carries {} where
  isRemote := rfl
  keepsStandard := by decide +kernel
  synthesized := by
    have hok : (limited.blueprints {}).isOk = true := by decide +kernel
    cases hsyn : limited.blueprints {} with
    | ok synthesis => exact ⟨synthesis, rfl⟩
    | error fault =>
      rw [hsyn] at hok
      cases hok
  named := by decide +kernel

/-- A failure below the declared one reaches the caller as one of its own class. -/
theorem call_remote_failure_close : ∃ i ops m skeleton failure thrown left caught l',
    (i, ops) ∈ limited.remote {} ∧ m ∈ ops ∧
      exec ((Stub.blueprint limited.hierarchy i ops).run
        (environment (limited.link skeleton refuse false) 1)
        ⟨2, "acme._Account_Stub"⟩ (Stub.method limited.hierarchy (stubName i.name) i.name m) [])
        oneItem = (.error caught, l') ∧
      thrown.className = "acme.BalanceException" ∧
      Rethrown limited.hierarchy m failure thrown left caught l' := by
  have hsome : (closing? limited).isSome = true := by decide +kernel
  obtain ⟨⟨i, ops, m, skeleton⟩, hclosing⟩ := Option.isSome_iff_exists.1 hsome
  have hop : (closing? limited).map (fun (_, _, m, _) =>
      (m.exposed.op.params, m.exposed.failures.application)) =
        some ([], [.named "acme.LimitException"]) := by decide +kernel
  rw [hclosing, Option.map_some, Option.some.injEq, Prod.mk.injEq] at hop
  obtain ⟨hparams, hdeclared⟩ := hop
  obtain ⟨hi, hm, hskeleton⟩ := of_closing? hclosing
  have hrefuse : refuse m.exposed.op.name (Stub.sent limited.hierarchy m [] oneItem).1 =
      .error "acme.BalanceException" := rfl
  obtain ⟨failure, _, thrown, left, caught, l', -, hclass, hrun, -, hrethrown⟩ :=
    call_remote_failure carries_limited hi hm hskeleton 0
      (hparams ▸ callReady_oneItem limited.hierarchy i.name) hrefuse (by decide +kernel)
      (by rw [hdeclared]; decide +kernel) (by decide +kernel) (by rw [hdeclared]; decide +kernel)
  exact ⟨i, ops, m, skeleton, failure, thrown, left.heap, caught, l', hi, hm, hrun, hclass,
    hrethrown⟩

/-! ### Failures that do not arrive -/

/-- A declared failure of the servant, of the given class, arrives as one of another class where
    an account is closed. -/
def Misses (r : Request) (className other : String) : Prop :=
  ∃ i ops m skeleton caught l', r.kind.isRemote = true ∧
    (∃ synthesis, r.blueprints {} = .ok synthesis) ∧ (i, ops) ∈ r.remote {} ∧ m ∈ ops ∧
    r.skeleton? r.hierarchy (r.remote {}) = some skeleton ∧
    CallReady r.hierarchy i.name m.exposed.op.params ⟨2, "acme._Account_Stub"⟩ [] oneItem ∧
    r.hierarchy.isThrowable className = true ∧
    (∃ ty ∈ m.exposed.failures.application, r.hierarchy.isSubtype className ty.name = true) ∧
    exec ((Stub.blueprint r.hierarchy i ops).run
      (environment (r.link skeleton (fun _ _ => .error className) false) 1)
      ⟨2, "acme._Account_Stub"⟩ (Stub.method r.hierarchy (stubName i.name) i.name m) []) oneItem =
        (.error caught, l') ∧
    caught.className = other ∧ other ≠ className

/-- The class of a failure that a run has ended with. -/
def failureClass? : Except ObjectRef Value × Loopback → Option String
  | (.error caught, _) => some caught.className
  | (.ok _, _) => none

/-- A miss can be worked out. -/
theorem misses_of_closing {className other : String}
    (hkind : r.kind.isRemote = true) (hok : (r.blueprints {}).isOk = true)
    (hthrowable : r.hierarchy.isThrowable className = true) (hne : other ≠ className)
    (hclosing : (closing? r).map (fun (i, ops, m, skeleton) => (m.exposed.op.params,
        m.exposed.failures.application.any (r.hierarchy.isSubtype className ·.name),
        failureClass? (exec ((Stub.blueprint r.hierarchy i ops).run
          (environment (r.link skeleton (fun _ _ => .error className) false) 1)
          ⟨2, "acme._Account_Stub"⟩ (Stub.method r.hierarchy (stubName i.name) i.name m) [])
          oneItem))) = some ([], true, some other)) :
    Misses r className other := by
  obtain ⟨⟨i, ops, m, skeleton⟩, hclosing', hvalues⟩ := Option.map_eq_some_iff.1 hclosing
  obtain ⟨hparams, hdeclared, hclass⟩ :
      m.exposed.op.params = [] ∧
      m.exposed.failures.application.any (r.hierarchy.isSubtype className ·.name) = true ∧
      failureClass? (exec ((Stub.blueprint r.hierarchy i ops).run
          (environment (r.link skeleton (fun _ _ => .error className) false) 1)
          ⟨2, "acme._Account_Stub"⟩ (Stub.method r.hierarchy (stubName i.name) i.name m) [])
          oneItem) = some other := by simpa using hvalues
  obtain ⟨hi, hm, hskeleton⟩ := of_closing? hclosing'
  have hsynthesized : ∃ synthesis, r.blueprints {} = .ok synthesis := by
    cases hsyn : r.blueprints {} with
    | ok synthesis => exact ⟨synthesis, rfl⟩
    | error fault =>
      rw [hsyn] at hok
      cases hok
  -- A run that ends with a value has no class of a failure.
  rcases hrun : exec ((Stub.blueprint r.hierarchy i ops).run
      (environment (r.link skeleton (fun _ _ => .error className) false) 1)
      ⟨2, "acme._Account_Stub"⟩ (Stub.method r.hierarchy (stubName i.name) i.name m) [])
      oneItem with ⟨caught | v, l'⟩
  · rw [hrun] at hclass
    exact ⟨i, ops, m, skeleton, caught, l', hkind, hsynthesized, hi, hm, hskeleton,
      hparams ▸ callReady_oneItem r.hierarchy i.name, hthrowable, List.any_eq_true.1 hdeclared,
      hrun, Option.some.inj hclass, hne⟩
  · rw [hrun] at hclass
    cases hclass

/-- Where the conditions do not hold, a declared failure need not reach the caller as one of its
    own class:

    * of two declared classes with the same id, the stub reads the failure as one of the first;
    * a system failure is taken for one of the transport, though it is declared;
    * what is described under the name of a standard class need not fit the protocol;
    * an operation may stand in the place of a method that the stub inherits. -/
theorem misses_failure :
    Misses (closable ["acme.FooException", "acme.FooEx"]
        [.extending "acme.FooException" Known.exception, .extending "acme.FooEx" Known.exception])
      "acme.FooEx" Known.classCastException ∧
    Misses (closable [Known.exception] []) Known.badOperation Known.remoteException ∧
    Misses (closable ["acme.FooException"] [.extending "acme.FooException" Known.exception,
        .extending Known.inputStream Known.object])
      "acme.FooException" Known.classCastException ∧
    Misses (closable ["acme.FooException"] [.extending "acme.FooException" Known.exception]
        [{ name := "_releaseReply", params := [.named Known.portableInputStream],
           throws := [.named "acme.FooException"] }])
      "acme.FooException" "java.lang.StackOverflowError" := by
  refine ⟨misses_of_closing rfl ?_ ?_ ?_ ?_, misses_of_closing rfl ?_ ?_ ?_ ?_,
    misses_of_closing rfl ?_ ?_ ?_ ?_, misses_of_closing rfl ?_ ?_ ?_ ?_⟩ <;> decide +kernel

end Request

end ComponentViews
