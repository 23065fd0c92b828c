import ComponentViews.Proofs.Execution.Stub
import ComponentViews.Proofs.Synthesis.Remote

/-!
# Remote calls

The stub and the skeleton of a request are joined by the loopback environment, on different
sides of the wire. A call of the stub then asks the skeleton for one operation and calls the
servant once, with the arguments as they cross the wire; and what the servant gives comes
back the same way (`Request.call_remote`).

A servant whose failure is a system failure, the order to start over, and not declared, is
called again and again (`StartsOver`). All other servants are called once, whatever they
give.
-/

namespace ComponentViews

open Effect

namespace Loopback

variable {link : Link} {l : Loopback}

/-- The environment of any depth carries requests in some way. -/
theorem exists_environmentWith (link : Link) (depth : Nat) :
    ∃ inner, environment link depth = environmentWith link inner := by
  cases depth with
  | zero => exact ⟨_, rfl⟩
  | succ depth => exact ⟨_, rfl⟩

/-- A stub, known as `this`, is about to be called with `args`. -/
structure CallReady (h : Hierarchy) (interface : String) (params : List Ty) (this : ObjectRef)
    (args : List Value) (l : Loopback) : Prop where
  sound : l.Sound
  fits : l.TargetFits interface
  /-- The stub is an object that there is, and not the target. -/
  stub : this.id ≤ l.heap.lastId
  notTarget : ∀ t, l.target = some t → this.id ≠ t.id
  /-- So are the objects in the arguments. -/
  within : Value.WithinAll l.heap.lastId args
  conforms : Value.ConformsAll h params args

/-- A call has been carried to the servant, which got the arguments `given` when the store
    was `store`, and back to the caller, who gets `r`. -/
structure Carried (link : Link) (interface : String) (m : RemoteOperation) (l : Loopback)
    (args given : List Value) (store : Heap) (r : Except ObjectRef Value) (l' : Loopback) :
    Prop where
  sound : l'.Sound
  fits : l'.TargetFits interface
  requests : l'.requests = l.requests ++ [m.wire.name]
  received : l'.received = l.received ++ [given]
  before : l.heap.Extends store
  after : store.Extends l'.heap
  passed : Heap.PassedAll link.hierarchy l.heap store m.exposed.op.params args given
  void : ∀ v, link.servant m.exposed.op.name given = .ok v → m.exposed.op.result.isVoid = true →
    r = .ok .void
  /-- A result passes as one of its type. -/
  result : ∀ v, link.servant m.exposed.op.name given = .ok v →
    m.exposed.op.result.isVoid = false → v.Conforms link.hierarchy m.exposed.op.result →
    v.Within store.lastId →
    ∃ u, r = .ok u ∧ Heap.Passed link.hierarchy m.exposed.op.result store l'.heap v u
  /-- A failure arrives as one of its own class if it is declared and no system failure, and
      else as one of the remote protocol. -/
  failure : ∀ className, link.servant m.exposed.op.name given = .error className →
    link.hierarchy.isThrowable className = true →
    (m.exposed.failures.application.map Idl.repositoryId).Nodup →
    ∃ e, r = .error e ∧ e.className =
      Stub.callerFailure link.hierarchy m.exposed.failures.application className

end Loopback

namespace Stub

open Loopback

variable {link : Link} {l : Loopback} {m : RemoteOperation}

/-- What the caller gets has been carried both ways. -/
theorem Answers.carried {interface : String} {this : ObjectRef} {args : List Value}
    {w l' : Loopback} {r : Except ObjectRef Value}
    (hready : CallReady link.hierarchy interface (op m).params this args l)
    (hw : Skeleton.Reached interface m.wire.name l w)
    (hsent : (sent link.hierarchy m args l).2.Extends w.heap)
    (ha : Answers link m (sent link.hierarchy m args l).1 w r l') :
    Carried link interface m l args (sent link.hierarchy m args l).1 w.heap r l' where
  sound := ha.later.sound (hw.sound.called _)
  fits t ht := hw.fits t (ha.later.target ▸ ht)
  requests := by
    rw [requests, ha.later.requests, show (w.called _).requestsReversed = w.requestsReversed from
      rfl, hw.requests, List.reverse_cons, requests]
  received := by
    rw [Loopback.received, ha.later.received, show (w.called _).receivedReversed =
      (sent link.hierarchy m args l).1 :: w.receivedReversed from rfl, hw.received,
      List.reverse_cons, Loopback.received]
  before := hw.heap
  after := ha.later.heap
  -- The copies are made before the servant is reached, and stay as they are.
  passed := by
    have hall : Heap.PassedAll link.hierarchy l.heap.next (sent link.hierarchy m args l).2
        (op m).params args (sent link.hierarchy m args l).1 :=
      Heap.passedAll_passAll (Heap.extends_next.sound hready.sound.heap)
        (hready.within.mono (Nat.le_succ _)) hready.conforms.length_eq
    exact hall.mono Heap.extends_next hsent hready.within
  void := ha.void
  result v hgiven hvoid hconforms hwithin := by
    obtain ⟨hp, hbefore, hafter, rfl⟩ := ha.result v hgiven hvoid hconforms
    refine ⟨_, rfl, ?_⟩
    exact (Heap.passed_pass (hbefore.sound hw.sound.heap) (hwithin.mono hbefore.lastId)).mono
      hbefore hafter hwithin
  failure := ha.failure

/-- A stub has no member that begins with an underscore but the one for its ids. -/
theorem ownMethod?_blueprint {h : Hierarchy} {i : Interface} {ops : List RemoteOperation}
    (hops : ∀ m ∈ ops, Text.startsWith "_" m.exposed.op.name = false) {callee : Callee}
    (hname : Text.startsWith "_" callee.name = true) (hids : callee.name ≠ "_ids") :
    (blueprint h i ops).ownMethod? callee = none := by
  have hother : ∀ {name : String}, Text.startsWith "_" name = false →
      (name == callee.name) = false := by
    intro name hno
    rw [beq_eq_false_iff_ne]
    rintro rfl
    rw [hname] at hno
    cases hno
  have hfind : (blueprint h i ops).find? callee.name callee.params = none := by
    rw [Blueprint.find?, List.find?_eq_none]
    simp only [blueprint, List.forall_mem_cons, List.forall_mem_map]
    refine ⟨?_, ?_, fun m hm => ?_⟩
    · have hconstructor : Text.startsWith "_" Known.constructor = false := by decide
      simp [Method.constructorOf, hother hconstructor]
    · simp [Marshalling.idsMethod, Method.ofBody, Ne.symm hids]
    · simp [method, Method.ofBody, hother (hops m hm), op]
  rw [Blueprint.ownMethod?, hfind]
  split <;> rfl

end Stub

namespace Request

open Loopback

/-- How the classes of a request are joined. -/
def link (r : Request) (skeleton : Blueprint) (servant : Servant) (colocated : Bool) : Link :=
  ⟨r.hierarchy, skeleton, servant, colocated⟩

variable {r : Request} {s : Settings} {i : Interface} {ops : List RemoteOperation}
  {m : RemoteOperation} {skeleton : Blueprint} {this : ObjectRef} {args : List Value} {l : Loopback}

/-- A stub on the other side of the wire asks the skeleton, which calls the servant once; and
    what the caller gets is told by what the servant gives. -/
theorem exec_stub (hc : r.Carries s) (hi : (i, ops) ∈ r.remote s) (hm : m ∈ ops)
    (hskeleton : r.skeleton? r.hierarchy (r.remote s) = some skeleton) (servant : Servant)
    (depth : Nat) (hready : CallReady r.hierarchy i.name m.exposed.op.params this args l)
    (hagain : ∀ className,
      servant m.exposed.op.name (Stub.sent r.hierarchy m args l).1 = .error className →
        ¬ Stub.StartsOver r.hierarchy m.exposed.failures.application className) :
    ∃ w out l', Skeleton.Reached i.name m.wire.name l w ∧
      (Stub.sent r.hierarchy m args l).2.Extends w.heap ∧
      Stub.Answers (r.link skeleton servant false) m (Stub.sent r.hierarchy m args l).1 w out l' ∧
      exec ((Stub.blueprint r.hierarchy i ops).run
        (environment (r.link skeleton servant false) (depth + 1)) this
        (Stub.method r.hierarchy (stubName i.name) i.name m) args) l = (out, l') := by
  obtain ⟨hnames, rfl⟩ := hc.skeleton_eq hi hskeleton
  let skeleton := Skeleton.blueprint r.hierarchy r.skeletonName i.name
    (ops.map fun op => ⟨i.name, op⟩)
  obtain ⟨inner, hinner⟩ := exists_environmentWith (r.link skeleton servant false) depth
  have hjoined : Stub.Joined ((Stub.blueprint r.hierarchy i ops).activation
      (environmentWith (r.link skeleton servant false) (exchange (r.link skeleton servant false)
        (environmentWith (r.link skeleton servant false) inner))) this 63 args)
      (r.link skeleton servant false) inner i.name m l :=
    { keeps := keepsStandard_hierarchy hc.keepsStandard
      skeleton := ⟨_, List.mem_map_of_mem hm, by rwa [List.map_map], rfl⟩
      calls := ⟨rfl, fun callee hname hids => by
        show ((Stub.blueprint r.hierarchy i ops).ownMethod? callee).map _ = none
        rw [Stub.ownMethod?_blueprint (hc.named _ hi) hname hids]
        rfl, hready.stub, hready.notTarget⟩
      sound := hready.sound
      fits := hready.fits
      conforms := hready.conforms
      notAgain := hagain }
  obtain ⟨w, out, l', hw, hsent, hanswers, hrun⟩ := Stub.exec_method (stubName i.name) hjoined rfl
  refine ⟨w, out, l', hw, hsent, hanswers, ?_⟩
  rw [environment, hinner]
  exact hrun

/-- A call of a stub on the other side of the wire is carried to the servant, which is called
    once, and back. -/
theorem call_remote (hc : r.Carries s) (hi : (i, ops) ∈ r.remote s) (hm : m ∈ ops)
    (hskeleton : r.skeleton? r.hierarchy (r.remote s) = some skeleton) (servant : Servant)
    (depth : Nat) (hready : CallReady r.hierarchy i.name m.exposed.op.params this args l)
    (hagain : ∀ given className, servant m.exposed.op.name given = .error className →
      ¬ Stub.StartsOver r.hierarchy m.exposed.failures.application className) :
    ∃ given store out l',
      exec ((Stub.blueprint r.hierarchy i ops).run
        (environment (r.link skeleton servant false) (depth + 1)) this
        (Stub.method r.hierarchy (stubName i.name) i.name m) args) l = (out, l') ∧
      Carried (r.link skeleton servant false) i.name m l args given store out l' := by
  obtain ⟨w, out, l', hw, hsent, hanswers, hrun⟩ :=
    exec_stub hc hi hm hskeleton servant depth hready (hagain _)
  exact ⟨_, w.heap, out, l', hrun, hanswers.carried hready hw hsent⟩

/-- A business view of an account: items are renamed, and accounts closed. -/
def account : Request where
  component := "Account"
  kind := .businessRemote
  interfaces := [{
    name := "acme.Account"
    parents := [Known.remote]
    methods := [
      { name := "close" },
      { name := "rename", params := [.string, .named "acme.Item"],
        result := .named "acme.Item" }] }]
  bean := {
    className := "acme.AccountBean"
    methods := [
      { name := "close" },
      { name := "rename", params := [.string, .named "acme.Item"], result := .named "acme.Item" }] }
  types := [
    .extending "acme.Item" Known.object [Known.serializable],
    .extending "acme.Again" Known.systemException [Known.remarshalException]]

theorem carries_account : account.Carries {} where
  isRemote := rfl
  keepsStandard := by decide +kernel
  synthesized := by
    have hok : (account.blueprints {}).isOk = true := by decide +kernel
    cases hsyn : account.blueprints {} with
    | ok synthesis => exact ⟨synthesis, rfl⟩
    | error fault =>
      rw [hsyn] at hok
      cases hok
  named := by decide +kernel

theorem exists_account (name : String) (params : List Ty)
    (hop : (account.remote {}).any (fun p => p.2.any fun m =>
      m.exposed.op.name == name && m.exposed.op.params == params) = true) :
    ∃ i ops m, (i, ops) ∈ account.remote {} ∧ m ∈ ops ∧ m.exposed.op.name = name ∧
      m.exposed.op.params = params := by
  obtain ⟨⟨i, ops⟩, hi, hop⟩ := List.any_eq_true.1 hop
  obtain ⟨m, hm, hop⟩ := List.any_eq_true.1 hop
  rw [Bool.and_eq_true, beq_iff_eq, beq_iff_eq] at hop
  exact ⟨i, ops, m, hi, hm, hop⟩

/-- A state with an item and a stub. -/
def oneItem : Loopback := { heap := { lastId := 2, slots := [⟨1, "name", .string "Giro"⟩] } }

theorem sound_oneItem : oneItem.Sound where
  heap := by simp [oneItem, Heap.Sound]
  streams _ hp := absurd hp List.not_mem_nil
  failureReplies _ hid := absurd hid List.not_mem_nil
  tie _ ho := nomatch ho
  target _ ho := nomatch ho
  apart _ _ ho := nomatch ho

/-- In the state, a stub's method without parameters may be called. -/
theorem callReady_oneItem (h : Hierarchy) (interface : String) :
    CallReady h interface [] ⟨2, "acme._Account_Stub"⟩ [] oneItem :=
  ⟨sound_oneItem, fun _ ht => (nomatch ht), le_rfl, fun _ ht => (nomatch ht),
    fun id hid => absurd hid (by simp), .nil⟩

/-- A servant that gives back its second argument. -/
def echoItem : Servant := fun _ args => .ok (args.getD 1 .null)

/-- An item that is renamed is copied twice: the servant gets a copy, and the caller gets a
    copy of that. -/
theorem call_remote_rename : ∃ i ops m skeleton given store out l',
    (i, ops) ∈ account.remote {} ∧ m ∈ ops ∧ m.exposed.op.name = "rename" ∧
      exec ((Stub.blueprint account.hierarchy i ops).run
        (environment (account.link skeleton echoItem false) 1) ⟨2, "acme._Account_Stub"⟩
        (Stub.method account.hierarchy (stubName i.name) i.name m)
        [.string "Savings", .object ⟨1, "acme.Item"⟩]) oneItem = (out, l') ∧
      Carried (account.link skeleton echoItem false) i.name m oneItem
        [.string "Savings", .object ⟨1, "acme.Item"⟩] given store out l' := by
  obtain ⟨i, ops, m, hi, hm, hname, hparams⟩ :=
    exists_account "rename" [.string, .named "acme.Item"] (by decide +kernel)
  obtain ⟨skeleton, hskeleton⟩ := carries_account.exists_skeleton
  have hready : CallReady account.hierarchy i.name m.exposed.op.params ⟨2, "acme._Account_Stub"⟩
      [.string "Savings", .object ⟨1, "acme.Item"⟩] oneItem := by
    refine ⟨sound_oneItem, by simp [TargetFits, oneItem], le_rfl, by simp [oneItem], ?_, ?_⟩
    · simp [Value.WithinAll, Value.ids, oneItem]
    · rw [hparams]
      refine .cons ⟨by simp, by simp⟩ (.cons ⟨?_, ?_⟩ .nil)
      · rintro o ⟨⟩ -
        exact Hierarchy.isSubtype_refl _ _
      · rintro o ⟨⟩ -
        decide +kernel
  obtain ⟨given, store, out, l', hrun, hcarried⟩ := call_remote carries_account hi hm hskeleton
    echoItem 0 hready (by simp [echoItem])
  exact ⟨i, ops, m, skeleton, given, store, out, l', hi, hm, hname, hrun, hcarried⟩

/-- How often the servant is called where an account is closed. -/
def closings (servant : Servant) (i : Interface) (ops : List RemoteOperation)
    (m : RemoteOperation) (skeleton : Blueprint) : Nat :=
  (exec ((Stub.blueprint account.hierarchy i ops).run
    (environment (account.link skeleton servant false) 1) ⟨2, "acme._Account_Stub"⟩
    (Stub.method account.hierarchy (stubName i.name) i.name m) []) oneItem).2.received.length

/-- The closing of accounts, and the skeleton. -/
def closing? (r : Request) :
    Option (Interface × List RemoteOperation × RemoteOperation × Blueprint) := do
  let (i, ops) ← (r.remote {}).head?
  return (i, ops, ← ops.find? (·.exposed.op.name == "close"),
    ← r.skeleton? r.hierarchy (r.remote {}))

theorem of_closing? {r : Request} {i : Interface} {ops : List RemoteOperation} {m : RemoteOperation}
    {skeleton : Blueprint} (hclosing : closing? r = some (i, ops, m, skeleton)) :
    (i, ops) ∈ r.remote {} ∧ m ∈ ops ∧
      r.skeleton? r.hierarchy (r.remote {}) = some skeleton := by
  simp only [closing?, Option.bind_eq_bind, Option.bind_eq_some_iff, Option.pure_def,
    Option.some.injEq] at hclosing
  obtain ⟨⟨i, ops⟩, hi, m', hm, skeleton', hskeleton, heq⟩ := hclosing
  cases heq
  exact ⟨List.mem_of_mem_head? hi, List.mem_of_find?_eq_some hm, hskeleton⟩

/-- A failure that is the order to start over has to be excluded: the servant is called until
    the stub may not call itself again. -/
theorem call_remote_again : ¬ ∀ (r : Request) (s : Settings) (i : Interface)
    (ops : List RemoteOperation) (m : RemoteOperation) (skeleton : Blueprint) (servant : Servant)
    (this : ObjectRef) (args : List Value) (l : Loopback), r.Carries s → (i, ops) ∈ r.remote s →
    m ∈ ops → r.skeleton? r.hierarchy (r.remote s) = some skeleton →
    CallReady r.hierarchy i.name m.exposed.op.params this args l →
    ∃ given out l', exec ((Stub.blueprint r.hierarchy i ops).run
        (environment (r.link skeleton servant false) 1) this
        (Stub.method r.hierarchy (stubName i.name) i.name m) args) l = (out, l') ∧
      l'.received = l.received ++ [given] := by
  intro hall
  have hsome : (closing? account).isSome = true := by decide +kernel
  obtain ⟨⟨i', ops', m, skeleton⟩, hclosing⟩ := Option.isSome_iff_exists.1 hsome
  have hcount : (closing? account).map (fun (i, ops, m, skeleton) =>
      closings (fun _ _ => .error "acme.Again") i ops m skeleton) = some 64 := by decide +kernel
  have hparams : (closing? account).map (fun (_, _, m, _) => m.exposed.op.params) = some [] := by
    decide +kernel
  rw [hclosing] at hcount hparams
  obtain ⟨hi, hm, hskeleton⟩ := of_closing? hclosing
  have hready : CallReady account.hierarchy i'.name m.exposed.op.params ⟨2, "acme._Account_Stub"⟩
      [] oneItem := by
    rw [show m.exposed.op.params = [] from Option.some.inj hparams]
    exact callReady_oneItem _ _
  obtain ⟨given, out, l', hrun, hreceived⟩ := hall account {} i' ops' m skeleton
    (fun _ _ => .error "acme.Again") _ _ _ carries_account hi hm hskeleton hready
  have hlength : l'.received.length = 64 := by
    have hcount : closings (fun _ _ => .error "acme.Again") i' ops' m skeleton = 64 :=
      Option.some.inj hcount
    rwa [closings, hrun] at hcount
  rw [hreceived] at hlength
  cases hlength

end Request

end ComponentViews
