import ComponentViews.Proofs.Execution.Skeleton

/-!
# Requests to the skeleton

A request stream whose operation is known goes to the skeleton, and what the skeleton
answers comes back as a stream or as a failure. `Outcome` tells what can come back, by what
the servant has given:

* a reply without a result, or with the result as it passes the wire;
* an application failure whose stream holds the id of the declared failure, and the failure;
* a system failure.
-/

namespace ComponentViews

namespace Loopback

open Effect

variable {l : Loopback}

/-! ### Delivering replies -/

/-- A reply that is not one of failure is read from a new stream. -/
theorem exec_deliver {q : Nat} {c : String} {cs : List Value} {rest : List (Nat × List Value)}
    (hs : l.Holds q cs rest) (hq : q ∉ l.failureReplies) :
    exec (deliver (.object ⟨q, c⟩)) l =
      (.ok (.object ⟨l.heap.lastId + 1, Known.portableInputStream⟩),
        { l with heap := l.heap.next, streams := (l.heap.lastId + 1, cs) :: rest }) := by
  have hcontains : l.failureReplies.contains q = false := by simpa using hq
  simp only [deliver, Value.object?]
  rw [exec_bind_ok (exec_closeStream hs), exec_bind_ok exec_openStream, exec_bind_ok exec_get]
  simp only [hcontains, Bool.false_eq_true, if_false, exec_pure]

/-- A reply of failure comes as a failure that has the new stream. -/
theorem exec_deliver_failure {q : Nat} {c : String} {cs : List Value}
    {rest : List (Nat × List Value)} (hs : l.Holds q cs rest) (hq : q ∈ l.failureReplies) :
    exec (deliver (.object ⟨q, c⟩)) l =
      (.error ⟨l.heap.lastId + 2, Known.applicationException⟩,
        { l with
          heap := l.heap.next.next.setSlot ⟨l.heap.lastId + 2, Known.applicationException⟩ "stream"
            (.object ⟨l.heap.lastId + 1, Known.portableInputStream⟩)
          streams := (l.heap.lastId + 1, cs) :: rest
          failureReplies := l.failureReplies.filter (· != q) }) := by
  have hcontains : l.failureReplies.contains q = true := by simpa using hq
  simp only [deliver, Value.object?]
  rw [exec_bind_ok (exec_closeStream hs), exec_bind_ok exec_openStream, exec_bind_ok exec_get]
  simp only [hcontains, if_true]
  rfl

/-- The state after a reply of failure. -/
theorem Holds.later_failure {q : Nat} {cs : List Value}
    {rest : List (Nat × List Value)} (hs : l.Holds q cs rest) : l.Later { l with
      heap := l.heap.next.next.setSlot ⟨l.heap.lastId + 2, Known.applicationException⟩ "stream"
        (.object ⟨l.heap.lastId + 1, Known.portableInputStream⟩)
      streams := (l.heap.lastId + 1, cs) :: rest
      failureReplies := l.failureReplies.filter (· != q) } := by
  have hopen : l.Later { l with
      heap := l.heap.next, streams := (l.heap.lastId + 1, cs) :: rest } :=
    hs.later_close.trans (later_opened (l := { l with streams := rest }) cs)
  have hslot : l.Later { l with
      heap := l.heap.next.next.setSlot ⟨l.heap.lastId + 2, Known.applicationException⟩ "stream"
        (.object ⟨l.heap.lastId + 1, Known.portableInputStream⟩)
      streams := (l.heap.lastId + 1, cs) :: rest } :=
    hopen.trans (later_withHeap (Heap.extends_setSlot_next l.heap.next _ _ _))
  exact hslot.trans (later_failureReplies fun id hid => .inl (List.mem_of_mem_filter hid))

end Loopback

namespace Skeleton

open Effect Loopback Activation Marshalling

variable {link : Link} {ask : Option Value → Effect Loopback Value} {m : Served}
  {args : List Value} {l l' w : Loopback}

/-- The failure that a handler is left with when the servant has been called in the state `w`,
    and the state then: the servant's failure, or that of a result that cannot be written. -/
inductive Cause (link : Link) (m : Served) (args : List Value) (w : Loopback)
    (thrown : ObjectRef) : Loopback → Prop where
  | servant (given : link.servant m.operation.exposed.op.name args = .error thrown.className)
      (new : thrown.id = w.heap.lastId + 1) :
      Cause link m args w thrown { w.called args with heap := w.heap.next }
  | result {v : Value} {l : Loopback}
      (given : link.servant m.operation.exposed.op.name args = .ok v)
      (notVoid : m.operation.exposed.op.result.isVoid = false)
      (unwritten : written link.hierarchy m.operation.exposed.op.result v = none)
      (className : thrown.className = Known.classCastException)
      (later : (w.called args).Later l) : Cause link m args w thrown l

theorem Cause.later {thrown : ObjectRef} (hc : Cause link m args w thrown l) :
    (w.called args).Later l := by
  cases hc with
  | servant _ _ => exact later_withHeap Heap.extends_next
  | result _ _ _ _ hlater => exact hlater

/-- What comes back for a request for which the servant is called in the state `w`. -/
inductive Outcome (link : Link) (m : Served) (args : List Value) (w : Loopback) :
    Except ObjectRef Value → Loopback → Prop where
  /-- A reply without a result. -/
  | void {v : Value} {l : Loopback} {a : Nat} {rest : List (Nat × List Value)}
      (given : link.servant m.operation.exposed.op.name args = .ok v)
      (isVoid : m.operation.exposed.op.result.isVoid = true) (later : (w.called args).Later l)
      (fresh : w.heap.lastId < a) (holds : l.Holds a [] rest) :
      Outcome link m args w (.ok (.object ⟨a, Known.portableInputStream⟩)) l
  /-- A reply with a result. -/
  | result {v u : Value} {l : Loopback} {hp : Heap} {a : Nat} {rest : List (Nat × List Value)}
      (given : link.servant m.operation.exposed.op.name args = .ok v)
      (notVoid : m.operation.exposed.op.result.isVoid = false)
      (written : written link.hierarchy m.operation.exposed.op.result v = some u)
      (before : w.heap.Extends hp)
      (after : (hp.pass link.hierarchy m.operation.exposed.op.result u).2.Extends l.heap)
      (later : (w.called args).Later l) (fresh : w.heap.lastId < a)
      (holds : l.Holds a [(hp.pass link.hierarchy m.operation.exposed.op.result u).1] rest) :
      Outcome link m args w (.ok (.object ⟨a, Known.portableInputStream⟩)) l
  /-- A declared failure. -/
  | failure {thrown e : ObjectRef} {u : Value} {failure : Ty} {left l : Loopback} {a : Nat}
      {rest : List (Nat × List Value)} (cause : Cause link m args w thrown left)
      (declared : declared? link.hierarchy m.operation.exposed.failures.application thrown =
        some failure)
      (written : written link.hierarchy failure (.object thrown) = some u)
      (after : (left.heap.next.pass link.hierarchy failure u).2.Extends l.heap)
      (later : (w.called args).Later l) (fresh : w.heap.lastId < a) (freshFailure : a < e.id)
      (className : e.className = Known.applicationException)
      (stream : l.heap.slot? e "stream" = some (.object ⟨a, Known.portableInputStream⟩))
      (holds : l.Holds a [.string (Idl.repositoryId failure),
        (left.heap.next.pass link.hierarchy failure u).1] rest) :
      Outcome link m args w (.error e) l
  /-- A failure that nobody has declared, as one of the system. -/
  | unknown {thrown e : ObjectRef} {left l : Loopback} (cause : Cause link m args w thrown left)
      (undeclared : ∀ failure, declared? link.hierarchy m.operation.exposed.failures.application
        thrown = some failure → written link.hierarchy failure (.object thrown) = none)
      (className : e.className = Known.unknownException) (later : (w.called args).Later l)
      (fresh : w.heap.lastId < e.id) :
      Outcome link m args w (.error e) l
  /-- A system failure of the servant that nobody has declared, as it is. -/
  | system {className : String}
      (given : link.servant m.operation.exposed.op.name args = .error className)
      (isSystem : link.hierarchy.isSubtype className Known.systemException = true)
      (undeclared : declared? link.hierarchy m.operation.exposed.failures.application
        ⟨w.heap.lastId + 1, className⟩ = none) :
      Outcome link m args w (.error ⟨w.heap.lastId + 1, className⟩)
        { w.called args with heap := w.heap.next }

/-- What comes back of a call that has not failed is a stream. -/
theorem Outcome.exists_stream {out : Except ObjectRef Value} {v : Value}
    (ho : Outcome link m args w out l) (hv : out = .ok v) :
    ∃ a, v = .object ⟨a, Known.portableInputStream⟩ := by
  cases ho <;> first | exact ⟨_, (Except.ok.inj hv).symm⟩ | cases hv

/-- What comes back of what the skeleton answers. -/
def delivered (r : Except ObjectRef Value × Loopback) : Except ObjectRef Value × Loopback :=
  match r with
  | (.ok v, l) => exec (deliver v) l
  | (.error thrown, l) => (.error thrown, l)

section Failures

variable {thrown : ObjectRef} {failure : Ty} (hw : w.Sound) (hcause : Cause link m args w thrown l)
  (hcast : link.hierarchy.isSubtype Known.classCastException Known.systemException = false)

/-- The state in which the reply for a declared failure is written: the number of its stream
    stands for a reply of failure. -/
def failing (l : Loopback) : Loopback :=
  { l with failureReplies := (l.heap.lastId + 1) :: l.failureReplies }

theorem later_sendFailure {h : Hierarchy} {v : Value} {first : List Value} :
    l.Later (send h failure v first (failing l)).2 :=
  later_send fun _ hid => (List.mem_cons.1 hid).elim (fun h => .inr h.le) .inl

include hcause hcast in
/-- A failure that nobody has declared comes back as it is if it is one of the system's, and else
    as an unknown one. -/
theorem outcome_of_undeclared
    (hdeclared : declared? link.hierarchy m.operation.exposed.failures.application thrown = none) :
    Outcome link m args w (delivered (system link.hierarchy thrown l)).1
      (delivered (system link.hierarchy thrown l)).2 := by
  rw [system]
  split
  · rename_i hsystem
    obtain ⟨id, className⟩ := thrown
    cases hcause with
    | servant hgiven hid =>
      cases hid
      exact .system hgiven hsystem hdeclared
    | result _ _ _ hclass _ =>
      cases hclass
      cases hcast.symm.trans hsystem
  · exact .unknown hcause (fun failure hfailure => by rw [hdeclared] at hfailure; cases hfailure)
      rfl (hcause.later.trans (later_withHeap Heap.extends_next))
      (Nat.lt_succ_of_le hcause.later.heap.lastId)

include hw hcause in
/-- A declared failure comes back as a reply of failure with its id and what was written of it. -/
theorem outcome_of_written {u : Value}
    (hdeclared : declared? link.hierarchy m.operation.exposed.failures.application thrown =
      some failure)
    (hwritten : written link.hierarchy failure (.object thrown) = some u) :
    let r := delivered (recover (system link.hierarchy) (send link.hierarchy failure
      (.object thrown) [.string (Idl.repositoryId failure)] (failing l)))
    Outcome link m args w r.1 r.2 := by
  have hl := hcause.later
  have hsound := hl.sound (hw.called args)
  have hsend : l.Later (send link.hierarchy failure (.object thrown)
      [.string (Idl.repositoryId failure)] (failing l)).2 := later_sendFailure
  let sent : Loopback := { failing l with
    heap := (l.heap.next.pass link.hierarchy failure u).2
    streams := (l.heap.lastId + 1, [.string (Idl.repositoryId failure),
      (l.heap.next.pass link.hierarchy failure u).1]) :: l.streams }
  have hsent : send link.hierarchy failure (.object thrown) [.string (Idl.repositoryId failure)]
      (failing l) = (.ok (.object ⟨l.heap.lastId + 1, Known.outputStream⟩), sent) := by
    rw [send, hwritten]
    rfl
  rw [hsent] at hsend ⊢
  have hholds : sent.Holds (l.heap.lastId + 1) [.string (Idl.repositoryId failure),
      (l.heap.next.pass link.hierarchy failure u).1] l.streams :=
    ⟨rfl, (hsound.holds_open []).others⟩
  have hlast : w.heap.lastId ≤ sent.heap.lastId := hl.heap.lastId.trans hsend.heap.lastId
  rw [recover, delivered, exec_deliver_failure hholds List.mem_cons_self]
  exact .failure hcause hdeclared hwritten hholds.later_failure.heap
    (hl.trans (hsend.trans hholds.later_failure))
    (Nat.lt_succ_of_le hlast) (Nat.lt_succ_self _) rfl (Heap.slot?_setSlot _ _ _)
    ⟨rfl, ((hholds.later_close.sound (hsend.sound hsound)).holds_open []).others⟩

include hcause hcast in
/-- The reply for a declared failure that cannot be written fails itself, in a way that is
    nobody's. -/
theorem outcome_of_unwritten
    (hdeclared : declared? link.hierarchy m.operation.exposed.failures.application thrown =
      some failure)
    (hwritten : written link.hierarchy failure (.object thrown) = none) :
    let r := delivered (recover (system link.hierarchy) (send link.hierarchy failure
      (.object thrown) [.string (Idl.repositoryId failure)] (failing l)))
    Outcome link m args w r.1 r.2 := by
  have hl := hcause.later
  have hlast : w.heap.lastId ≤ l.heap.lastId := hl.heap.lastId
  have hsend : l.Later (send link.hierarchy failure (.object thrown)
      [.string (Idl.repositoryId failure)] (failing l)).2 := later_sendFailure
  simp only [send, hwritten] at hsend ⊢
  rw [recover, system, hcast, if_neg Bool.false_ne_true]
  refine .unknown hcause (fun failure' hfailure => ?_) rfl
    (hl.trans (hsend.trans (later_withHeap Heap.extends_next))) ?_
  · rw [hdeclared] at hfailure
    cases hfailure
    exact hwritten
  · simp only [failing, Heap.lastId_next]
    omega

include hw hcause hcast in
/-- A failure that the handlers are left with comes back as one of the outcomes. -/
theorem outcome_of_cause :
    let r := delivered (recover (system link.hierarchy)
      (replyFailure link.hierarchy m.operation.exposed.failures.application thrown l))
    Outcome link m args w r.1 r.2 := by
  rw [replyFailure]
  cases hdeclared : declared? link.hierarchy m.operation.exposed.failures.application thrown with
  | none => exact outcome_of_undeclared hcause hcast hdeclared
  | some failure =>
    cases hwritten : written link.hierarchy failure (.object thrown) with
    | some u => exact outcome_of_written hw hcause hdeclared hwritten
    | none => exact outcome_of_unwritten hcause hcast hdeclared hwritten

end Failures

/-- A reply that is not one of failure comes back as a stream with the same contents. -/
theorem exists_delivered {q : Nat} {c : String} {cs : List Value} {rest : List (Nat × List Value)}
    (hl : l.Sound) (hs : l.Holds q cs rest) (hq : q ∉ l.failureReplies) :
    ∃ a l', delivered (.ok (.object ⟨q, c⟩), l) =
        (.ok (.object ⟨a, Known.portableInputStream⟩), l') ∧
      l.Later l' ∧ l.heap.lastId < a ∧ l'.Holds a cs rest :=
  ⟨l.heap.lastId + 1, _, exec_deliver hs hq,
    hs.later_close.trans (later_opened (l := { l with streams := rest }) cs), Nat.lt_succ_self _,
    (hs.later_close.sound hl).holds_open cs⟩

/-- The number of a new stream does not stand for a reply of failure. -/
theorem notMem_failureReplies (hl : l.Sound) : l.heap.lastId + 1 ∉ l.failureReplies := by
  intro hmem
  have := hl.failureReplies _ hmem
  omega

/-- What comes back when the servant has been called is one of the outcomes. -/
theorem outcome_answered (link : Link) (m : Served) (args : List Value) (hw : w.Sound)
    (hcast : link.hierarchy.isSubtype Known.classCastException Known.systemException = false) :
    Outcome link m args w (delivered (answered link m args w)).1
      (delivered (answered link m args w)).2 := by
  have hcalled := hw.called args
  have hplain : (w.called args).heap.lastId + 1 ∉ (w.called args).failureReplies :=
    notMem_failureReplies hcalled
  rw [answered, handled, served]
  cases hgiven : link.servant m.operation.exposed.op.name args with
  | error className =>
    exact outcome_of_cause hw (.servant hgiven rfl) hcast
  | ok v =>
    simp only [proceed]
    have hreply := later_reply (h := link.hierarchy) (l := w.called args)
      m.operation.exposed.op.result v
    have hsound := hreply.sound hcalled
    rw [reply] at hreply hsound ⊢
    cases hvoid : m.operation.exposed.op.result.isVoid with
    | true =>
      rw [hvoid, if_pos rfl] at hreply hsound
      rw [if_pos rfl, recover, recover]
      obtain ⟨a, l', hdelivered, hlater, ha, hholds⟩ := exists_delivered
        (c := Known.outputStream) hsound (hcalled.holds_open []) hplain
      rw [hdelivered]
      exact .void hgiven hvoid (hreply.trans hlater) (hreply.heap.lastId.trans_lt ha) hholds
    | false =>
      rw [hvoid, if_neg Bool.false_ne_true, send] at hreply hsound
      rw [if_neg Bool.false_ne_true, send]
      -- A result that cannot be cast for the stream is a failure of the skeleton.
      cases hwritten : written link.hierarchy m.operation.exposed.op.result v with
      | some u =>
        simp only [hwritten] at hreply hsound
        obtain ⟨a, l', hdelivered, hlater, ha, hholds⟩ := exists_delivered
          (c := Known.outputStream) hsound ⟨rfl, (hcalled.holds_open []).others⟩ hplain
        simp only [recover]
        rw [hdelivered]
        exact .result hgiven hvoid hwritten Heap.extends_next hlater.heap (hreply.trans hlater)
          (hreply.heap.lastId.trans_lt ha) hholds
      | none =>
        simp only [hwritten] at hreply
        exact outcome_of_cause hw (.result hgiven hvoid hwritten rfl hreply) hcast

/-! ### Requests -/

/-- The state in which the servant is called: the skeleton has been asked for one operation
    more, and the servant has not been called since. -/
structure Reached (interface operation : String) (l w : Loopback) : Prop where
  sound : w.Sound
  heap : l.heap.Extends w.heap
  target : ∃ t, w.target = some t ∧ (l.target = some t ∨ l.heap.lastId < t.id)
  fits : w.TargetFits interface
  requests : w.requestsReversed = operation :: l.requestsReversed
  received : w.receivedReversed = l.receivedReversed

/-- What has been reached from a later state has been reached from the state before it. -/
theorem Reached.of_later {interface operation : String} {l l' w : Loopback}
    (hw : Reached interface operation l' w) (hl : l.Later l') :
    Reached interface operation l w := by
  obtain ⟨t, ht, hold⟩ := hw.target
  refine ⟨hw.sound, hl.heap.trans hw.heap, ⟨t, ht, ?_⟩, hw.fits, hl.requests ▸ hw.requests,
    hl.received ▸ hw.received⟩
  exact hold.imp (hl.target ▸ ·) hl.heap.lastId.trans_lt

/-- The state once a request has been taken from the stream `k`: its arguments are in a new
    stream, and there is a response handler. -/
def taken (l : Loopback) (operation : String) (k : Nat) (args : List Value)
    (rest : List (Nat × List Value)) : Loopback :=
  { l with
    heap := l.heap.next.next
    operations := l.operations.filter (·.1 != k)
    streams := (l.heap.lastId + 1, args) :: rest
    requestsReversed := operation :: l.requestsReversed }

section Requests

variable {target operation : String} {k : Nat} {c : String} {rest : List (Nat × List Value)}
  {tie : ObjectRef} {hp : Heap}

theorem sound_taken (hl : l.Sound) (hs : l.Holds k args rest) :
    (taken l operation k args rest).Sound :=
  let h := ((hs.later_close.sound hl).opened args).withHeap Heap.extends_next
  ⟨h.heap, h.streams, h.failureReplies, h.tie, h.target, h.apart⟩

/-- The skeleton is asked on its own instance: neither the stream nor the handler is this, or the
    target. -/
theorem asked_taken (hl : l.Sound) (hfits : l.TargetFits target) (hs : l.Holds k args rest)
    (hinterface : m.interface = target)
    (hargs : Value.ConformsAll link.hierarchy m.operation.exposed.op.params args)
    (hext : (taken l operation k args rest).heap.Extends hp)
    (hsound : { taken l operation k args rest with heap := hp, tie := some tie }.Sound)
    (hold : l.tie = some tie ∨
      tie = ⟨(taken l operation k args rest).heap.lastId + 1, link.skeleton.name⟩) :
    Asked link tie link.skeleton.name target m (l.heap.lastId + 1) (l.heap.lastId + 2) args rest
      { taken l operation k args rest with heap := hp, tie := some tie } := by
  have hlast : l.heap.lastId + 2 ≤ hp.lastId := hext.lastId
  -- The stream and the handler have new numbers, those of the tie and the target are old, or newer
  -- still.
  have hnew : ∀ id, l.heap.lastId < id → id ≤ l.heap.lastId + 2 →
      id ≠ tie.id ∧ ∀ t, l.target = some t → id ≠ t.id := by
    intro id hlow hhigh
    refine ⟨?_, fun t ht => ?_⟩
    · rcases hold with hold | rfl
      · have := hl.tie tie hold
        omega
      · show id ≠ l.heap.lastId + 2 + 1
        omega
    · have := hl.target t ht
      omega
  exact {
    sound := hsound
    tied := rfl
    unit := rfl
    fits := hfits
    interface := hinterface
    input := hnew _ (by omega) (by omega)
    inputOld := by show l.heap.lastId + 1 ≤ hp.lastId; omega
    handler := hnew _ (by omega) (by omega)
    handlerOld := hlast
    holds := ⟨rfl, ((hs.later_close.sound hl).holds_open args).others⟩
    conforms := hargs }

/-- A request is taken from its stream, and the instance of the skeleton is asked. -/
theorem exec_exchange_eq (ask : Option Value → Effect Loopback Value) (hs : l.Holds k args rest)
    (hop : l.operations.lookup k = some operation)
    (htie : exec (tieObject link) (taken l operation k args rest) =
      (.ok tie, { taken l operation k args rest with heap := hp, tie := some tie })) :
    exec (exchange link (environmentWith link ask) (some (.object ⟨k, c⟩))) l =
      delivered (exec (link.skeleton.call (environmentWith link ask) tie "_invoke"
        [.string operation, .object ⟨l.heap.lastId + 1, Known.inputStream⟩,
          .object ⟨l.heap.lastId + 2, Known.responseHandler⟩])
        { taken l operation k args rest with heap := hp, tie := some tie }) := by
  have hclose : exec (closeStream ⟨k, c⟩)
      { l with operations := l.operations.filter (·.1 != k) } =
      (.ok args, { l with operations := l.operations.filter (·.1 != k), streams := rest }) :=
    exec_closeStream ⟨hs.streams, hs.others⟩
  simp only [exchange, Option.bind_some, Value.object?]
  rw [exec_bind_ok exec_get, hop, Option.getD_some, exec_bind_ok exec_modify,
    exec_bind_ok hclose, exec_bind_ok exec_modify, exec_bind_ok exec_openStream,
    exec_bind_ok exec_onHeap]
  refine (exec_bind_ok htie).trans ?_
  generalize hcall : exec (link.skeleton.call _ _ _ _) _ = r
  rcases r with ⟨thrown | v, l'⟩
  · exact exec_bind_error hcall
  · exact exec_bind_ok hcall

end Requests

/-- A request for an operation calls the servant once, with what the request stream holds,
    and what comes back is one of the outcomes. -/
theorem exec_exchange (ask : Option Value → Effect Loopback Value) {target : String}
    {methods : List Served} (hm : m ∈ methods)
    (hnames : (methods.map (·.operation.wire.name)).Nodup)
    (hskeleton : link.skeleton = blueprint link.hierarchy link.skeleton.name target methods)
    (hinterface : m.interface = target)
    (hcast : link.hierarchy.isSubtype Known.classCastException Known.systemException = false)
    (hl : l.Sound) (hfits : l.TargetFits target) {k : Nat} {c : String}
    {rest : List (Nat × List Value)} (hs : l.Holds k args rest)
    (hop : l.operations.lookup k = some m.operation.wire.name)
    (hargs : Value.ConformsAll link.hierarchy m.operation.exposed.op.params args) :
    ∃ w out l', Reached target m.operation.wire.name l w ∧ Outcome link m args w out l' ∧
      exec (exchange link (environmentWith link ask) (some (.object ⟨k, c⟩))) l = (out, l') := by
  have htaken : (taken l m.operation.wire.name k args rest).Sound := sound_taken hl hs
  obtain ⟨tie, hp, htie, hext, hsound, hold⟩ := exec_tieObject link htaken
  have hready := asked_taken (m := m) hl hfits hs hinterface hargs hext hsound hold
  obtain ⟨w, hw, hcall⟩ := exec_call ask hm hnames hskeleton hready
  have hlast : l.heap.lastId + 2 ≤ hp.lastId := hext.lastId
  refine ⟨w, (delivered (answered link m args w)).1, (delivered (answered link m args w)).2, ?_,
    outcome_answered link m args hw.sound hcast,
    (exec_exchange_eq ask hs hop htie).trans (congrArg delivered hcall)⟩
  obtain ⟨t, ht, hold⟩ := hw.target
  refine ⟨hw.sound, (Heap.extends_next.trans Heap.extends_next).trans (hext.trans hw.heap),
    ⟨t, ht, ?_⟩, ?_, by rw [hw.same]; rfl, by rw [hw.same]; rfl⟩
  · rcases hold with hold | rfl
    · exact .inl hold
    · exact .inr (by show l.heap.lastId < hp.lastId + 1; omega)
  · intro t' ht'
    rw [ht] at ht'
    cases ht'
    rcases hold with hold | rfl
    · exact hfits t hold
    · exact .inl rfl

end Skeleton

end ComponentViews
