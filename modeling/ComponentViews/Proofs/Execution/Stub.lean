import ComponentViews.Proofs.Execution.Exchange

/-!
# Running stubs over the wire

A stub's method whose object is elsewhere writes the arguments to a request, and reads what
comes back. Of each outcome of the request (`Skeleton.Outcome`) it makes an end of the
method:

* a result is read by the rule by which it was written;
* of a declared failure the id tells the type, and it is thrown;
* a system failure becomes one of the remote protocol.

It starts over where it is told to by a failure that is no application failure. A failure
of the servant tells it to only if it is a system failure too, and nobody has declared it
(`StartsOver`).
-/

namespace ComponentViews.Stub

open Effect Loopback Activation Marshalling
open Skeleton (Reached Outcome Served)

variable {act : Activation Loopback} {link : Link} {ask : Option Value → Effect Loopback Value}
  {l : Loopback} {m : RemoteOperation} {f : Frame Loopback}

/-- The method runs on a stub in the loopback environment: no inherited method is its own,
    and the stub is an object other than the target. -/
structure Calls (act : Activation Loopback) (link : Link)
    (ask : Option Value → Effect Loopback Value) (l : Loopback) : Prop where
  env : act.InLoopback link ask
  inherits : ∀ callee : Callee, Text.startsWith "_" callee.name = true → callee.name ≠ "_ids" →
    act.callOwn callee = none
  old : act.this.id ≤ l.heap.lastId
  notTarget : ∀ t, l.target = some t → act.this.id ≠ t.id

theorem Calls.of_later {l' : Loopback} (hc : Calls act link ask l) (hl : l.Later l') :
    Calls act link ask l' :=
  ⟨hc.env, hc.inherits, hc.old.trans hl.heap.lastId, fun t ht => hc.notTarget t (hl.target ▸ ht)⟩

/-- A call of an inherited method. -/
theorem exec_ofSelf (hc : Calls act link ask f.world) {name : String} {params : List Ty}
    {result : Ty} {es : List Expr} {vs : List Value} {out : Except ObjectRef Value} {w : Loopback}
    (hname : Text.startsWith "_" name = true) (hids : name ≠ "_ids")
    (hes : exec (act.evalAll es) f = (.ok vs, f))
    (ha : exec (Loopback.answer link ask ⟨.virtual, Known.objectImpl, name, params, result⟩
      (some (.object act.this)) vs) f.world = (out, w)) :
    exec (act.eval (ofSelf name params result es)) f = (out, { f with world := w }) := by
  refine (exec_eval_call exec_eval_this hes).trans ?_
  exact exec_invoke_inherited hc.env (hc.inherits _ hname hids) hc.notTarget ha

/-- So is the state in which the servant is called. -/
theorem Calls.of_reached {interface operation : String} {w : Loopback} (hc : Calls act link ask l)
    (hw : Reached interface operation l w) : Calls act link ask w := by
  obtain ⟨t, ht, hold⟩ := hw.target
  refine ⟨hc.env, hc.inherits, hc.old.trans hw.heap.lastId, fun t' ht' => ?_⟩
  rw [ht] at ht'
  cases ht'
  rcases hold with hold | hold
  · exact hc.notTarget t hold
  · have := hc.old
    omega

/-- What has been made since the servant was called is neither the stub nor the target. -/
theorem Calls.foreign {w : Loopback} {id : Nat} (hc : Calls act link ask w)
    (hw : w.Sound) (ht : l.target = w.target) (hid : w.heap.lastId < id) : act.Foreign l id := by
  refine ⟨fun heq => ?_, fun t htarget heq => ?_⟩
  · have := hc.old
    omega
  · have := hw.target t (ht ▸ htarget)
    omega

/-- What is sent with a request: the arguments as they cross the wire, and the store then. -/
def sent (h : Hierarchy) (m : RemoteOperation) (args : List Value) (l : Loopback) :
    List Value × Heap :=
  l.heap.next.passAll h (op m).params args

/-- How the exchange goes on with what has come back: a result is read, and returned. -/
def received (act : Activation Loopback) (h : Hierarchy) (m : RemoteOperation)
    (f : Frame Loopback) : Except ObjectRef Value → Except ObjectRef Flow × Frame Loopback
  | .error thrown => (.error thrown, f)
  | .ok _ => exec (act.stmt (.ret (if (op m).result.isVoid then none
      else some (read h (op m).result (.var Stub.input))))) f

/-! ### Requests and replies -/

/-- What the request is written to: a new stream, for the operation. -/
def requested (m : RemoteOperation) (l : Loopback) : Loopback :=
  { l with
    heap := l.heap.next, streams := (l.heap.lastId + 1, []) :: l.streams
    operations := (l.heap.lastId + 1, m.wire.name) :: l.operations }

/-- The request has been written to its stream. -/
def asked (h : Hierarchy) (m : RemoteOperation) (args : List Value) (l : Loopback) : Loopback :=
  { requested m l with
    heap := (sent h m args l).2
    streams := (l.heap.lastId + 1, (sent h m args l).1) :: l.streams }

theorem later_requested (m : RemoteOperation) (l : Loopback) : l.Later (requested m l) :=
  let h := later_opened (l := l) []
  ⟨h.heap, fun hs => ⟨(h.sound hs).heap, (h.sound hs).streams, (h.sound hs).failureReplies,
    (h.sound hs).tie, (h.sound hs).target, (h.sound hs).apart⟩, rfl, rfl, rfl, rfl⟩

theorem holds_requested (hl : l.Sound) :
    (requested m l).Holds (l.heap.lastId + 1) [] l.streams :=
  ⟨rfl, (hl.holds_open []).others⟩

theorem later_asked {h : Hierarchy} {args : List Value} (hl : l.Sound) :
    l.Later (asked h m args l) :=
  (later_requested m l).trans ((holds_requested hl).later (Heap.extends_passAll _ _) _)

/-- A stream is opened for the request. -/
theorem exec_openRequest (hk : link.hierarchy.KeepsStandard) (hc : Calls act link ask l)
    (vars : List Value) :
    ∃ c, exec (act.stmt (.assign Stub.output (.cast (.named Known.outputStream)
        (ofSelf "_request" [.string, .boolean] (.named Known.portableOutputStream)
          [wireExpr m, .bool true])))) ⟨vars, l⟩ =
      (.ok .normal, ⟨vars.set Stub.output (.object ⟨l.heap.lastId + 1, c⟩), requested m l⟩) := by
  have hrequest : exec (act.eval (ofSelf "_request" [.string, .boolean]
      (.named Known.portableOutputStream) [wireExpr m, .bool true])) ⟨vars, l⟩ =
      (.ok (.object ⟨l.heap.lastId + 1, Known.portableOutputStream⟩), ⟨vars, requested m l⟩) :=
    exec_ofSelf (f := ⟨vars, l⟩) hc (by decide) (by decide)
      (exec_evalAll_cons exec_eval_const (exec_evalAll_singleton exec_eval_const)) rfl
  obtain ⟨c, hcast⟩ := exists_castTo link.hierarchy (.named Known.outputStream)
    ⟨l.heap.lastId + 1, Known.portableOutputStream⟩
    (.inr (hk.isSubtype_of_standard (a := Known.outputStream) (b := Known.portableOutputStream)
      (by decide) (by decide)))
  exact ⟨c, exec_stmt_assign ((exec_eval_cast hrequest).trans (exec_cast hc.env hcast))⟩

/-- The arguments are written to the stream. -/
theorem exec_writeRequest (hc : Calls act link ask l) (hl : l.Sound)
    (hargs : Value.ConformsAll link.hierarchy (op m).params act.args) {vars : List Value}
    {c : String} (hout : vars.getD Stub.output .null = .object ⟨l.heap.lastId + 1, c⟩) :
    exec (act.block ((op m).params.zipIdx.map fun (ty, i) =>
        .eval (write link.hierarchy ty (.var Stub.output) (.arg i)))) ⟨vars, requested m l⟩ =
      (.ok .normal, ⟨vars, asked link.hierarchy m act.args l⟩) :=
  exec_writeAll (f := ⟨vars, requested m l⟩) (i := 0) hc.env List.drop_zero hargs hout
    ((foreign_next hl hc.old).of_target_eq rfl) (holds_requested hl)

/-- The reply goes into a variable, and what it holds is returned. -/
theorem exec_receive (hk : link.hierarchy.KeepsStandard) (hact : act.InLoopback link ask)
    {served : Served} {args : List Value} {w l' : Loopback} {out : Except ObjectRef Value}
    {vars : List Value} (hvars : Stub.input < vars.length)
    (houtcome : Outcome link served args w out l')
    (hreply : exec (act.eval (ofSelf "_invoke" [.named Known.portableOutputStream]
      (.named Known.portableInputStream) [.var Stub.output])) ⟨vars, l⟩ = (out, ⟨vars, l'⟩)) :
    ∃ vars', vars'.length = vars.length ∧
      (∀ o, out = .ok (.object o) → ∃ c, vars'.getD Stub.input .null = .object ⟨o.id, c⟩) ∧
      exec (act.block [.assign Stub.input (.cast (.named Known.inputStream)
          (ofSelf "_invoke" [.named Known.portableOutputStream] (.named Known.portableInputStream)
            [.var Stub.output])),
        .ret (if (op m).result.isVoid then none
          else some (read link.hierarchy (op m).result (.var Stub.input)))]) ⟨vars, l⟩ =
        received act link.hierarchy m ⟨vars', l'⟩ out := by
  rcases out with thrown | v
  · refine ⟨vars, rfl, by rintro o ⟨⟩, ?_⟩
    exact exec_block_error (exec_stmt_assign_error (exec_eval_cast_error hreply))
  · obtain ⟨a, rfl⟩ := houtcome.exists_stream rfl
    obtain ⟨c, hcast⟩ := exists_castTo link.hierarchy (.named Known.inputStream)
      ⟨a, Known.portableInputStream⟩
      (.inr (hk.isSubtype_of_standard (a := Known.inputStream) (b := Known.portableInputStream)
        (by decide) (by decide)))
    have hread := exec_stmt_assign (i := Stub.input)
      ((exec_eval_cast hreply).trans (exec_cast hact hcast))
    refine ⟨vars.set Stub.input (.object ⟨a, c⟩), List.length_set, ?_,
      (exec_block_normal hread).trans exec_block_singleton⟩
    rintro o ⟨⟩
    exact ⟨c, getD_set hvars⟩

/-- The stub asks the skeleton for the operation, and has what comes back in a variable. -/
theorem exec_exchange (inner : Option Value → Effect Loopback Value) {interface : String}
    {methods : List Served} (hm : ⟨interface, m⟩ ∈ methods)
    (hnames : (methods.map (·.operation.wire.name)).Nodup)
    (hskeleton : link.skeleton =
      Skeleton.blueprint link.hierarchy link.skeleton.name interface methods)
    (hk : link.hierarchy.KeepsStandard)
    (hc : Calls act link (Loopback.exchange link (environmentWith link inner)) l)
    (hl : l.Sound) (hfits : l.TargetFits interface)
    (hargs : Value.ConformsAll link.hierarchy (op m).params act.args) {vars : List Value}
    (hvars : 7 ≤ vars.length) :
    ∃ w out l' vars', Reached interface m.wire.name l w ∧
      (sent link.hierarchy m act.args l).2.Extends w.heap ∧
      Outcome link ⟨interface, m⟩ (sent link.hierarchy m act.args l).1 w out l' ∧
      vars'.length = vars.length ∧
      (∀ o, out = .ok (.object o) → ∃ c, vars'.getD Stub.input .null = .object ⟨o.id, c⟩) ∧
      exec (act.block (exchange link.hierarchy m)) ⟨vars, l⟩ =
        received act link.hierarchy m ⟨vars', l'⟩ out := by
  let written := asked link.hierarchy m act.args l
  have hasked : l.Later written := later_asked hl
  obtain ⟨c, hopen⟩ := exec_openRequest (m := m) hk hc vars
  let vars₁ := vars.set Stub.output (.object ⟨l.heap.lastId + 1, c⟩)
  have hout : vars₁.getD Stub.output .null = .object ⟨l.heap.lastId + 1, c⟩ :=
    getD_set (by simp only [Stub.output]; omega)
  have hwrites := exec_writeRequest hc hl hargs hout
  -- The skeleton takes the request from the stream.
  have hsent : written.Holds (l.heap.lastId + 1) (sent link.hierarchy m act.args l).1 l.streams :=
    ⟨rfl, (hl.holds_open []).others⟩
  have hop : written.operations.lookup (l.heap.lastId + 1) = some m.wire.name :=
    List.lookup_cons_self ..
  obtain ⟨w, out, l', hw, houtcome, hexchange⟩ := Skeleton.exec_exchange (m := ⟨interface, m⟩)
    (c := c) inner hm hnames hskeleton rfl ((hk.isSubtype_eq (by decide) _).trans
      (by decide)) (hasked.sound hl) (fun t ht => hfits t ht) hsent hop
    (conformsAll_passAll hargs)
  have hreply : exec (act.eval (ofSelf "_invoke" [.named Known.portableOutputStream]
      (.named Known.portableInputStream) [.var Stub.output])) ⟨vars₁, written⟩ =
      (out, ⟨vars₁, l'⟩) := by
    refine exec_ofSelf (f := ⟨vars₁, written⟩) (hc.of_later hasked) (by decide) (by decide)
      (exec_evalAll_singleton exec_eval_var) ?_
    rw [hout]
    exact hexchange
  have hlength : vars₁.length = vars.length := List.length_set
  obtain ⟨vars₂, hlength₂, hin, hreceive⟩ := exec_receive (m := m) hk hc.env
    (by rw [hlength]; exact Nat.lt_of_lt_of_le (by decide) hvars) houtcome hreply
  refine ⟨w, out, l', vars₂, hw.of_later hasked, hw.heap, houtcome,
    hlength₂.trans hlength, hin, ?_⟩
  rw [exchange, List.cons_append, exec_block_normal hopen, exec_block_append hwrites]
  exact hreceive

/-! ### Failures -/

/-- A failure that is thrown, by value: what is no object ends with another failure. -/
theorem exec_throw_value (hact : act.InLoopback link ask) {e : Expr} {v : Value}
    {f' : Frame Loopback} (he : exec (act.eval e) f = (.ok v, f')) :
    ∃ thrown l', exec (act.stmt (.throw e)) f = (.error thrown, ⟨f'.vars, l'⟩) ∧
      f'.world.Later l' ∧ ∀ o, v = .object o → thrown = o := by
  by_cases hv : ∃ o, v = .object o
  · obtain ⟨o, rfl⟩ := hv
    exact ⟨o, f'.world, exec_stmt_throw he, .refl _, by rintro _ ⟨⟩; rfl⟩
  · have hother : ∃ className, exec (act.stmt (.throw e)) f =
        exec (act.fail className : Run Loopback Flow) f' := by
      rw [stmt, exec_bind_ok he]
      cases v with
      | object o => exact absurd ⟨o, rfl⟩ hv
      | null => exact ⟨_, rfl⟩
      | _ => exact ⟨_, rfl⟩
    obtain ⟨className, hother⟩ := hother
    rw [hother, exec_fail hact]
    exact ⟨_, _, rfl, later_withHeap Heap.extends_next, fun o ho => absurd ⟨o, ho⟩ hv⟩

/-- The id that has come back is compared with the one of a declared failure, and if it is the same,
    the failure is read and thrown. -/
theorem exec_throwDeclared {id : String} (hid : f.vars.getD failureId .null = .string id)
    (failure : Ty) :
    exec (act.stmt (throwDeclared link.hierarchy failure)) f = exec (act.block
      (if id == Idl.repositoryId failure then
        [.throw (read link.hierarchy failure (.var Stub.input))] else [])) f := by
  have hvar : exec (act.eval (.var failureId)) f = (.ok (.string id), f) := by
    rw [exec_eval_var, hid]
  have hequals : exec (act.eval (.invoke .virtual (.var failureId) Known.string "equals" [.object]
      .boolean [.string (Idl.repositoryId failure)])) f =
      (.ok (.bool (id == Idl.repositoryId failure)), f) := by
    refine (exec_eval_call hvar (exec_evalAll_singleton exec_eval_const)).trans ?_
    simp [Activation.invoke, Value.ofLiteral, Value.equal]
  exact exec_stmt_cond (exec_test_isTrue hequals)

/-- Where a failure is to be read and thrown, something is thrown, and the failure if it is there
    and can be cast. -/
theorem exec_throwRead (hact : act.InLoopback link ask) {a : Nat} {c : String} {v : Value}
    {rest : List (Nat × List Value)} (hin : f.vars.getD Stub.input .null = .object ⟨a, c⟩)
    (ha : act.Foreign f.world a) (hs : f.world.Holds a [v] rest) (failure : Ty) :
    ∃ thrown l', exec (act.stmt (.throw (read link.hierarchy failure (.var Stub.input)))) f =
        (.error thrown, ⟨f.vars, l'⟩) ∧ f.world.Later l' ∧
      ∀ o, readAs link.hierarchy failure v = some (.object o) → thrown = o := by
  have hinput : exec (act.eval (.var Stub.input)) f = (.ok (.object ⟨a, c⟩), f) := by
    rw [exec_eval_var, hin]
  have hread := exec_read hact hinput ha hs failure
  have hpopped : f.world.Later { f.world with streams := (a, []) :: rest } := hs.later (.refl _) []
  cases hvalue : readAs link.hierarchy failure v with
  | some u =>
    rw [hvalue] at hread
    obtain ⟨thrown, l', hthrow, hlater, hobject⟩ := exec_throw_value hact hread
    exact ⟨thrown, l', hthrow, hpopped.trans hlater, fun o ho => hobject o (Option.some.inj ho)⟩
  | none =>
    rw [hvalue] at hread
    exact ⟨_, _, exec_stmt_throw_error hread,
      hpopped.trans (later_withHeap (h := f.world.heap.next) Heap.extends_next),
      fun o ho => nomatch ho⟩

/-- The declared failure whose id comes first is read and thrown; one with another id is
    passed over. -/
theorem exec_throwsDeclared (hact : act.InLoopback link ask) {id : String} {a : Nat} {c : String}
    {v : Value} {rest : List (Nat × List Value)} (hid : f.vars.getD failureId .null = .string id)
    (hin : f.vars.getD Stub.input .null = .object ⟨a, c⟩) (ha : act.Foreign f.world a)
    (hs : f.world.Holds a [v] rest) (declared : List Ty) :
    ∃ thrown l', exec (act.block (declared.map (throwDeclared link.hierarchy) ++
          [.throw (.new Known.unexpectedException [.string] [.var failureId])])) f =
        (.error thrown, ⟨f.vars, l'⟩) ∧ f.world.Later l' ∧
      ∀ failure o, declared.find? (fun ty => Idl.repositoryId ty == id) = some failure →
        readAs link.hierarchy failure v = some (.object o) → thrown = o := by
  -- By induction on the declared failures; behind the last one the id is unexpected.
  induction declared with
  | nil =>
    have hvar : exec (act.eval (.var failureId)) f = (.ok (.string id), f) := by
      rw [exec_eval_var, hid]
    have hnew : exec (act.eval (.new Known.unexpectedException [.string] [.var failureId])) f =
        exec (Run.outside (create Known.unexpectedException [.string id])) f := by
      rw [exec_eval_new (exec_evalAll_singleton hvar), hact]
      rfl
    obtain ⟨thrown, l', hthrow, hlater, -⟩ := exec_throw_value hact (hnew.trans
      (Run.exec_outside exec_create_message))
    refine ⟨thrown, l', ?_, ?_, fun _ _ h => nomatch h⟩
    · rw [List.map_nil, List.nil_append, exec_block_singleton, hthrow]
    · exact (later_withHeap (Heap.extends_setSlot_next _ _ _ _)).trans hlater
  | cons failure declared ih =>
    have hcond : exec (act.stmt (throwDeclared link.hierarchy failure)) f = _ :=
      exec_throwDeclared hid failure
    rw [List.map_cons, List.cons_append, List.find?_cons, BEq.comm]
    cases hsame : id == Idl.repositoryId failure with
    | false =>
      simp only [hsame, Bool.false_eq_true, if_false, exec_block_nil] at hcond
      obtain ⟨thrown, l', hblock, hlater, hfind⟩ := ih
      refine ⟨thrown, l', ?_, hlater, hfind⟩
      rw [exec_block_normal hcond, hblock]
    | true =>
      simp only [hsame, if_true, exec_block_singleton] at hcond
      obtain ⟨thrown, l', hthrow, hlater, hobject⟩ := exec_throwRead hact hin ha hs failure
      refine ⟨thrown, l', exec_block_error (hcond.trans hthrow), hlater, ?_⟩
      rintro _ o ⟨⟩ ho
      exact hobject o ho

/-- What follows in the handler of a failure once its stream is in a variable. -/
def afterStream (h : Hierarchy) (m : RemoteOperation) : Block :=
  .assign failureId (.invoke .virtual (.var Stub.input) Known.portableInputStream "read_string" []
      .string []) ::
    (m.exposed.failures.application.map (throwDeclared h) ++
      [.throw (.new Known.unexpectedException [.string] [.var failureId])])

/-- The stream of a failure goes into a variable. -/
theorem exec_readFailure (l' : Loopback) (hact : act.InLoopback link ask)
    (hk : link.hierarchy.KeepsStandard) {e : ObjectRef} {a : Nat}
    (he : f.vars.getD applicationFailure .null = .object e) (hforeign : act.Foreign f.world e.id)
    (hslot : f.world.heap.readSlot e "stream" (.named Known.portableInputStream) =
      (.object ⟨a, Known.portableInputStream⟩, l'.heap))
    (hl' : l' = { f.world with heap := l'.heap }) :
    ∃ c, exec (act.block (readFailure link.hierarchy m)) f =
      exec (act.block (afterStream link.hierarchy m))
        ⟨f.vars.set Stub.input (.object ⟨a, c⟩), l'⟩ := by
  have hstream : exec (act.eval (.invoke .virtual (.var applicationFailure)
      Known.applicationException "getInputStream" [] (.named Known.portableInputStream) [])) f =
      (.ok (.object ⟨a, Known.portableInputStream⟩), ⟨f.vars, l'⟩) := by
    refine (exec_eval_call exec_eval_var exec_evalAll_nil).trans ?_
    rw [he]
    refine exec_invoke_foreign hact hforeign ?_
    show exec (onHeap (·.readSlot e "stream" (.named Known.portableInputStream))) f.world = _
    rw [exec_onHeap, hslot, ← hl']
  obtain ⟨c, hcast⟩ := exists_castTo link.hierarchy (.named Known.inputStream)
    ⟨a, Known.portableInputStream⟩
    (.inr (hk.isSubtype_of_standard (a := Known.inputStream) (b := Known.portableInputStream)
      (by decide) (by decide)))
  exact ⟨c, exec_block_normal (exec_stmt_assign
    ((exec_eval_cast hstream).trans (exec_cast hact hcast)))⟩

/-- The id of a failure is read first, and tells which declared failure follows. -/
theorem exec_afterStream (hact : act.InLoopback link ask) {id : String} {a : Nat} {c : String}
    {v : Value} {rest : List (Nat × List Value)} (hvars : 7 ≤ f.vars.length)
    (hin : f.vars.getD Stub.input .null = .object ⟨a, c⟩) (ha : act.Foreign f.world a)
    (hs : f.world.Holds a [.string id, v] rest) :
    ∃ thrown f', exec (act.block (afterStream link.hierarchy m)) f = (.error thrown, f') ∧
      f'.vars.length = f.vars.length ∧ f.world.Later f'.world ∧
      ∀ failure o, m.exposed.failures.application.find?
          (fun ty => Idl.repositoryId ty == id) = some failure →
        readAs link.hierarchy failure v = some (.object o) → thrown = o := by
  have hread : exec (act.eval (.invoke .virtual (.var Stub.input) Known.portableInputStream
      "read_string" [] .string [])) f =
      (.ok (.string id), { f with world := { f.world with streams := (a, [v]) :: rest } }) := by
    refine (exec_eval_call exec_eval_var exec_evalAll_nil).trans ?_
    rw [hin]
    refine exec_invoke_foreign hact ha ?_
    rw [answer_read (by decide) (by decide) (by decide)]
    exact exec_pop hs
  have hs' : Holds { f.world with streams := (a, [v]) :: rest } a [v] rest := ⟨rfl, hs.others⟩
  obtain ⟨thrown, l', hblock, hlater, hfind⟩ := exec_throwsDeclared
    (f := ⟨f.vars.set failureId (.string id), { f.world with streams := (a, [v]) :: rest }⟩) hact
    (getD_set (Nat.lt_of_lt_of_le (by decide) hvars)) ((getD_set_ne (by decide)).trans hin)
    ha hs' m.exposed.failures.application
  refine ⟨thrown, _, (exec_block_normal (exec_stmt_assign hread)).trans hblock, List.length_set,
    (hs.later (.refl _) _).trans hlater, hfind⟩

/-- Where there is no id to be read, the handler ends with a system failure. -/
theorem exec_afterStream_of_lookup_eq_none (hact : act.InLoopback link ask) {o : ObjectRef}
    (hin : f.vars.getD Stub.input .null = .object o) (ha : act.Foreign f.world o.id)
    (hs : f.world.streams.lookup o.id = none) :
    exec (act.block (afterStream link.hierarchy m)) f =
      (.error ⟨f.world.heap.lastId + 1, Known.marshal⟩,
        { f with world := { f.world with heap := f.world.heap.next } }) := by
  refine exec_block_error (exec_stmt_assign_error ?_)
  refine (exec_eval_call exec_eval_var exec_evalAll_nil).trans ?_
  rw [hin]
  refine exec_invoke_foreign hact ha ?_
  rw [answer_read (by decide) (by decide) (by decide)]
  exact exec_pop_of_lookup_eq_none hs

/-! ### Ends of the exchange -/

/-- The handlers around the exchange. -/
def replyHandlers (h : Hierarchy) (unit : String) (m : RemoteOperation) : List Handler :=
  [⟨some Known.applicationException, applicationFailure, readFailure h m⟩,
    ⟨some Known.remarshalException, remarshal, retry unit m⟩]

/-- A failure of the servant that the stub takes for the order to start over. -/
structure StartsOver (h : Hierarchy) (declared : List Ty) (className : String) : Prop where
  isSystem : h.isSubtype className Known.systemException = true
  isRemarshal : h.isSubtype className Known.remarshalException = true
  notReply : h.isSubtype className Known.applicationException = false
  undeclared : declared.find? (h.isSubtype className ·.name) = none

/-- How the exchange ends for which the servant is called with `args` in the state `w`. -/
structure Ends (link : Link) (m : RemoteOperation) (args : List Value) (w : Loopback)
    (r : Except ObjectRef Value) (l : Loopback) : Prop where
  later : (w.called args).Later l
  void : ∀ v, link.servant (op m).name args = .ok v → (op m).result.isVoid = true → r = .ok .void
  result : ∀ v, link.servant (op m).name args = .ok v → (op m).result.isVoid = false →
    v.Conforms link.hierarchy (op m).result → ∃ hp, w.heap.Extends hp ∧
      (hp.pass link.hierarchy (op m).result v).2.Extends l.heap ∧
      r = .ok (hp.pass link.hierarchy (op m).result v).1
  /-- A declared failure is thrown, as it passes as one of the type by which it is declared. -/
  declared : ∀ className failure, link.servant (op m).name args = .error className →
    m.exposed.failures.application.find? (link.hierarchy.isSubtype className ·.name) =
      some failure →
    link.hierarchy.isThrowable className = true →
    (m.exposed.failures.application.map Idl.repositoryId).Nodup →
    ∃ e, r = .error e ∧ w.heap.next.Extends l.heap ∧
      Heap.Passed link.hierarchy failure w.heap.next l.heap
        (.object ⟨w.heap.lastId + 1, className⟩) (.object e)
  /-- Any other failure leaves the exchange as a system failure. -/
  undeclared : ∀ className, link.servant (op m).name args = .error className →
    m.exposed.failures.application.find? (link.hierarchy.isSubtype className ·.name) = none →
    ∃ e, r = .error e ∧ link.hierarchy.isSubtype e.className Known.systemException = true

/-- A failure that neither comes with a reply nor starts over leaves the exchange. -/
theorem exec_replyHandlers_passed (hact : act.InLoopback link ask) {unit : String}
    {e : ObjectRef}
    (hreply : link.hierarchy.isSubtype e.className Known.applicationException = false)
    (hagain : link.hierarchy.isSubtype e.className Known.remarshalException = false) :
    exec (act.firstHandler e (replyHandlers link.hierarchy unit m)) f = (.error e, f) := by
  have hreply : act.catches (some Known.applicationException) e = false :=
    (isSubtype_eq hact _ _).trans hreply
  have hagain : act.catches (some Known.remarshalException) e = false :=
    (isSubtype_eq hact _ _).trans hagain
  rw [replyHandlers, exec_firstHandler_passed hreply, exec_firstHandler_passed hagain,
    exec_firstHandler_nil]

/-- A class that can be read where a failure is declared. -/
theorem readAs_object {h : Hierarchy} {ty : Ty} {o : ObjectRef}
    (ho : h.isSubtype o.className ty.name = true) : readAs h ty (.object o) = some (.object o) := by
  have hcast : castTo h ty (.object o) = some (.object o) := by
    rw [castTo, if_pos ho, ite_self]
  rw [readAs]
  split
  · rfl
  · exact hcast

/-- A failure can be written wherever it is declared. -/
theorem written_throwable {h : Hierarchy} (hk : h.KeepsStandard) {ty : Ty} {o : ObjectRef}
    (ho : h.isThrowable o.className = true) : written h ty (.object o) = some (.object o) := by
  have hser : h.isSubtype o.className (Ty.named Known.serializable).name = true :=
    Hierarchy.isSubtype_trans hk.objectIsTop ho
      (hk.isSubtype_of_standard (by decide) (by decide))
  rw [written]
  split
  · rw [castTo, if_neg (by decide), if_pos hser]
  · rfl

/-- Where ids are different, each leads to its failure. -/
theorem find?_repositoryId {declared : List Ty} {failure : Ty}
    (hids : (declared.map Idl.repositoryId).Nodup) (hf : failure ∈ declared) :
    declared.find? (fun ty => Idl.repositoryId ty == Idl.repositoryId failure) = some failure := by
  let isIt (ty : Ty) : Bool := Idl.repositoryId ty == Idl.repositoryId failure
  have hself : isIt failure = true := beq_self_eq_true _
  obtain ⟨ty, hty⟩ := Option.isSome_iff_exists.1 (List.find?_isSome.2 ⟨failure, hf, hself⟩)
  have hsame : isIt ty = true := List.find?_some hty
  rw [List.inj_on_of_nodup_map hids (List.mem_of_find?_eq_some hty) hf (beq_iff_eq.1 hsame)] at hty
  exact hty

/-- The two parts of a result: how it was read, and what it is then. -/
theorem Ends.of_result {args : List Value} {w l' : Loopback} {v : Value}
    {r : Except ObjectRef Value}
    (hgiven : link.servant (op m).name args = .ok v) (hvoid : (op m).result.isVoid = false)
    (hlater : (w.called args).Later l')
    (hresult : v.Conforms link.hierarchy (op m).result → ∃ hp, w.heap.Extends hp ∧
      (hp.pass link.hierarchy (op m).result v).2.Extends l'.heap ∧
      r = .ok (hp.pass link.hierarchy (op m).result v).1) : Ends link m args w r l' where
  later := hlater
  void v' hv' hvoid' := by rw [hvoid] at hvoid'; cases hvoid'
  result v' hv' _ hconforms := by
    rw [hgiven] at hv'
    cases hv'
    exact hresult hconforms
  declared _ _ hthrown := by rw [hgiven] at hthrown; cases hthrown
  undeclared _ hthrown := by rw [hgiven] at hthrown; cases hthrown

/-- A failure by which the exchange ends. -/
theorem Ends.of_error {args : List Value} {w left l' : Loopback} {thrown e : ObjectRef}
    (hcause : Skeleton.Cause link ⟨interface, m⟩ args w thrown left)
    (hlater : (w.called args).Later l')
    (hdeclared : ∀ failure, left.heap = w.heap.next → thrown.id = w.heap.lastId + 1 →
      m.exposed.failures.application.find? (link.hierarchy.isSubtype thrown.className ·.name) =
        some failure →
      link.hierarchy.isThrowable thrown.className = true →
      (m.exposed.failures.application.map Idl.repositoryId).Nodup →
      left.heap.Extends l'.heap ∧
        Heap.Passed link.hierarchy failure left.heap l'.heap (.object thrown) (.object e))
    (hundeclared : m.exposed.failures.application.find?
        (link.hierarchy.isSubtype thrown.className ·.name) = none →
      link.hierarchy.isSubtype e.className Known.systemException = true) :
    Ends link m args w (.error e) l' := by
  cases hcause with
  | servant hgiven hnew =>
    have hno : ∀ v, link.servant (op m).name args ≠ .ok v := fun v hv => by
      rw [show link.servant (op m).name args = .error thrown.className from hgiven] at hv
      cases hv
    refine ⟨hlater, fun v hv => absurd hv (hno v), fun v hv => absurd hv (hno v), ?_, ?_⟩
    · intro className failure hthrown hfind hthrowable hids
      obtain ⟨id, _⟩ := thrown
      cases hgiven.symm.trans hthrown
      cases hnew
      exact ⟨e, rfl, hdeclared failure rfl rfl hfind hthrowable hids⟩
    · intro className hthrown hfind
      cases hgiven.symm.trans hthrown
      exact ⟨e, rfl, hundeclared hfind⟩
  | result hgiven hvoid hunwritten _ _ =>
    refine .of_result hgiven hvoid hlater fun hconforms => ?_
    cases (written_of_conforms hconforms).symm.trans hunwritten

/-- The exchange ends one way or another, and leaves `n` variables. -/
def Concludes (act : Activation Loopback) (link : Link) (unit : String) (m : RemoteOperation)
    (args : List Value) (w : Loopback) (n : Nat) (guarded : Run Loopback Flow)
    (f : Frame Loopback) : Prop :=
  ∃ r f', Ends link m args w r f'.world ∧ f'.vars.length = n ∧
    exec (act.handle guarded (replyHandlers link.hierarchy unit m)) f = (r.map .returned, f')

section

variable {interface unit : String} {args vars : List Value} {w : Loopback}
  {guarded : Run Loopback Flow} (hk : link.hierarchy.KeepsStandard) (hc : Calls act link ask w)
  (hw : w.Sound)

/-- A reply without a result. -/
theorem concludes_void {v : Value} (hgiven : link.servant (op m).name args = .ok v)
    (hvoid : (op m).result.isVoid = true) (hlater : (w.called args).Later l)
    (hguarded : exec guarded f = exec (act.stmt (.ret none)) ⟨vars, l⟩) :
    Concludes act link unit m args w vars.length guarded f := by
  refine ⟨.ok .void, ⟨vars, l⟩, ⟨hlater, fun _ _ _ => rfl, fun _ _ h => ?_, ?_, ?_⟩, rfl,
    exec_handle_ok (hguarded.trans exec_stmt_ret_none)⟩
  · rw [hvoid] at h
    cases h
  · exact fun _ _ h => nomatch hgiven.symm.trans h
  · exact fun _ h => nomatch hgiven.symm.trans h

include hk hc hw

/-- A reply with a result, which is read. -/
theorem concludes_result {v u : Value} {hp : Heap} {a : Nat} {c : String}
    {rest : List (Nat × List Value)} (hgiven : link.servant (op m).name args = .ok v)
    (hvoid : (op m).result.isVoid = false)
    (hwritten : written link.hierarchy (op m).result v = some u) (hbefore : w.heap.Extends hp)
    (hafter : (hp.pass link.hierarchy (op m).result u).2.Extends l.heap)
    (hlater : (w.called args).Later l) (hfresh : w.heap.lastId < a)
    (hholds : l.Holds a [(hp.pass link.hierarchy (op m).result u).1] rest)
    (hin : vars.getD Stub.input .null = .object ⟨a, c⟩)
    (hguarded : exec guarded f = exec (act.stmt (.ret (some (read link.hierarchy (op m).result
      (.var Stub.input))))) ⟨vars, l⟩) :
    Concludes act link unit m args w vars.length guarded f := by
  have hinput : exec (act.eval (.var Stub.input)) ⟨vars, l⟩ =
      (.ok (.object ⟨a, c⟩), ⟨vars, l⟩) := by
    rw [exec_eval_var, hin]
  have hread := exec_read (f := ⟨vars, l⟩) hc.env hinput
    (hc.foreign hw hlater.target hfresh) hholds (op m).result
  have hpopped : (w.called args).Later { l with streams := (a, []) :: rest } :=
    hlater.trans (hholds.later (.refl _) [])
  have hresult : v.Conforms link.hierarchy (op m).result → u = v ∧
      readAs link.hierarchy (op m).result (hp.pass link.hierarchy (op m).result v).1 =
        some (hp.pass link.hierarchy (op m).result v).1 := fun hconforms =>
    ⟨Option.some.inj (hwritten.symm.trans (written_of_conforms hconforms)),
      readAs_of_conforms (Heap.conforms_pass hconforms)⟩
  -- The cast of what is read can fail if the servant has given something that is no such result.
  cases hvalue : readAs link.hierarchy (op m).result (hp.pass link.hierarchy (op m).result u).1 with
  | some x =>
    rw [hvalue] at hread
    refine ⟨.ok x, _, .of_result hgiven hvoid hpopped fun hconforms => ?_, rfl,
      exec_handle_ok (hguarded.trans (exec_stmt_ret hread))⟩
    obtain ⟨rfl, hx⟩ := hresult hconforms
    exact ⟨hp, hbefore, hafter, congrArg _ (Option.some.inj (hvalue.symm.trans hx))⟩
  | none =>
    rw [hvalue] at hread
    have hfailed := hpopped.trans (later_withHeap (h := l.heap.next) Heap.extends_next)
    refine ⟨.error ⟨l.heap.lastId + 1, Known.classCastException⟩, ⟨vars, _⟩,
      .of_result hgiven hvoid hfailed fun hconforms => ?_, rfl, ?_⟩
    · obtain ⟨rfl, hx⟩ := hresult hconforms
      cases hvalue.symm.trans hx
    · rw [exec_handle_error (hguarded.trans (exec_stmt_ret_error hread))]
      exact exec_replyHandlers_passed hc.env
        ((hk.isSubtype_eq (a := Known.classCastException) (by decide) _).trans (by decide))
        ((hk.isSubtype_eq (a := Known.classCastException) (by decide) _).trans (by decide))

/-- A declared failure, which is told by its id. -/
theorem concludes_failure {thrown e : ObjectRef} {u : Value} {failure : Ty} {left : Loopback}
    {a : Nat} {rest : List (Nat × List Value)} (hvars : 7 ≤ vars.length)
    (hcause : Skeleton.Cause link ⟨interface, m⟩ args w thrown left)
    (hdeclared : m.exposed.failures.application.find?
      (link.hierarchy.isSubtype thrown.className ·.name) = some failure)
    (hwritten : written link.hierarchy failure (.object thrown) = some u)
    (hafterPass : (left.heap.next.pass link.hierarchy failure u).2.Extends l.heap)
    (hlater : (w.called args).Later l) (hfresh : w.heap.lastId < a) (hfreshFailure : a < e.id)
    (hclass : e.className = Known.applicationException)
    (hstream : l.heap.slot? e "stream" = some (.object ⟨a, Known.portableInputStream⟩))
    (hholds : l.Holds a [.string (Idl.repositoryId failure),
      (left.heap.next.pass link.hierarchy failure u).1] rest)
    (hguarded : exec guarded f = (.error e, ⟨vars, l⟩)) :
    Concludes act link unit m args w vars.length guarded f := by
  have hcatches : act.catches (some Known.applicationException) e = true := by
    rw [catches, isSubtype_eq hc.env, hclass, Hierarchy.isSubtype_refl]
  obtain ⟨c, hread⟩ := exec_readFailure (m := m)
    (f := ⟨vars.set applicationFailure (.object e), l⟩) l hc.env hk
    (getD_set (Nat.lt_of_lt_of_le (by decide) hvars))
    (hc.foreign hw hlater.target (hfresh.trans hfreshFailure))
    (by rw [Heap.readSlot, hstream]) rfl
  obtain ⟨thrown', f', hafter, hlen, hlater', hthrown⟩ := exec_afterStream (m := m)
    (f := ⟨(vars.set applicationFailure (.object e)).set Stub.input (.object ⟨a, c⟩), l⟩)
    (c := c) hc.env (by rw [List.length_set, List.length_set]; exact hvars)
    (getD_set (by rw [List.length_set]; exact Nat.lt_of_lt_of_le (by decide) hvars))
    (hc.foreign hw hlater.target hfresh) hholds
  refine ⟨.error thrown', f', .of_error hcause (hlater.trans hlater') ?_ ?_, ?_, ?_⟩
  · intro failure' hleft hnew hfind hthrowable hids
    cases hdeclared.symm.trans hfind
    cases hwritten.symm.trans (written_throwable hk hthrowable)
    obtain ⟨id, hpass⟩ := Heap.exists_pass_object link.hierarchy failure left.heap.next thrown
    -- No two declared failures have one id, so what is read is of the type that was written.
    have hself := List.find?_some hfind
    have hread' : readAs link.hierarchy failure
        (left.heap.next.pass link.hierarchy failure (.object thrown)).1 =
          some (.object ⟨id, thrown.className⟩) := by
      rw [hpass]
      exact readAs_object hself
    have hmade : (Value.object thrown).Within left.heap.lastId := by
      simp [Value.Within, hleft, hnew]
    have hpassed := @Heap.passed_pass link.hierarchy failure _ _
      ((hcause.later.trans (later_withHeap Heap.extends_next)).sound (hw.called args)).heap
      (hmade.mono (Nat.le_succ _))
    rw [hthrown failure _ (find?_repositoryId hids (List.mem_of_find?_eq_some hfind)) hread',
      ← hpass]
    have hlast := hafterPass.trans hlater'.heap
    exact ⟨Heap.extends_next.trans (Heap.extends_pass.trans hlast),
      hpassed.mono Heap.extends_next hlast hmade⟩
  · intro hnone
    cases hdeclared.symm.trans hnone
  · rw [hlen, List.length_set, List.length_set]
  · rw [exec_handle_error hguarded, replyHandlers, exec_firstHandler_taken hcatches]
    exact hread.trans hafter

omit hk hw in
/-- A system failure of the servant is passed on, unless it is taken for a reply. -/
theorem concludes_passed {className : String}
    (hgiven : link.servant (op m).name args = .error className)
    (hsystem : link.hierarchy.isSubtype className Known.systemException = true)
    (hundeclared : m.exposed.failures.application.find?
      (link.hierarchy.isSubtype className ·.name) = none)
    (hreply : link.hierarchy.isSubtype className Known.applicationException = false)
    (hremarshal : link.hierarchy.isSubtype className Known.remarshalException = false)
    (hguarded : exec guarded f = (.error ⟨w.heap.lastId + 1, className⟩,
      ⟨vars, { w.called args with heap := w.heap.next }⟩)) :
    Concludes act link unit m args w vars.length guarded f := by
  let e : ObjectRef := ⟨w.heap.lastId + 1, className⟩
  let l : Loopback := { w.called args with heap := w.heap.next }
  have hcause : Skeleton.Cause link ⟨unit, m⟩ args w e l := .servant hgiven rfl
  refine ⟨.error e, ⟨vars, l⟩, .of_error hcause (later_withHeap Heap.extends_next)
    (fun _ _ _ h => nomatch hundeclared.symm.trans h) (fun _ => hsystem), rfl, ?_⟩
  rw [exec_handle_error hguarded]
  exact exec_replyHandlers_passed hc.env hreply hremarshal

/-- A system failure of the servant that is taken for a reply ends with another one, since there is
    no stream with it. -/
theorem concludes_mistaken {className : String} (hvars : 7 ≤ vars.length)
    (hgiven : link.servant (op m).name args = .error className)
    (hundeclared : m.exposed.failures.application.find?
      (link.hierarchy.isSubtype className ·.name) = none)
    (hreply : link.hierarchy.isSubtype className Known.applicationException = true)
    (hguarded : exec guarded f = (.error ⟨w.heap.lastId + 1, className⟩,
      ⟨vars, { w.called args with heap := w.heap.next }⟩)) :
    Concludes act link unit m args w vars.length guarded f := by
  let e : ObjectRef := ⟨w.heap.lastId + 1, className⟩
  let l : Loopback := { w.called args with heap := w.heap.next }
  have hcause : Skeleton.Cause link ⟨unit, m⟩ args w e l := .servant hgiven rfl
  let hp := w.heap.next.next.setSlot e "stream"
    (.object ⟨w.heap.lastId + 2, Known.portableInputStream⟩)
  have hp_extends : w.heap.Extends hp :=
    (Heap.extends_next.trans Heap.extends_next).setSlot (Nat.lt_succ_self _) (Nat.le_succ _)
  have hcatches : act.catches (some Known.applicationException) e = true :=
    (isSubtype_eq hc.env _ _).trans hreply
  -- The slot for the stream is filled when it is read, by a stream that does not exist.
  have hslot : l.heap.readSlot e "stream" (.named Known.portableInputStream) =
      (.object ⟨w.heap.lastId + 2, Known.portableInputStream⟩, hp) := by
    rw [Heap.readSlot, show l.heap.slot? e "stream" = none from
      Heap.slot?_eq_none hw.heap (Nat.lt_succ_self _) _]
    rfl
  obtain ⟨c, hread⟩ := exec_readFailure (m := m)
    (f := ⟨vars.set applicationFailure (.object e), l⟩) { l with heap := hp } hc.env hk
    (getD_set (Nat.lt_of_lt_of_le (by decide) hvars)) (hc.foreign hw rfl (Nat.lt_succ_self _))
    hslot rfl
  have hnone : l.streams.lookup (w.heap.lastId + 2) = none := by
    rw [List.lookup_eq_none_iff]
    intro p hp
    have := hw.streams p hp
    rw [bne_iff_ne]
    omega
  have hafter := exec_afterStream_of_lookup_eq_none (m := m)
    (f := ⟨(vars.set applicationFailure (.object e)).set Stub.input
      (.object ⟨w.heap.lastId + 2, c⟩), { l with heap := hp }⟩)
    (o := ⟨w.heap.lastId + 2, c⟩) hc.env
    (getD_set (by rw [List.length_set]; exact Nat.lt_of_lt_of_le (by decide) hvars))
    (hc.foreign hw rfl (by show w.heap.lastId < w.heap.lastId + 2; omega)) hnone
  have hlater := later_withHeap (l := w.called args) (hp_extends.trans Heap.extends_next)
  refine ⟨.error ⟨hp.lastId + 1, Known.marshal⟩, ⟨(vars.set applicationFailure
    (.object e)).set Stub.input (.object ⟨w.heap.lastId + 2, c⟩), _⟩,
    .of_error hcause hlater (fun _ _ _ h => nomatch hundeclared.symm.trans h) (fun _ => ?_), ?_, ?_⟩
  · exact hk.isSubtype_of_standard (a := Known.marshal) (by decide) (by decide)
  · rw [List.length_set, List.length_set]
  · rw [exec_handle_error hguarded, replyHandlers, exec_firstHandler_taken hcatches]
    exact hread.trans hafter

/-- A system failure of the servant. -/
theorem concludes_system {className : String} (hvars : 7 ≤ vars.length)
    (hgiven : link.servant (op m).name args = .error className)
    (hsystem : link.hierarchy.isSubtype className Known.systemException = true)
    (hundeclared : m.exposed.failures.application.find?
      (link.hierarchy.isSubtype className ·.name) = none)
    (hagain : ¬ StartsOver link.hierarchy m.exposed.failures.application className)
    (hguarded : exec guarded f = (.error ⟨w.heap.lastId + 1, className⟩,
      ⟨vars, { w.called args with heap := w.heap.next }⟩)) :
    Concludes act link unit m args w vars.length guarded f := by
  cases hreply : link.hierarchy.isSubtype className Known.applicationException with
  | false =>
    have hremarshal : link.hierarchy.isSubtype className Known.remarshalException = false := by
      rw [← Bool.not_eq_true]
      exact fun h => hagain ⟨hsystem, h, hreply, hundeclared⟩
    exact concludes_passed hc hgiven hsystem hundeclared hreply hremarshal hguarded
  | true => exact concludes_mistaken hk hc hw hvars hgiven hundeclared hreply hguarded

end

/-- What has come back makes an end of the exchange. -/
theorem concludes_of_outcome (unit : String) (hk : link.hierarchy.KeepsStandard)
    {interface : String} {args vars : List Value} {w : Loopback} {out : Except ObjectRef Value}
    {guarded : Run Loopback Flow} (ho : Outcome link ⟨interface, m⟩ args w out l)
    (hc : Calls act link ask w) (hw : w.Sound) (hvars : 7 ≤ vars.length)
    (hin : ∀ o, out = .ok (.object o) → ∃ c, vars.getD Stub.input .null = .object ⟨o.id, c⟩)
    (hagain : ∀ className, link.servant (op m).name args = .error className →
      ¬ StartsOver link.hierarchy m.exposed.failures.application className)
    (hguarded : exec guarded f = received act link.hierarchy m ⟨vars, l⟩ out) :
    Concludes act link unit m args w vars.length guarded f := by
  cases ho with
  | void hgiven hvoid hlater _ _ =>
    have hvoid : (op m).result.isVoid = true := hvoid
    rw [received, hvoid] at hguarded
    exact concludes_void hgiven hvoid hlater hguarded
  | result hgiven hvoid hwritten hbefore hafter hlater hfresh hholds =>
    have hvoid : (op m).result.isVoid = false := hvoid
    rw [received, hvoid] at hguarded
    obtain ⟨c, hc'⟩ := hin _ rfl
    exact concludes_result hk hc hw hgiven hvoid hwritten hbefore hafter hlater hfresh hholds hc'
      hguarded
  | failure hcause hdeclared hwritten hafter hlater hfresh hfreshFailure hclass hstream hholds =>
    exact concludes_failure hk hc hw hvars hcause hdeclared hwritten hafter hlater hfresh
      hfreshFailure hclass hstream hholds hguarded
  | @unknown thrown e _ l hcause hundeclared hclass hlater hfresh =>
    refine ⟨.error e, ⟨vars, l⟩, .of_error hcause hlater ?_ ?_, rfl, ?_⟩
    · -- A throwable failure can be written, so the unknown reply is not about one.
      intro failure _ _ hfind hthrowable _
      cases (written_throwable hk hthrowable).symm.trans (hundeclared failure hfind)
    · intro _
      rw [hclass]
      exact hk.isSubtype_of_standard (by decide) (by decide)
    · rw [exec_handle_error hguarded]
      refine exec_replyHandlers_passed hc.env ?_ ?_ <;>
        exact hclass ▸ (hk.isSubtype_eq (by decide) _).trans (by decide)
  | system hgiven hsystem hundeclared =>
    exact concludes_system hk hc hw hvars hgiven hsystem hundeclared (hagain _ hgiven) hguarded

/-! ### The way over the wire -/

/-- The class of the failure that the caller gets for one of the servant: its own if it is
    declared, and no system failure. -/
def callerFailure (h : Hierarchy) (declared : List Ty) (className : String) : String :=
  match declared.find? (h.isSubtype className ·.name) with
  | some _ => if h.isSubtype className Known.systemException then Known.remoteException
    else className
  | none => Known.remoteException

/-- What the caller gets where the servant is called with `args` in the state `w`. -/
structure Answers (link : Link) (m : RemoteOperation) (args : List Value) (w : Loopback)
    (r : Except ObjectRef Value) (l : Loopback) : Prop where
  later : (w.called args).Later l
  void : ∀ v, link.servant (op m).name args = .ok v → (op m).result.isVoid = true → r = .ok .void
  result : ∀ v, link.servant (op m).name args = .ok v → (op m).result.isVoid = false →
    v.Conforms link.hierarchy (op m).result → ∃ hp, w.heap.Extends hp ∧
      (hp.pass link.hierarchy (op m).result v).2.Extends l.heap ∧
      r = .ok (hp.pass link.hierarchy (op m).result v).1
  failure : ∀ className, link.servant (op m).name args = .error className →
    link.hierarchy.isThrowable className = true →
    (m.exposed.failures.application.map Idl.repositoryId).Nodup →
    ∃ e, r = .error e ∧
      e.className = callerFailure link.hierarchy m.exposed.failures.application className
  /-- A declared failure that is no system failure arrives as it passes. -/
  declared : ∀ className failure, link.servant (op m).name args = .error className →
    m.exposed.failures.application.find? (link.hierarchy.isSubtype className ·.name) =
      some failure →
    link.hierarchy.isThrowable className = true →
    link.hierarchy.isSubtype className Known.systemException = false →
    (m.exposed.failures.application.map Idl.repositoryId).Nodup →
    ∃ e, r = .error e ∧ w.heap.next.Extends l.heap ∧
      Heap.Passed link.hierarchy failure w.heap.next l.heap
        (.object ⟨w.heap.lastId + 1, className⟩) (.object e)

/-- A system failure becomes one of the remote protocol. -/
def mapped (h : Hierarchy) : Except ObjectRef Value × Loopback → Except ObjectRef Value × Loopback
  | (.error thrown, l) =>
    if h.isSubtype thrown.className Known.systemException then
      (.error ⟨l.heap.lastId + 1, Known.remoteException⟩, { l with heap := l.heap.next })
    else (.error thrown, l)
  | (.ok v, l) => (.ok v, l)

theorem later_mapped (h : Hierarchy) (r : Except ObjectRef Value × Loopback) :
    r.2.Later (mapped h r).2 := by
  rcases r with ⟨thrown | v, l⟩
  · rw [mapped]
    split
    · exact later_withHeap Heap.extends_next
    · exact .refl l
  · exact .refl l

/-- The ends of the exchange tell what the caller gets. -/
theorem Ends.answers {args : List Value} {w : Loopback} {r : Except ObjectRef Value}
    (he : Ends link m args w r l) :
    Answers link m args w (mapped link.hierarchy (r, l)).1 (mapped link.hierarchy (r, l)).2 where
  later := he.later.trans (later_mapped link.hierarchy (r, l))
  void v hgiven hvoid := by rw [he.void v hgiven hvoid, mapped]
  result v hgiven hvoid hconforms := by
    obtain ⟨hp, hbefore, hafter, rfl⟩ := he.result v hgiven hvoid hconforms
    exact ⟨hp, hbefore, hafter, rfl⟩
  failure className hgiven hthrowable hids := by
    rw [callerFailure]
    cases hfind : m.exposed.failures.application.find?
        (link.hierarchy.isSubtype className ·.name) with
    | some failure =>
      obtain ⟨e, rfl, -, hpassed⟩ := he.declared className failure hgiven hfind hthrowable hids
      have hclass : e.className = className := hpassed.className_eq
      rw [mapped, hclass]
      split
      · exact ⟨_, rfl, rfl⟩
      · exact ⟨e, rfl, hclass⟩
    | none =>
      obtain ⟨e, rfl, hsystem⟩ := he.undeclared className hgiven hfind
      rw [mapped, if_pos hsystem]
      exact ⟨_, rfl, rfl⟩
  declared className failure hgiven hfind hthrowable hsystem hids := by
    obtain ⟨e, rfl, hlater, hpassed⟩ := he.declared className failure hgiven hfind hthrowable hids
    have hclass : e.className = className := hpassed.className_eq
    rw [mapped, hclass, hsystem, if_neg Bool.false_ne_true]
    exact ⟨e, rfl, hlater, hpassed⟩

/-- What is done at the end of the exchange changes nothing. -/
theorem exec_releaseReply (hc : Calls act link ask f.world) :
    exec (act.block [.eval (ofSelf "_releaseReply" [.named Known.portableInputStream] .void
      [.var Stub.input])]) f = (.ok .normal, f) := by
  rw [exec_block_singleton]
  refine exec_stmt_eval (v := .void) ?_
  refine exec_ofSelf hc (by decide) (by decide) (exec_evalAll_singleton exec_eval_var) ?_
  rw [answer_other (by decide) (by decide) (by decide)]
  rfl

/-- Around the exchange, a system failure becomes one of the remote protocol. -/
theorem exec_mapped (hact : act.InLoopback link ask) {guarded : Run Loopback Flow}
    {r : Except ObjectRef Value} {f' : Frame Loopback}
    (hguarded : exec guarded f = (r.map .returned, f')) :
    ∃ vars, exec (act.handle guarded [⟨some Known.systemException, systemFailure,
        [.throw (.invokeStatic Known.protocolUtil "mapSystemException"
          [.named Known.systemException] (.named Known.remoteException)
          [.var systemFailure])]⟩]) f =
      ((mapped link.hierarchy (r, f'.world)).1.map .returned,
        ⟨vars, (mapped link.hierarchy (r, f'.world)).2⟩) := by
  cases r with
  | ok v => exact ⟨f'.vars, exec_handle_ok hguarded⟩
  | error thrown =>
    rw [exec_handle_error hguarded, mapped]
    split
    · rename_i hsystem
      have htaken : act.catches (some Known.systemException) thrown = true :=
        (isSubtype_eq hact _ _).trans hsystem
      rw [exec_firstHandler_taken htaken, exec_block_singleton]
      refine ⟨_, exec_stmt_throw ((exec_eval_call_static (exec_evalAll_singleton
        exec_eval_var)).trans (exec_invoke_static hact rfl))⟩
    · rename_i hsystem
      have hpassed : act.catches (some Known.systemException) thrown = false :=
        (isSubtype_eq hact _ _).trans (Bool.not_eq_true _ ▸ hsystem)
      rw [exec_firstHandler_passed hpassed, exec_firstHandler_nil]
      exact ⟨f'.vars, rfl⟩

/-- A stub's method that is to run over the wire: the stub joined to the skeleton that
    serves its interface, with arguments that conform to the parameters. -/
structure Joined (act : Activation Loopback) (link : Link)
    (inner : Option Value → Effect Loopback Value) (interface : String) (m : RemoteOperation)
    (l : Loopback) : Prop where
  keeps : link.hierarchy.KeepsStandard
  skeleton : ∃ methods : List Served, ⟨interface, m⟩ ∈ methods ∧
    (methods.map (·.operation.wire.name)).Nodup ∧
    link.skeleton = Skeleton.blueprint link.hierarchy link.skeleton.name interface methods
  calls : Calls act link (Loopback.exchange link (environmentWith link inner)) l
  sound : l.Sound
  fits : l.TargetFits interface
  conforms : Value.ConformsAll link.hierarchy (op m).params act.args
  /-- The servant does not tell the stub to start over. -/
  notAgain : ∀ className,
    link.servant (op m).name (sent link.hierarchy m act.args l).1 = .error className →
      ¬ StartsOver link.hierarchy m.exposed.failures.application className

/-- Over the wire the servant is called once, with the arguments as they cross the wire, and
    the caller gets what it gives. -/
theorem exec_remotePath {inner : Option Value → Effect Loopback Value} {interface : String}
    (unit : String) (hj : Joined act link inner interface m l) {vars : List Value}
    (hvars : 7 ≤ vars.length) :
    ∃ w r l' vars', Reached interface m.wire.name l w ∧
      (sent link.hierarchy m act.args l).2.Extends w.heap ∧
      Answers link m (sent link.hierarchy m act.args l).1 w r l' ∧
      exec (act.block (remotePath link.hierarchy unit m)) ⟨vars, l⟩ =
        (r.map .returned, ⟨vars', l'⟩) := by
  obtain ⟨methods, hm, hnames, hskeleton⟩ := hj.skeleton
  let vars₀ := vars.set Stub.input .null
  have hvars₀ : 7 ≤ vars₀.length := by
    rw [List.length_set]
    exact hvars
  obtain ⟨w, out, l₁, vars₁, hw, hsent, houtcome, hlen, hin, hexchange⟩ := exec_exchange inner hm
    hnames hskeleton hj.keeps hj.calls hj.sound hj.fits hj.conforms hvars₀
  have hvars₁ : 7 ≤ vars₁.length := hlen ▸ hvars₀
  -- The exchange is guarded by the handlers of replies; the reply is released behind both, and what
  -- is left is mapped for the caller.
  have hcw := hj.calls.of_reached hw
  obtain ⟨r, f₂, hends, -, hhandle⟩ := concludes_of_outcome unit hj.keeps houtcome hcw hw.sound
    hvars₁ hin hj.notAgain hexchange
  have hcalls : Calls act link (Loopback.exchange link (environmentWith link inner)) f₂.world :=
    Calls.of_later (l := w.called (sent link.hierarchy m act.args l).1)
      ⟨hcw.env, hcw.inherits, hcw.old, hcw.notTarget⟩ hends.later
  have hregion : exec (act.stmt (.region (exchange link.hierarchy m)
      (replyHandlers link.hierarchy unit m) (some ⟨none, [.eval (ofSelf "_releaseReply"
        [.named Known.portableInputStream] .void [.var Stub.input])]⟩))) ⟨vars₀, l⟩ =
      (r.map .returned, f₂) := by
    rw [exec_stmt_region]
    exact exec_exitBlock_normal hhandle (exec_releaseReply hcalls)
  have hassign : exec (act.stmt (.assign Stub.input .null)) ⟨vars, l⟩ = (.ok .normal, ⟨vars₀, l⟩) :=
    exec_stmt_assign exec_eval_const
  obtain ⟨vars', hmapped⟩ := exec_mapped hj.calls.env
    ((exec_block_normal hassign).trans (exec_block_singleton.trans hregion))
  refine ⟨w, _, _, vars', hw, hsent, hends.answers, ?_⟩
  rw [remotePath, exec_block_singleton, exec_stmt_region, exec_exitBlock_none]
  exact hmapped

/-- The stub's method, where the object is elsewhere. -/
theorem exec_method {b : Blueprint} {this : ObjectRef} {depth : Nat} {args : List Value}
    {inner : Option Value → Effect Loopback Value} {interface : String} (unit : String)
    (hj : Joined (b.activation (environmentWith link (Loopback.exchange link
      (environmentWith link inner))) this depth args) link inner interface m l)
    (hremote : link.colocated = false) :
    ∃ w r l', Reached interface m.wire.name l w ∧
      (sent link.hierarchy m args l).2.Extends w.heap ∧
      Answers link m (sent link.hierarchy m args l).1 w r l' ∧
      exec (b.runMethod (environmentWith link (Loopback.exchange link (environmentWith link inner)))
        this (depth + 1) (method link.hierarchy unit interface m) args) l = (r, l') := by
  let act := b.activation (environmentWith link (Loopback.exchange link
    (environmentWith link inner))) this depth args
  let zeros : List Value := (vars link.hierarchy m).map fun v => .zero v.type
  have hzeros : 7 ≤ zeros.length := by simp [zeros, vars]
  obtain ⟨w, r, l', vars', hw, hsent, hanswers, hpath⟩ := exec_remotePath unit hj hzeros
  refine ⟨w, r, l', hw, hsent, hanswers, ?_⟩
  have hlocal : exec (act.eval (.invokeStatic Known.protocolUtil "isLocal"
      [.named Known.protocolStub] .boolean [.this])) ⟨zeros, l⟩ =
      (.ok (.bool link.colocated), ⟨zeros, l⟩) :=
    (exec_eval_call_static (exec_evalAll_singleton exec_eval_this)).trans
      (exec_invoke_static rfl rfl)
  have hblock : exec (act.block [.cond (.isFalse (.invokeStatic Known.protocolUtil "isLocal"
      [.named Known.protocolStub] .boolean [.this])) (remotePath link.hierarchy unit m)
        (localPath link.hierarchy unit interface m)]) ⟨zeros, l⟩ =
      exec (act.block (remotePath link.hierarchy unit m)) ⟨zeros, l⟩ := by
    rw [exec_block_singleton, exec_stmt_cond (exec_test_isFalse hlocal), hremote]
    rfl
  rw [Blueprint.exec_runMethod rfl (hblock.trans hpath)]
  rcases r with thrown | v <;> rfl

end ComponentViews.Stub
