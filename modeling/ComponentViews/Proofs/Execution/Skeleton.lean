import ComponentViews.Proofs.Execution.Marshalling
import ComponentViews.Proofs.Execution.OperationLookup

/-!
# Running skeletons

A handler reads the arguments of its operation, calls the target and replies. What the
servant gives is told apart by how the call ends:

* `reply`: a result goes behind nothing else into the reply;
* `replyFailure`: of a failure, the first declared class that it is a subtype of decides
  which id goes before it; without such a class it leaves the handler;
* `system`: a failure that leaves the handler leaves the skeleton as a system failure.

`exec_call` puts them together: asked for the name of an operation, with its arguments in a
stream, the skeleton calls the servant once and answers what `answered` says.
-/

namespace ComponentViews.Skeleton

open Effect Loopback Activation Marshalling

/-! ### Replies -/

/-- A reply that ends with a value of a type, behind what it begins with; there is none if
    the value cannot be written. -/
def send (h : Hierarchy) (ty : Ty) (v : Value) (first : List Value) (l : Loopback) :
    Except ObjectRef Value × Loopback :=
  let id := l.heap.lastId + 1
  match written h ty v with
  | some u =>
    (.ok (.object ⟨id, Known.outputStream⟩), { l with
      heap := (l.heap.next.pass h ty u).2
      streams := (id, first ++ [(l.heap.next.pass h ty u).1]) :: l.streams })
  | none =>
    (.error ⟨id + 1, Known.classCastException⟩,
      { l with heap := l.heap.next.next, streams := (id, first) :: l.streams })

/-- The reply with a result of a type. -/
def reply (h : Hierarchy) (ty : Ty) (v : Value) (l : Loopback) :
    Except ObjectRef Value × Loopback :=
  let id := l.heap.lastId + 1
  if ty.isVoid then
    (.ok (.object ⟨id, Known.outputStream⟩),
      { l with heap := l.heap.next, streams := (id, []) :: l.streams })
  else send h ty v [] l

/-- The declared failure by which a failure is replied. -/
def declared? (h : Hierarchy) (declared : List Ty) (thrown : ObjectRef) : Option Ty :=
  declared.find? fun failure => h.isSubtype thrown.className failure.name

/-- The reply with a failure, if it is one of those declared. -/
def replyFailure (h : Hierarchy) (declared : List Ty) (thrown : ObjectRef) (l : Loopback) :
    Except ObjectRef Value × Loopback :=
  match declared? h declared thrown with
  | none => (.error thrown, l)
  | some failure =>
    send h failure (.object thrown) [.string (Idl.repositoryId failure)]
      { l with failureReplies := (l.heap.lastId + 1) :: l.failureReplies }

/-- A failure that leaves the skeleton: one of the system's, or else a new one for it. -/
def system (h : Hierarchy) (thrown : ObjectRef) (l : Loopback) :
    Except ObjectRef Value × Loopback :=
  if h.isSubtype thrown.className Known.systemException then (.error thrown, l)
  else
    (.error ⟨l.heap.lastId + 1, Known.unknownException⟩, { l with heap := l.heap.next })

/-- What follows a value. -/
def proceed (k : Value → Loopback → Except ObjectRef Value × Loopback) :
    Except ObjectRef Value × Loopback → Except ObjectRef Value × Loopback
  | (.ok v, l) => k v l
  | (.error thrown, l) => (.error thrown, l)

/-- What the handler of an operation answers once it has read the arguments. -/
def handled (link : Link) (m : Served) (args : List Value) (l : Loopback) :
    Except ObjectRef Value × Loopback :=
  let op := m.operation.exposed.op
  recover (replyFailure link.hierarchy m.operation.exposed.failures.application)
    (proceed (reply link.hierarchy op.result) (served link op.name args l))

/-- What the skeleton answers once the arguments have been read. -/
def answered (link : Link) (m : Served) (args : List Value) (l : Loopback) :
    Except ObjectRef Value × Loopback :=
  recover (system link.hierarchy) (handled link m args l)

section

variable {h : Hierarchy} {l : Loopback}

theorem later_send {ty : Ty} {v : Value} {first : List Value} {ids : List Nat}
    (hids : ∀ id ∈ ids, id ∈ l.failureReplies ∨ id ≤ l.heap.lastId + 1) :
    l.Later (send h ty v first { l with failureReplies := ids }).2 := by
  have hopen : l.Later { l with
      heap := l.heap.next, streams := (l.heap.lastId + 1, first) :: l.streams
      failureReplies := ids } :=
    (later_opened first).trans (later_failureReplies hids)
  rw [send]
  split
  · rename_i u _
    have hpass : l.heap.next.Extends (l.heap.next.pass h ty u).2 := Heap.extends_pass
    exact ⟨Heap.extends_next.trans hpass, fun hl => (hopen.sound hl).withContents
      ⟨rfl, (hl.holds_open first).others⟩ hpass _, rfl, rfl, rfl, rfl⟩
  · exact hopen.trans (later_withHeap Heap.extends_next)

theorem later_reply (ty : Ty) (v : Value) : l.Later (reply h ty v l).2 := by
  rw [reply]
  split
  · exact later_opened []
  · exact later_send fun id hid => .inl hid

end

/-! ### Running a handler -/

section

variable {act : Activation Loopback} {f : Frame Loopback} {link : Link}
  {ask : Option Value → Effect Loopback Value} {p : Nat} {c : String} {unit target : String}
  {m : Served}

/-- The response handler opens a stream for the reply. -/
theorem exec_replyExpr (hact : act.InLoopback link ask)
    (hp : act.args.getD 1 .null = .object ⟨p, c⟩) (hforeign : act.Foreign f.world p)
    {kind : String} {id : Nat} {w : Loopback}
    (ha : exec (Loopback.answer link ask ⟨.interface, Known.responseHandler, kind, [],
        .named Known.portableOutputStream⟩ (some (.object ⟨p, c⟩)) []) f.world =
      (.ok (.object ⟨id, Known.outputStream⟩), w)) :
    exec (act.eval (replyExpr kind)) f =
      (.ok (.object ⟨id, Known.outputStream⟩), { f with world := w }) := by
  have hcall : exec (act.eval (.invoke .interface (.arg 1) Known.responseHandler kind []
      (.named Known.portableOutputStream) [])) f =
      (.ok (.object ⟨id, Known.outputStream⟩), { f with world := w }) := by
    refine (exec_eval_call exec_eval_arg exec_evalAll_nil).trans ?_
    rw [hp]
    exact exec_invoke_foreign hact hforeign ha
  rw [replyExpr, exec_eval_cast hcall]
  exact exec_cast hact (castTo_self _ _)

/-- The call of the target in the handler of an operation. -/
def callTarget (h : Hierarchy) (unit target : String) (m : Served) : Expr :=
  let op := m.operation.exposed.op
  .invoke .interface (.cast (.named m.interface) (targetExpr unit target)) m.interface op.name
    op.params op.result (op.params.map fun ty => read h ty (.arg 0))

/-- The call of the target reads the arguments, and hands them to the servant. -/
theorem exec_callTarget (hact : act.InLoopback link ask) (hl : f.world.Sound)
    (htie : f.world.tie = some act.this) (hunit : unit = link.skeleton.name)
    (hfits : f.world.TargetFits target) (hinterface : m.interface = target) {j : Nat}
    {args : List Value} {rest : List (Nat × List Value)}
    (hin : act.args.getD 0 .null = .object ⟨j, c⟩) (hj : act.Foreign f.world j)
    (hold : j ≤ f.world.heap.lastId) (hs : f.world.Holds j args rest)
    (hargs : Value.ConformsAll link.hierarchy m.operation.exposed.op.params args) :
    ∃ t hp, f.world.heap.Extends hp ∧
      (f.world.target = some t ∨ t = ⟨f.world.heap.lastId + 1, target⟩) ∧
      let w : Loopback := { f.world with heap := hp, target := some t, streams := (j, []) :: rest }
      w.Sound ∧ exec (act.eval (callTarget link.hierarchy unit target m)) f =
        ((served link m.operation.exposed.op.name args w).1,
          ⟨f.vars, (served link m.operation.exposed.op.name args w).2⟩) := by
  obtain ⟨t, hp, htarget, hext, hsound, ht⟩ := exec_targetObject hl (.named target)
  refine ⟨t, hp, hext, ht, ?_⟩
  let g : Frame Loopback := { f with world := { f.world with heap := hp, target := some t } }
  have hs' : g.world.Holds j (args ++ []) rest := by
    rw [List.append_nil]
    exact ⟨hs.streams, hs.others⟩
  -- The stream is older than a target that is made for this call.
  have hj' : act.Foreign g.world j := by
    refine ⟨hj.1, ?_⟩
    rintro t' ⟨⟩
    rcases ht with ht | rfl
    · exact hj.2 t ht
    · simp only
      omega
  have hclass : t.className = target ∨ t.className = Known.object := by
    rcases ht with ht | rfl
    · exact hfits t ht
    · exact .inl rfl
  -- A target of the interface or of no particular class can be cast to the interface.
  obtain ⟨c', hcast⟩ := exists_castTo link.hierarchy (.named m.interface) t (by
    rw [hinterface]
    rcases hclass with ht | ht <;> rw [ht]
    · exact .inl (Hierarchy.isSubtype_refl _ _)
    · exact .inr (Hierarchy.isSubtype_object _ _))
  have hfield : exec (act.eval (targetExpr unit target)) f = (.ok (.object t), g) := by
    refine (exec_eval_field exec_eval_this).trans ?_
    rw [hact]
    refine Run.exec_outside ?_
    show exec (getField link act.this ⟨unit, Known.tieTargetField, .named target⟩) f.world = _
    rw [getField, hunit, if_pos (by simp), exec_bind_ok htarget, exec_pure]
  have hreceiver : exec (act.eval (.cast (.named m.interface) (targetExpr unit target))) f =
      (.ok (.object ⟨t.id, c'⟩), g) :=
    (exec_eval_cast hfield).trans (exec_cast hact hcast)
  have hin' : ∀ w, exec (act.eval (.arg 0)) { g with world := w } =
      (.ok (.object ⟨j, c⟩), { g with world := w }) := by
    intro w
    rw [exec_eval_arg, hin]
  have hreads := exec_readAll hact (f := g) hargs hin' hj' hs'
  refine ⟨hsound.withContents hs' (.refl _) _, (exec_eval_call hreceiver hreads).trans ?_⟩
  exact exec_invoke_target hact rfl rfl fun heq =>
    hsound.apart act.this t htie rfl heq.symm

theorem answer_eq (h : Hierarchy) (unit target : String) (m : Served) :
    answer h unit target m =
      (if m.operation.exposed.op.result.isVoid then
        [.eval (callTarget h unit target m), .assign output (replyExpr "createReply")]
      else
        [.assign result (callTarget h unit target m), .assign output (replyExpr "createReply"),
          .eval (write h m.operation.exposed.op.result (.var output) (.var result))]) ++
        [.ret (some (.var output))] := rfl

/-- Writes the value in a variable behind what the reply begins with, and returns. -/
theorem exec_send (hact : act.InLoopback link ask) {l : Loopback} {ty : Ty} {v : Value}
    {first : List Value} {vars : List Value} {i : Nat} (hk : act.Foreign l (l.heap.lastId + 1))
    (hothers : ∀ p ∈ l.streams, p.1 ≠ l.heap.lastId + 1)
    (hout : vars.getD output .null = .object ⟨l.heap.lastId + 1, Known.outputStream⟩)
    (hvar : vars.getD i .null = v) :
    exec (act.block [.eval (write link.hierarchy ty (.var output) (.var i)),
        .ret (some (.var output))])
      ⟨vars, { l with heap := l.heap.next, streams := (l.heap.lastId + 1, first) :: l.streams }⟩ =
      returning vars (send link.hierarchy ty v first l) := by
  let f : Frame Loopback :=
    ⟨vars, { l with heap := l.heap.next, streams := (l.heap.lastId + 1, first) :: l.streams }⟩
  have heval : ∀ w : Loopback, exec (act.eval (.var output)) ⟨vars, w⟩ =
      (.ok (.object ⟨l.heap.lastId + 1, Known.outputStream⟩), ⟨vars, w⟩) := by
    intro w
    rw [exec_eval_var, hout]
  have hvalue : exec (act.eval (.var i)) f = (.ok v, f) := by
    rw [exec_eval_var, hvar]
  rw [send]
  cases hu : written link.hierarchy ty v with
  | some u =>
    have hwrite := exec_write (f := f) hact (heval _) hvalue (hk.of_target_eq rfl)
      ⟨rfl, hothers⟩ hu
    rw [exec_block_normal (exec_stmt_eval hwrite), exec_block_singleton]
    exact exec_stmt_ret (heval _)
  | none =>
    exact exec_block_error (exec_stmt_eval_error (exec_write_error (f := f) hact (heval _)
      hvalue hu))

/-- A handler that has called the target replies with the value that it got. -/
theorem exec_answer (hact : act.InLoopback link ask) {v : Value} {vars : List Value}
    {w w' : Loopback} (hl : w'.Sound) (hthis : act.this.id ≤ w'.heap.lastId)
    (hp : act.args.getD 1 .null = .object ⟨p, c⟩) (hforeign : act.Foreign w' p)
    (hcall : exec (act.eval (callTarget link.hierarchy unit target m)) ⟨vars, w⟩ =
      (.ok v, ⟨vars, w'⟩))
    (hvars : (handlerVars m).length ≤ vars.length) :
    ∃ vars', vars'.length = vars.length ∧
      exec (act.block (answer link.hierarchy unit target m)) ⟨vars, w⟩ =
        returning vars' (reply link.hierarchy m.operation.exposed.op.result v w') := by
  have hout : ∀ vars : List Value, exec (act.eval (replyExpr "createReply")) ⟨vars, w'⟩ =
      (.ok (.object ⟨w'.heap.lastId + 1, Known.outputStream⟩), ⟨vars, { w' with
        heap := w'.heap.next, streams := (w'.heap.lastId + 1, []) :: w'.streams }⟩) :=
    fun vars => exec_replyExpr (f := ⟨vars, w'⟩) hact hp hforeign rfl
  rw [answer_eq, reply]
  simp only [handlerVars, List.length_cons] at hvars
  split
  · -- There is no result to be written.
    refine ⟨vars.set output (.object ⟨w'.heap.lastId + 1, Known.outputStream⟩),
      List.length_set, ?_⟩
    rw [List.cons_append, exec_block_normal (exec_stmt_eval hcall), List.cons_append,
      exec_block_normal (exec_stmt_assign (hout vars)), List.nil_append, exec_block_singleton]
    refine (exec_stmt_ret exec_eval_var).trans ?_
    rw [getD_set (by simp only [output]; omega)]
    rfl
  · rename_i hvoid
    simp only [hvoid, Bool.false_eq_true, if_false, List.length_cons, List.length_nil] at hvars
    have hvar : (((vars.set result v).set output
        (.object ⟨w'.heap.lastId + 1, Known.outputStream⟩)).getD result .null) = v := by
      rw [getD_set_ne (by decide), getD_set (by simp only [result]; omega)]
    refine ⟨(vars.set result v).set output (.object ⟨w'.heap.lastId + 1, Known.outputStream⟩),
      by rw [List.length_set, List.length_set], ?_⟩
    rw [List.cons_append, exec_block_normal (exec_stmt_assign hcall), List.cons_append,
      exec_block_normal (exec_stmt_assign (hout _))]
    refine exec_send hact (foreign_next hl hthis) (hl.holds_open []).others (getD_set ?_) hvar
    rw [List.length_set]
    simp only [output]
    omega

/-- A handler whose target has failed does not reply by itself. -/
theorem exec_answer_error {vars : List Value} {w w' : Loopback} {thrown : ObjectRef} {h : Hierarchy}
    (hcall : exec (act.eval (callTarget h unit target m)) ⟨vars, w⟩ = (.error thrown, ⟨vars, w'⟩)) :
    exec (act.block (answer h unit target m)) ⟨vars, w⟩ = (.error thrown, ⟨vars, w'⟩) := by
  rw [answer_eq]
  split
  · exact exec_block_error (exec_stmt_eval_error hcall)
  · exact exec_block_error (exec_stmt_assign_error hcall)

/-- The handler of a declared failure replies with it. -/
theorem exec_answerFailure (hact : act.InLoopback link ask) {w : Loopback} (hl : w.Sound)
    (hthis : act.this.id ≤ w.heap.lastId) (hp : act.args.getD 1 .null = .object ⟨p, c⟩)
    (hforeign : act.Foreign w p) {vars : List Value} {i : Nat} {thrown : ObjectRef}
    (hi : output ≠ i) (hvar : vars.getD i .null = .object thrown) (hvars : output < vars.length)
    (failure : Ty) :
    ∃ vars', exec (act.block ((answerFailure link.hierarchy failure).body i)) ⟨vars, w⟩ =
      returning vars' (send link.hierarchy failure (.object thrown)
        [.string (Idl.repositoryId failure)]
        { w with failureReplies := (w.heap.lastId + 1) :: w.failureReplies }) := by
  let l : Loopback := { w with failureReplies := (w.heap.lastId + 1) :: w.failureReplies }
  let vars' := vars.set output (.object ⟨w.heap.lastId + 1, Known.outputStream⟩)
  -- The stream for the reply is a new one, so what is written goes to it alone.
  have hk : act.Foreign l (l.heap.lastId + 1) := (foreign_next hl hthis).of_target_eq rfl
  have hothers : ∀ p ∈ l.streams, p.1 ≠ l.heap.lastId + 1 := (hl.holds_open []).others
  have hout : vars'.getD output .null = .object ⟨l.heap.lastId + 1, Known.outputStream⟩ :=
    getD_set hvars
  have hreply : exec (act.eval (replyExpr "createExceptionReply")) ⟨vars, w⟩ = _ :=
    exec_replyExpr (f := ⟨vars, w⟩) hact hp hforeign rfl
  let f : Frame Loopback :=
    ⟨vars', { l with heap := l.heap.next, streams := (l.heap.lastId + 1, []) :: l.streams }⟩
  have hid : exec (act.eval (.invoke .virtual (.var output) Known.portableOutputStream
      "write_string" [.string] .void [.string (Idl.repositoryId failure)])) f =
      (.ok .void, ⟨vars', { l with heap := l.heap.next, streams :=
        (l.heap.lastId + 1, [.string (Idl.repositoryId failure)]) :: l.streams }⟩) := by
    have heval : exec (act.eval (.var output)) f =
        (.ok (.object ⟨l.heap.lastId + 1, Known.outputStream⟩), f) := by
      rw [exec_eval_var, hout]
    refine (exec_eval_call heval (exec_evalAll_singleton exec_eval_const)).trans ?_
    refine exec_invoke_foreign hact (hk.of_target_eq rfl) ?_
    rw [answer_write (by decide) (by decide)]
    exact exec_push (l := f.world) ⟨rfl, hothers⟩
  refine ⟨vars', ?_⟩
  show exec (act.block (.assign output (replyExpr "createExceptionReply") :: _)) ⟨vars, w⟩ = _
  rw [exec_block_normal (exec_stmt_assign hreply)]
  refine (exec_block_normal (exec_stmt_eval hid)).trans ?_
  exact exec_send hact hk hothers hout ((getD_set_ne hi).trans hvar)

/-- The handlers of the declared failures reply with a failure, or let it pass. -/
theorem exec_firstHandler_catches (hact : act.InLoopback link ask) {w : Loopback}
    (hl : w.Sound) (hthis : act.this.id ≤ w.heap.lastId)
    (hp : act.args.getD 1 .null = .object ⟨p, c⟩) (hforeign : act.Foreign w p)
    {thrown : ObjectRef} {vars : List Value} {n : Nat} (declared : List Ty) (hn : output < n)
    (hvars : n + declared.length ≤ vars.length) :
    ∃ vars', exec (act.firstHandler thrown
        (Catch.handlers n (declared.map (answerFailure link.hierarchy)))) ⟨vars, w⟩ =
      returning vars' (replyFailure link.hierarchy declared thrown w) := by
  induction declared generalizing n with
  | nil => exact ⟨vars, exec_firstHandler_nil⟩
  | cons failure rest ih =>
    rw [List.length_cons] at hvars
    rw [List.map_cons, Catch.handlers, replyFailure, declared?, List.find?_cons]
    cases hcatch : link.hierarchy.isSubtype thrown.className failure.name with
    | true =>
      have hx : act.catches (answerFailure link.hierarchy failure).caught thrown = true :=
        (isSubtype_eq hact _ _).trans hcatch
      have hset : (vars.set n (.object thrown)).getD n .null = .object thrown :=
        getD_set (by omega)
      obtain ⟨vars', hbody⟩ := exec_answerFailure hact hl hthis hp hforeign hn.ne hset
        (by rw [List.length_set]; omega) failure
      exact ⟨vars', (exec_firstHandler_taken hx).trans hbody⟩
    | false =>
      have hx : act.catches (answerFailure link.hierarchy failure).caught thrown = false :=
        (isSubtype_eq hact _ _).trans hcatch
      obtain ⟨vars', hrest⟩ := ih (n := n + 1) (by omega) (by omega)
      exact ⟨vars', (exec_firstHandler_passed hx).trans hrest⟩

/-- What a handler answers is told by what the servant gives. -/
theorem exec_handlerBlock (hact : act.InLoopback link ask) {w w' : Loopback} (hl : w'.Sound)
    (hthis : act.this.id ≤ w'.heap.lastId) (hp : act.args.getD 1 .null = .object ⟨p, c⟩)
    (hforeign : act.Foreign w' p) {vars args : List Value}
    (hcall : exec (act.eval (callTarget link.hierarchy unit target m)) ⟨vars, w⟩ =
      ((served link m.operation.exposed.op.name args w').1,
        ⟨vars, (served link m.operation.exposed.op.name args w').2⟩))
    (hvars : (handlerVars m).length + m.operation.exposed.failures.application.length ≤
      vars.length) :
    ∃ vars', exec (act.block (handlerBlock link.hierarchy unit target m)) ⟨vars, w⟩ =
      returning vars' (handled link m args w') := by
  have hpos : output < (handlerVars m).length := by
    simp only [handlerVars, List.length_cons, output]
    omega
  have hserved := later_served link m.operation.exposed.op.name args w'
  have hsound := hserved.sound (hl.called args)
  have hthis' := hthis.trans hserved.heap.lastId
  have hforeign' : act.Foreign (served link m.operation.exposed.op.name args w').2 p :=
    hforeign.of_target_eq hserved.target
  rw [handled]
  generalize served link m.operation.exposed.op.name args w' = call at *
  -- The block replies with a value, and leaves a failure to the handlers.
  obtain ⟨vars', hlen, hlater, hanswer⟩ : ∃ vars', vars'.length = vars.length ∧
      call.2.Later (proceed (reply link.hierarchy m.operation.exposed.op.result) call).2 ∧
      exec (act.block (answer link.hierarchy unit target m)) ⟨vars, w⟩ =
        returning vars' (proceed (reply link.hierarchy m.operation.exposed.op.result) call) := by
    rcases call with ⟨thrown | v, w''⟩
    · exact ⟨vars, rfl, .refl _, exec_answer_error hcall⟩
    · obtain ⟨vars', hlen, hanswer⟩ := exec_answer hact hsound hthis' hp hforeign' hcall
        (by omega)
      exact ⟨vars', hlen, later_reply _ _, hanswer⟩
  generalize proceed (reply link.hierarchy m.operation.exposed.op.result) call = r at *
  rw [handlerBlock]
  split
  · -- Where no failure is declared, none is replied.
    rename_i hempty
    have hnone : m.operation.exposed.failures.application = [] := by
      simpa [catches] using hempty
    refine ⟨vars', hanswer.trans ?_⟩
    rcases r with ⟨thrown | v, w''⟩
    · rw [hnone]
      rfl
    · rfl
  · rw [exec_block_singleton, exec_stmt_region, exec_exitBlock_none]
    rcases r with ⟨thrown | v, w''⟩
    · rw [exec_handle_error hanswer]
      exact exec_firstHandler_catches hact (hlater.sound hsound)
        (hthis'.trans hlater.heap.lastId) hp (hforeign'.of_target_eq hlater.target) _ hpos
        (by omega)
    · exact ⟨vars', exec_handle_ok hanswer⟩

end

/-! ### Asking the skeleton -/

section

variable {link : Link} {tie : ObjectRef} {l : Loopback} {unit target : String} {m : Served}
  {args : List Value} {j p : Nat} {rest : List (Nat × List Value)}

/-- The skeleton is about to be asked for an operation: its arguments are in the stream `j`,
    and the response handler is `p`. -/
structure Asked (link : Link) (tie : ObjectRef) (unit target : String) (m : Served) (j p : Nat)
    (args : List Value) (rest : List (Nat × List Value)) (l : Loopback) : Prop where
  sound : l.Sound
  tied : l.tie = some tie
  unit : unit = link.skeleton.name
  fits : l.TargetFits target
  interface : m.interface = target
  input : j ≠ tie.id ∧ ∀ t, l.target = some t → j ≠ t.id
  inputOld : j ≤ l.heap.lastId
  handler : p ≠ tie.id ∧ ∀ t, l.target = some t → p ≠ t.id
  handlerOld : p ≤ l.heap.lastId
  holds : l.Holds j args rest
  conforms : Value.ConformsAll link.hierarchy m.operation.exposed.op.params args

/-- The state in which the servant is called: the arguments have been read, and there is a
    target. -/
structure Ready (target : String) (j : Nat) (rest : List (Nat × List Value)) (l w : Loopback) :
    Prop where
  sound : w.Sound
  heap : l.heap.Extends w.heap
  target : ∃ t, w.target = some t ∧ (l.target = some t ∨ t = ⟨l.heap.lastId + 1, target⟩)
  same : w = { l with heap := w.heap, target := w.target, streams := (j, []) :: rest }

/-- The handler of an operation. -/
theorem exec_runHandler (ask : Option Value → Effect Loopback Value) (b : Blueprint) (depth : Nat)
    (hl : Asked link tie unit target m j p args rest l) :
    ∃ w, Ready target j rest l w ∧
      exec (b.runMethod (environmentWith link ask) tie (depth + 1)
        (handler link.hierarchy unit target m)
        [.object ⟨j, Known.inputStream⟩, .object ⟨p, Known.responseHandler⟩]) l =
        handled link m args w := by
  let act := b.activation (environmentWith link ask) tie depth
    [.object ⟨j, Known.inputStream⟩, .object ⟨p, Known.responseHandler⟩]
  let vars := (handlerVars m ++ (catches link.hierarchy m).map (·.binding)).map fun v =>
    Value.zero v.type
  have hact : act.InLoopback link ask := rfl
  obtain ⟨t, hp, hext, ht, hsound, hcall⟩ := exec_callTarget (f := ⟨vars, l⟩) hact hl.sound hl.tied
    hl.unit hl.fits hl.interface (c := Known.inputStream) rfl hl.input hl.inputOld hl.holds
    hl.conforms
  let w : Loopback := { l with heap := hp, target := some t, streams := (j, []) :: rest }
  have hforeign : act.Foreign w p := by
    refine ⟨hl.handler.1, ?_⟩
    rintro t' ⟨⟩
    have := hl.handlerOld
    rcases ht with ht | rfl
    · exact hl.handler.2 t ht
    · simp only
      omega
  obtain ⟨vars', hblock⟩ := exec_handlerBlock hact hsound
    ((hl.sound.tie tie hl.tied).trans hext.lastId) (c := Known.responseHandler) rfl hforeign hcall
    (by simp [vars, catches])
  refine ⟨w, ⟨hsound, hext, ⟨t, rfl, ht⟩, rfl⟩, ?_⟩
  rw [Blueprint.exec_runMethod body_handler hblock]
  rcases handled link m args w with ⟨thrown | v, w'⟩ <;> rfl

theorem passOn_environmentWith (ask : Option Value → Effect Loopback Value) :
    passOn (environmentWith link ask) = system link.hierarchy :=
  rfl

/-- Asked for the name of an operation, the skeleton calls the servant once, and answers with
    what it gives. -/
theorem exec_call (ask : Option Value → Effect Loopback Value) {methods : List Served}
    (hm : m ∈ methods) (hnames : (methods.map (·.operation.wire.name)).Nodup)
    (hskeleton : link.skeleton = blueprint link.hierarchy unit target methods)
    (hl : Asked link tie unit target m j p args rest l) :
    ∃ w, Ready target j rest l w ∧
      exec (link.skeleton.call (environmentWith link ask) tie "_invoke"
        [.string m.operation.wire.name, .object ⟨j, Known.inputStream⟩,
          .object ⟨p, Known.responseHandler⟩]) l = answered link m args w := by
  have hstream : (environmentWith link ask).isSubtype Known.inputStream Known.inputStream = true :=
    link.hierarchy.isSubtype_refl Known.inputStream
  obtain ⟨w, hready, hrun⟩ := exec_runHandler ask link.skeleton 62 hl
  refine ⟨w, hready, ?_⟩
  rw [hskeleton] at hrun ⊢
  rw [exec_call_invoke hstream, attend, servedBy_of_mem hm hnames, passOn_environmentWith, answered]
  exact congrArg _ hrun

end

end ComponentViews.Skeleton
