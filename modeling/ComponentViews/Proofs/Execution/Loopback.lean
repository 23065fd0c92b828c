import ComponentViews.Execution.Loopback
import ComponentViews.Proofs.Execution.Effect
import ComponentViews.Proofs.Execution.Heap
import ComponentViews.Proofs.Hierarchy.Subtyping

/-!
# Runs in the loopback environment

What the operations of the loopback environment do to a state that is *sound*: all numbers
in it have been given away, and the instance of the skeleton is not its target.

Everything that is not called on the target is answered by the environment itself
(`answer`), and there is a lemma for each name that generated code calls. A stream is
worked with while it is the latest (`Holds`).
-/

namespace ComponentViews

namespace Loopback

open Effect

variable {α : Type} {link : Link} {ask : Option Value → Effect Loopback Value} {l : Loopback}

/-! ### Sound states -/

/-- The numbers in the state have been given away, and the instance of the skeleton is not
    the object that it calls. -/
structure Sound (l : Loopback) : Prop where
  heap : l.heap.Sound
  streams : ∀ p ∈ l.streams, p.1 ≤ l.heap.lastId
  failureReplies : ∀ id ∈ l.failureReplies, id ≤ l.heap.lastId
  tie : ∀ o, l.tie = some o → o.id ≤ l.heap.lastId
  target : ∀ o, l.target = some o → o.id ≤ l.heap.lastId
  apart : ∀ o p, l.tie = some o → l.target = some p → o.id ≠ p.id

/-- The empty state is sound. -/
theorem sound_empty : Sound {} where
  heap _ hs := absurd hs List.not_mem_nil
  streams _ hp := absurd hp List.not_mem_nil
  failureReplies _ hid := absurd hid List.not_mem_nil
  tie _ ho := nomatch ho
  target _ ho := nomatch ho
  apart _ _ ho := nomatch ho

theorem Sound.withHeap (hl : l.Sound) {h : Heap} (hh : l.heap.Extends h) :
    Sound { l with heap := h } where
  heap := hh.sound hl.heap
  streams p hp := (hl.streams p hp).trans hh.lastId
  failureReplies id hid := (hl.failureReplies id hid).trans hh.lastId
  tie o ho := (hl.tie o ho).trans hh.lastId
  target o ho := (hl.target o ho).trans hh.lastId
  apart := hl.apart

theorem Sound.withStreams (hl : l.Sound) {streams : List (Nat × List Value)}
    (hs : ∀ p ∈ streams, p.1 ≤ l.heap.lastId) : Sound { l with streams } :=
  ⟨hl.heap, hs, hl.failureReplies, hl.tie, hl.target, hl.apart⟩

/-- The latest stream is `k` with the contents `cs`; `rest` are the others. -/
structure Holds (l : Loopback) (k : Nat) (cs : List Value) (rest : List (Nat × List Value)) :
    Prop where
  streams : l.streams = (k, cs) :: rest
  others : ∀ p ∈ rest, p.1 ≠ k

theorem Holds.filter {k : Nat} {cs : List Value} {rest : List (Nat × List Value)}
    (hk : l.Holds k cs rest) : l.streams.filter (·.1 != k) = rest := by
  rw [hk.streams, List.filter_cons_of_neg (by simp), List.filter_eq_self]
  intro p hp
  simpa using hk.others p hp

theorem Holds.lookup {k : Nat} {cs : List Value} {rest : List (Nat × List Value)}
    (hk : l.Holds k cs rest) : l.streams.lookup k = some cs := by
  rw [hk.streams, List.lookup_cons_self]

/-- The contents of the latest stream change. -/
theorem Holds.withContents {k : Nat} {cs : List Value} {rest : List (Nat × List Value)}
    (hk : l.Holds k cs rest) (h : Heap) (cs' : List Value) :
    Holds { l with heap := h, streams := (k, cs') :: rest } k cs' rest :=
  ⟨rfl, hk.others⟩

theorem Holds.withHeap {k : Nat} {cs : List Value} {rest : List (Nat × List Value)}
    (hk : l.Holds k cs rest) (h : Heap) : Holds { l with heap := h } k cs rest :=
  ⟨hk.streams, hk.others⟩

/-- A new stream is the latest. -/
theorem Sound.holds_open (hl : l.Sound) (cs : List Value) :
    Holds { l with heap := l.heap.next, streams := (l.heap.lastId + 1, cs) :: l.streams }
      (l.heap.lastId + 1) cs l.streams := by
  refine ⟨rfl, fun p hp => ?_⟩
  have := hl.streams p hp
  omega

theorem Sound.opened (hl : l.Sound) (cs : List Value) :
    Sound { l with heap := l.heap.next, streams := (l.heap.lastId + 1, cs) :: l.streams } := by
  refine (hl.withHeap Heap.extends_next).withStreams fun p hp => ?_
  rcases List.mem_cons.1 hp with rfl | hp
  · exact le_rfl
  · exact (hl.streams p hp).trans (Nat.le_succ _)

theorem Sound.withContents (hl : l.Sound) {k : Nat} {cs : List Value}
    {rest : List (Nat × List Value)} (hk : l.Holds k cs rest) {h : Heap} (hh : l.heap.Extends h)
    (cs' : List Value) : Sound { l with heap := h, streams := (k, cs') :: rest } := by
  refine (hl.withHeap hh).withStreams fun p hp => ?_
  have hall := hl.streams
  rw [hk.streams] at hall
  rcases List.mem_cons.1 hp with rfl | hp
  · exact (hall (k, cs) List.mem_cons_self).trans hh.lastId
  · exact (hall p (List.mem_cons_of_mem _ hp)).trans hh.lastId

/-! ### Later states -/

/-- `l'` comes of `l` without a further request or call of the servant: the store has grown,
    and streams have been worked with. -/
structure Later (l l' : Loopback) : Prop where
  heap : l.heap.Extends l'.heap
  sound : l.Sound → l'.Sound
  tie : l'.tie = l.tie
  target : l'.target = l.target
  requests : l'.requestsReversed = l.requestsReversed
  received : l'.receivedReversed = l.receivedReversed

theorem Later.refl (l : Loopback) : l.Later l := ⟨.refl _, id, rfl, rfl, rfl, rfl⟩

theorem Later.trans {l' l'' : Loopback} (h₁ : l.Later l') (h₂ : l'.Later l'') : l.Later l'' :=
  ⟨h₁.heap.trans h₂.heap, fun hl => h₂.sound (h₁.sound hl), h₂.tie.trans h₁.tie,
    h₂.target.trans h₁.target, h₂.requests.trans h₁.requests, h₂.received.trans h₁.received⟩

theorem later_withHeap {h : Heap} (hh : l.heap.Extends h) : l.Later { l with heap := h } :=
  ⟨hh, fun hl => hl.withHeap hh, rfl, rfl, rfl, rfl⟩

theorem later_opened (cs : List Value) :
    l.Later { l with heap := l.heap.next, streams := (l.heap.lastId + 1, cs) :: l.streams } :=
  ⟨Heap.extends_next, fun hl => hl.opened cs, rfl, rfl, rfl, rfl⟩

theorem Holds.later {k : Nat} {cs : List Value} {rest : List (Nat × List Value)}
    (hk : l.Holds k cs rest) {h : Heap} (hh : l.heap.Extends h) (cs' : List Value) :
    l.Later { l with heap := h, streams := (k, cs') :: rest } :=
  ⟨hh, fun hl => hl.withContents hk hh cs', rfl, rfl, rfl, rfl⟩

theorem Holds.later_close {k : Nat} {cs : List Value} {rest : List (Nat × List Value)}
    (hk : l.Holds k cs rest) : l.Later { l with streams := rest } := by
  refine ⟨.refl _, fun hl => hl.withStreams fun p hp => hl.streams p ?_, rfl, rfl, rfl, rfl⟩
  rw [hk.streams]
  exact List.mem_cons_of_mem _ hp

theorem later_failureReplies {ids : List Nat}
    (hids : ∀ id ∈ ids, id ∈ l.failureReplies ∨ id ≤ l.heap.lastId) :
    l.Later { l with failureReplies := ids } :=
  ⟨.refl _, fun hl => ⟨hl.heap, hl.streams,
    fun id hid => (hids id hid).elim (hl.failureReplies id) fun h => h, hl.tie, hl.target,
    hl.apart⟩, rfl, rfl, rfl, rfl⟩

/-! ### Operations of the store and of streams -/

@[simp] theorem exec_onHeap {f : Heap → α × Heap} :
    exec (onHeap f) l = (.ok (f l.heap).1, { l with heap := (f l.heap).2 }) := rfl

@[simp] theorem exec_failWith {className : String} :
    exec (failWith className : Effect Loopback α) l =
      (.error ⟨l.heap.lastId + 1, className⟩, { l with heap := l.heap.next }) := rfl

theorem exec_push {k : Nat} {c : String} {cs : List Value} {rest : List (Nat × List Value)}
    {v : Value} (hk : l.Holds k cs rest) :
    exec (push (some (.object ⟨k, c⟩)) v) l =
      (.ok .void, { l with streams := (k, cs ++ [v]) :: rest }) := by
  have hcontents : l.contents? (some (.object ⟨k, c⟩)) = some (k, cs) := by
    simp [contents?, Value.object?, hk.lookup]
  rw [push, exec_bind_ok exec_get, hcontents]
  show (Except.ok Value.void,
    { l with streams := (k, cs ++ [v]) :: l.streams.filter (·.1 != k) }) = _
  rw [hk.filter]

theorem exec_pop {k : Nat} {c : String} {v : Value} {cs : List Value}
    {rest : List (Nat × List Value)} (hk : l.Holds k (v :: cs) rest) :
    exec (pop (some (.object ⟨k, c⟩))) l = (.ok v, { l with streams := (k, cs) :: rest }) := by
  have hcontents : l.contents? (some (.object ⟨k, c⟩)) = some (k, v :: cs) := by
    simp [contents?, Value.object?, hk.lookup]
  rw [pop, exec_bind_ok exec_get, hcontents]
  show (Except.ok v, { l with streams := (k, cs) :: l.streams.filter (·.1 != k) }) = _
  rw [hk.filter]

/-- There is nothing to be read from a stream that is not there. -/
theorem exec_pop_of_lookup_eq_none {o : ObjectRef} (ho : l.streams.lookup o.id = none) :
    exec (pop (some (.object o))) l =
      (.error ⟨l.heap.lastId + 1, Known.marshal⟩, { l with heap := l.heap.next }) := by
  have hcontents : l.contents? (some (.object o)) = none := by
    simp [contents?, Value.object?, ho]
  rw [pop, exec_bind_ok exec_get, hcontents, exec_failWith]

theorem exec_closeStream {k : Nat} {c : String} {cs : List Value}
    {rest : List (Nat × List Value)} (hk : l.Holds k cs rest) :
    exec (closeStream ⟨k, c⟩) l = (.ok cs, { l with streams := rest }) := by
  show (Except.ok ((l.streams.lookup k).getD []), { l with streams := l.streams.filter (·.1 != k) })
    = _
  rw [hk.lookup, hk.filter, Option.getD_some]

@[simp] theorem exec_openStream {className : String} {cs : List Value} :
    exec (openStream className cs) l =
      (.ok ⟨l.heap.lastId + 1, className⟩,
        { l with heap := l.heap.next, streams := (l.heap.lastId + 1, cs) :: l.streams }) := rfl

/-! ### Answers -/

variable {kind : CallKind} {owner name : String} {params : List Ty} {result : Ty}
  {receiver : Option Value} {args : List Value} {v : Value}

/-- The names that the environment knows apart from those of streams. -/
def knownNames : List String :=
  ["isLocal", "_request", "_invoke", "createReply", "createExceptionReply", "getInputStream",
    "writeAny", "writeRemoteObject", "write_value", "readAny", "narrow", "copyObject",
    "copyObjects", "mapSystemException", "wrapException"]

theorem answer_of_notMem (hname : name ∉ knownNames) :
    answer link ask ⟨kind, owner, name, params, result⟩ receiver args =
      if Text.startsWith "write_" name then push receiver (args.head?.getD .null)
      else if Text.startsWith "read_" name then pop receiver
      else onHeap (·.fabricate result) := by
  simp only [knownNames, List.mem_cons, List.not_mem_nil, or_false, not_or] at hname
  unfold answer
  split <;> simp_all

/-- Primitive values are written as they are. -/
theorem answer_write (hname : name ∉ knownNames) (hstart : Text.startsWith "write_" name = true) :
    answer link ask ⟨kind, owner, name, params, result⟩ receiver args =
      push receiver (args.head?.getD .null) := by
  rw [answer_of_notMem hname, if_pos hstart]

theorem answer_read (hname : name ∉ knownNames) (hwrite : Text.startsWith "write_" name = false)
    (hread : Text.startsWith "read_" name = true) :
    answer link ask ⟨kind, owner, name, params, result⟩ receiver args = pop receiver := by
  rw [answer_of_notMem hname, hwrite, if_neg Bool.false_ne_true, if_pos hread]

/-- Any other call makes up a result. -/
theorem answer_other (hname : name ∉ knownNames) (hwrite : Text.startsWith "write_" name = false)
    (hread : Text.startsWith "read_" name = false) :
    answer link ask ⟨kind, owner, name, params, result⟩ receiver args =
      onHeap (·.fabricate result) := by
  rw [answer_of_notMem hname, hwrite, hread, if_neg Bool.false_ne_true, if_neg Bool.false_ne_true]

/-- A call that is not made on the target. -/
theorem invoke_of_ne_target {callee : Callee}
    (hr : ∀ o t, receiver = some (.object o) → l.target = some t → o.id ≠ t.id) :
    exec (invoke link ask callee receiver args) l =
      exec (answer link ask callee receiver args) l := by
  rw [invoke, exec_bind_ok exec_get, if_neg]
  cases hrec : receiver.bind Value.object? with
  | none => simp
  | some o =>
    obtain ⟨v, hv, ho⟩ := Option.bind_eq_some_iff.1 hrec
    have hv : receiver = some (.object o) := by
      cases v <;> first | (rw [hv]; exact congrArg _ (congrArg _ (Option.some.inj ho))) | cases ho
    cases ht : l.target with
    | none => simp
    | some t => simpa using hr o t hv ht

/-- A call on the target is handed to the servant. -/
theorem invoke_target {callee : Callee} {o t : ObjectRef} (ht : l.target = some t)
    (ho : o.id = t.id) :
    exec (invoke link ask callee (some (.object o)) args) l =
      exec (serve link callee.name args) l := by
  rw [invoke, exec_bind_ok exec_get, if_pos]
  simp [Value.object?, ht, ho]

/-! ### The target -/

/-- The servant has been called once more. -/
def called (l : Loopback) (args : List Value) : Loopback :=
  { l with receivedReversed := args :: l.receivedReversed }

theorem Sound.called (hl : l.Sound) (args : List Value) : (l.called args).Sound :=
  ⟨hl.heap, hl.streams, hl.failureReplies, hl.tie, hl.target, hl.apart⟩

/-- What comes of a call of the servant: the value it gives, or a new failure. -/
def served (link : Link) (method : String) (args : List Value) (l : Loopback) :
    Except ObjectRef Value × Loopback :=
  match link.servant method args with
  | .ok v => (.ok v, l.called args)
  | .error className =>
    (.error ⟨l.heap.lastId + 1, className⟩, { l.called args with heap := l.heap.next })

theorem later_served (link : Link) (method : String) (args : List Value) (l : Loopback) :
    (l.called args).Later (served link method args l).2 := by
  rw [served]
  split
  · exact .refl _
  · exact later_withHeap Heap.extends_next

theorem exec_serve {method : String} :
    exec (serve link method args) l = served link method args l := by
  rw [serve, exec_bind_ok exec_modify, served]
  cases link.servant method args <;> rfl

/-- The target is known as what the skeleton or the stub takes it for. -/
def TargetFits (interface : String) (l : Loopback) : Prop :=
  ∀ t, l.target = some t → t.className = interface ∨ t.className = Known.object

/-- The target is the one that there is, or else a new object of the type. -/
theorem exec_targetObject (hl : l.Sound) (ty : Ty) : ∃ t hp,
    exec (targetObject ty) l = (.ok t, { l with heap := hp, target := some t }) ∧
      l.heap.Extends hp ∧ Sound { l with heap := hp, target := some t } ∧
      (l.target = some t ∨ t = ⟨l.heap.lastId + 1, ty.name⟩) := by
  cases ht : l.target with
  | some t =>
    refine ⟨t, l.heap, ?_, .refl _, ?_, .inl rfl⟩
    · rw [targetObject, exec_bind_ok exec_get, ht, exec_pure, ← ht]
    · rw [← ht]
      exact hl
  | none =>
    refine ⟨⟨l.heap.lastId + 1, ty.name⟩, l.heap.next, ?_, Heap.extends_next, ?_, .inr rfl⟩
    · rw [targetObject, exec_bind_ok exec_get, ht]
      rfl
    · have hnext := hl.withHeap Heap.extends_next
      refine ⟨hnext.heap, hnext.streams, hnext.failureReplies, hnext.tie, ?_, ?_⟩
      · rintro o ⟨⟩
        exact le_rfl
      · rintro o _ ho ⟨⟩
        have := hl.tie o ho
        simp only
        omega

/-- The instance of the skeleton is the one that there is, or else a new object. -/
theorem exec_tieObject (link : Link) (hl : l.Sound) : ∃ tie hp,
    exec (tieObject link) l = (.ok tie, { l with heap := hp, tie := some tie }) ∧
      l.heap.Extends hp ∧ Sound { l with heap := hp, tie := some tie } ∧
      (l.tie = some tie ∨ tie = ⟨l.heap.lastId + 1, link.skeleton.name⟩) := by
  cases ht : l.tie with
  | some tie =>
    refine ⟨tie, l.heap, ?_, .refl _, ?_, .inl rfl⟩
    · rw [tieObject, exec_bind_ok exec_get, ht, exec_pure, ← ht]
    · rw [← ht]
      exact hl
  | none =>
    refine ⟨⟨l.heap.lastId + 1, link.skeleton.name⟩, l.heap.next, ?_, Heap.extends_next, ?_,
      .inr rfl⟩
    · rw [tieObject, exec_bind_ok exec_get, ht]
      rfl
    · have hnext := hl.withHeap Heap.extends_next
      refine ⟨hnext.heap, hnext.streams, hnext.failureReplies, ?_, hnext.target, ?_⟩
      · rintro o ⟨⟩
        exact le_rfl
      · rintro _ t ⟨⟩ ht'
        have := hl.target t ht'
        simp only
        omega

/-- A new failure with a message. -/
theorem exec_create_message {className message : String} :
    exec (create className [.string message]) l =
      (.ok (.object ⟨l.heap.lastId + 1, className⟩), { l with
        heap := l.heap.next.setSlot ⟨l.heap.lastId + 1, className⟩ "message" (.string message) }) :=
  rfl

end Loopback

/-! ### Running methods in the loopback environment -/

namespace Activation

open Effect Loopback

variable {act : Activation Loopback} {f : Frame Loopback} {link : Link}
  {ask : Option Value → Effect Loopback Value} {callee : Callee} {args : List Value}
  {out : Except ObjectRef Value} {w : Loopback}

/-- The method runs in the loopback environment. -/
def InLoopback (act : Activation Loopback) (link : Link)
    (ask : Option Value → Effect Loopback Value) : Prop :=
  act.env = environmentWith link ask

/-- The receiver is neither the instance itself nor the target. -/
def Foreign (act : Activation Loopback) (l : Loopback) (id : Nat) : Prop :=
  id ≠ act.this.id ∧ ∀ t, l.target = some t → id ≠ t.id

/-- A new object is neither of them. -/
theorem foreign_next {l : Loopback} (hl : l.Sound) (hthis : act.this.id ≤ l.heap.lastId) :
    act.Foreign l (l.heap.lastId + 1) := by
  refine ⟨by omega, fun t ht => ?_⟩
  have := hl.target t ht
  omega

theorem Foreign.of_target_eq {l l' : Loopback} {id : Nat} (hid : act.Foreign l id)
    (ht : l'.target = l.target) : act.Foreign l' id :=
  ⟨hid.1, fun t htarget => hid.2 t (ht ▸ htarget)⟩

theorem isSubtype_eq (hact : act.InLoopback link ask) (a b : String) :
    act.env.isSubtype a b = link.hierarchy.isSubtype a b := by
  rw [hact]
  rfl

theorem exec_fail {α : Type} (hact : act.InLoopback link ask) {className : String} :
    exec (act.fail className : Run Loopback α) f =
      (.error ⟨f.world.heap.lastId + 1, className⟩,
        { f with world := { f.world with heap := f.world.heap.next } }) := by
  rw [fail, hact]
  exact Run.exec_outside rfl

/-- A static call is answered by the environment. -/
theorem exec_invoke_static (hact : act.InLoopback link ask)
    (ha : exec (answer link ask callee none args) f.world = (out, w)) :
    exec (act.invoke callee none args) f = (out, { f with world := w }) := by
  rw [invoke_static, hact]
  refine Run.exec_outside ?_
  show exec (Loopback.invoke link ask callee none args) f.world = _
  rw [invoke_of_ne_target (by simp), ha]

/-- So is a call on any object that is neither the instance, nor the target. -/
theorem exec_invoke_foreign (hact : act.InLoopback link ask) {o : ObjectRef}
    (ho : act.Foreign f.world o.id)
    (ha : exec (answer link ask callee (some (.object o)) args) f.world = (out, w)) :
    exec (act.invoke callee (some (.object o)) args) f = (out, { f with world := w }) := by
  rw [invoke_outside fun hid => absurd hid ho.1, hact]
  refine Run.exec_outside ?_
  show exec (Loopback.invoke link ask callee (some (.object o)) args) f.world = _
  rw [invoke_of_ne_target, ha]
  intro o' t ho' ht
  cases ho'
  exact ho.2 t ht

/-- And so is a call of a method that the instance inherits. -/
theorem exec_invoke_inherited (hact : act.InLoopback link ask)
    (hown : act.callOwn callee = none)
    (ht : ∀ t, f.world.target = some t → act.this.id ≠ t.id)
    (ha : exec (answer link ask callee (some (.object act.this)) args) f.world = (out, w)) :
    exec (act.invoke callee (some (.object act.this)) args) f = (out, { f with world := w }) := by
  rw [invoke_outside fun _ => hown, hact]
  refine Run.exec_outside ?_
  show exec (Loopback.invoke link ask callee (some (.object act.this)) args) f.world = _
  rw [invoke_of_ne_target, ha]
  intro o' t ho' htarget
  cases ho'
  exact ht t htarget

/-- A call on the target is the servant's. -/
theorem exec_invoke_target (hact : act.InLoopback link ask) {o t : ObjectRef}
    (ht : f.world.target = some t) (ho : o.id = t.id) (hne : o.id ≠ act.this.id) :
    exec (act.invoke callee (some (.object o)) args) f =
      ((served link callee.name args f.world).1,
        { f with world := (served link callee.name args f.world).2 }) := by
  rw [invoke_outside fun hid => absurd hid hne, hact]
  refine Run.exec_outside ?_
  show exec (Loopback.invoke link ask callee (some (.object o)) args) f.world = _
  rw [invoke_target ht ho, exec_serve]

/-! ### Casts -/

/-- A value as one of a type, unless it is an object of a class that has nothing to do with
    the type. -/
def castTo (h : Hierarchy) (ty : Ty) : Value → Option Value
  | .object o =>
    if ty.isArray then some (.object o)
    else if h.isSubtype o.className ty.name then some (.object o)
    else if h.isSubtype ty.name o.className then some (.object ⟨o.id, ty.name⟩)
    else none
  | v => some v

theorem exec_cast (hact : act.InLoopback link ask) {ty : Ty} {v u : Value}
    (hv : castTo link.hierarchy ty v = some u) : exec (act.cast ty v) f = (.ok u, f) := by
  cases v with
  | object o =>
    simp only [castTo] at hv
    simp only [cast, isSubtype_eq hact]
    split at hv
    · rename_i harray
      cases hv
      rw [if_pos harray, exec_pure]
    rename_i harray
    rw [if_neg harray]
    split at hv
    · rename_i hsub
      cases hv
      rw [if_pos hsub, exec_pure]
    rename_i hsub
    rw [if_neg hsub]
    split at hv
    · rename_i hsup
      cases hv
      rw [if_pos hsup, exec_pure]
    · cases hv
  | _ => cases hv; rfl

theorem exec_cast_error (hact : act.InLoopback link ask) {ty : Ty} {v : Value}
    (hv : castTo link.hierarchy ty v = none) :
    exec (act.cast ty v) f =
      (.error ⟨f.world.heap.lastId + 1, Known.classCastException⟩,
        { f with world := { f.world with heap := f.world.heap.next } }) := by
  cases v with
  | object o =>
    simp only [castTo] at hv
    simp only [cast, isSubtype_eq hact]
    split at hv
    · cases hv
    rename_i harray
    rw [if_neg harray]
    split at hv
    · cases hv
    rename_i hsub
    rw [if_neg hsub]
    split at hv
    · cases hv
    rename_i hsup
    rw [if_neg hsup]
    exact exec_fail hact
  | _ => cases hv

theorem castTo_self {h : Hierarchy} (id : Nat) (className : String) :
    castTo h (.named className) (.object ⟨id, className⟩) = some (.object ⟨id, className⟩) := by
  simp [castTo, Ty.isArray, Ty.named]

/-- A cast up or down changes at most what an object is known as. -/
theorem exists_castTo (h : Hierarchy) (ty : Ty) (o : ObjectRef)
    (ho : h.isSubtype o.className ty.name = true ∨ h.isSubtype ty.name o.className = true) :
    ∃ className, castTo h ty (.object o) = some (.object ⟨o.id, className⟩) := by
  rw [castTo]
  split
  · exact ⟨_, rfl⟩
  split
  · exact ⟨_, rfl⟩
  split
  · exact ⟨_, rfl⟩
  · rename_i hsub hsup
    exact absurd ho (not_or.2 ⟨hsub, hsup⟩)

end Activation

end ComponentViews
