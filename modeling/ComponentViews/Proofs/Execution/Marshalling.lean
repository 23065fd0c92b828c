import ComponentViews.Proofs.Execution.Loopback
import ComponentViews.Synthesis.Marshalling

/-!
# Values on the wire

What one side writes by the rule for a type, the other reads by the same rule. A value
that *conforms* to a type passes unchanged, but for the copy that the rules for values ask
for (`Heap.pass`):

* `exec_write`: writing appends what passes to the stream;
* `exec_read`: reading takes the next value from the stream, and casts it;
* `exec_readAll`: so the arguments are read in the order in which they were written.
-/

namespace ComponentViews

/-- Whether the values of the rule are copied when they cross the wire. -/
def MarshalRule.copies : MarshalRule → Bool
  | .any | .value => true
  | .primitive _ | .reference => false

/-- The value may stand where the type is declared: the class of an object is a subtype of
    the type, and can be written where the type passes by value. -/
structure Value.Conforms (h : Hierarchy) (ty : Ty) (v : Value) : Prop where
  subtype : ∀ o, v = .object o → ty.isArray = false → h.isSubtype o.className ty.name = true
  serializable : ∀ o, v = .object o → MarshalRule.ofType h ty = .value →
    h.isSubtype o.className Known.serializable = true

/-- The arguments of a call conform to its parameters, one by one. -/
def Value.ConformsAll (h : Hierarchy) (tys : List Ty) (vs : List Value) : Prop :=
  List.Forall₂ (Conforms h) tys vs

namespace Heap

variable (h : Hierarchy) (ty : Ty)

/-- What arrives where a value crosses the wire, and the store then. -/
def pass (hp : Heap) (v : Value) : Value × Heap :=
  if (MarshalRule.ofType h ty).copies then hp.copy v else (v, hp)

/-- What arrives where arguments cross the wire, one for each of the types. -/
def passAll (hp : Heap) : List Ty → List Value → List Value × Heap
  | ty :: tys, v :: vs =>
    let (v, hp) := hp.pass h ty v
    let (vs, hp) := passAll hp tys vs
    (v :: vs, hp)
  | _, _ => ([], hp)

/-- `w` is what comes of `v` where it crosses the wire: a copy, or else the value itself. -/
def Passed (hp hp' : Heap) (v w : Value) : Prop :=
  if (MarshalRule.ofType h ty).copies then Copied hp hp' v w else w = v

variable {h ty} {hp hp' g g' : Heap} {v w : Value}

theorem extends_pass : hp.Extends (hp.pass h ty v).2 := by
  rw [pass]
  split
  · exact extends_copy hp v
  · exact .refl hp

theorem passed_pass (hs : hp.Sound) (hv : v.Within hp.lastId) :
    Passed h ty hp (hp.pass h ty v).2 v (hp.pass h ty v).1 := by
  rw [Passed, pass]
  split
  · exact copied_copy hp hs v hv
  · rfl

theorem Passed.mono (hgh : g.Extends hp) (hh : hp'.Extends g') (hv : v.Within g.lastId)
    (hw : Passed h ty hp hp' v w) : Passed h ty g g' v w := by
  rw [Passed] at hw ⊢
  split
  · rename_i hcopies
    rw [if_pos hcopies] at hw
    exact hw.mono hgh hh hv
  · rename_i hcopies
    rwa [if_neg hcopies] at hw

/-- An object passes as one of its class. -/
theorem Passed.className_eq {o e : ObjectRef} (he : Passed h ty hp hp' (.object o) (.object e)) :
    e.className = o.className := by
  rw [Passed] at he
  split at he
  · cases he with
    | object _ _ className _ => exact className
    | plain isPlain => cases isPlain
  · cases he
    rfl

/-- An object holds the same behind the wire. -/
theorem Passed.slotsOf_eq {o e : ObjectRef} (he : Passed h ty hp hp' (.object o) (.object e))
    (hh : hp.Extends hp') (ho : o.id ≤ hp.lastId) : hp'.slotsOf e.id = hp.slotsOf o.id := by
  rw [Passed] at he
  split at he
  · cases he with
    | object _ _ _ slots => exact slots
    | plain isPlain => cases isPlain
  · cases he
    exact hh.slotsOf _ ho

/-- Copies keep the class, so that they conform where the value does. -/
theorem conforms_pass {ty' : Ty} (hv : v.Conforms h ty') : (hp.pass h ty v).1.Conforms h ty' := by
  rw [pass]
  split
  · cases v with
    | object o =>
      rw [copy_object]
      exact ⟨fun o' ho => by cases ho; exact hv.subtype o rfl,
        fun o' ho => by cases ho; exact hv.serializable o rfl⟩
    | array items =>
      rw [copy_array]
      exact ⟨fun o ho => (nomatch ho), fun o ho => (nomatch ho)⟩
    | _ => rw [copy_of_isPlain rfl]; exact hv
  · exact hv

/-- An object arrives as one of its class. -/
theorem exists_pass_object (h : Hierarchy) (ty : Ty) (hp : Heap) (o : ObjectRef) :
    ∃ id, (hp.pass h ty (.object o)).1 = .object ⟨id, o.className⟩ := by
  rw [pass]
  split
  · exact ⟨_, congrArg Prod.fst (copy_object o)⟩
  · exact ⟨o.id, rfl⟩

theorem extends_passAll (tys : List Ty) (vs : List Value) :
    hp.Extends (hp.passAll h tys vs).2 := by
  induction tys generalizing hp vs with
  | nil => exact .refl hp
  | cons ty tys ih =>
    cases vs with
    | nil => exact .refl hp
    | cons v vs => exact extends_pass.trans (ih vs)

/-- What comes of arguments that cross the wire, one by one. -/
inductive PassedAll (h : Hierarchy) (hp hp' : Heap) : List Ty → List Value → List Value → Prop where
  | nil : PassedAll h hp hp' [] [] []
  | cons {ty : Ty} {v w : Value} {tys : List Ty} {vs ws : List Value}
      (first : Passed h ty hp hp' v w) (rest : PassedAll h hp hp' tys vs ws) :
      PassedAll h hp hp' (ty :: tys) (v :: vs) (w :: ws)

theorem PassedAll.mono {tys : List Ty} {vs ws : List Value} (hgh : g.Extends hp)
    (hh : hp'.Extends g') (hvs : Value.WithinAll g.lastId vs)
    (hws : PassedAll h hp hp' tys vs ws) : PassedAll h g g' tys vs ws := by
  induction hws with
  | nil => exact .nil
  | cons first rest ih =>
    obtain ⟨hv, hvs⟩ := Value.withinAll_cons.1 hvs
    exact .cons (first.mono hgh hh hv) (ih hvs)

theorem passedAll_passAll {tys : List Ty} {vs : List Value} (hs : hp.Sound)
    (hvs : Value.WithinAll hp.lastId vs) (hlen : tys.length = vs.length) :
    PassedAll h hp (hp.passAll h tys vs).2 tys vs (hp.passAll h tys vs).1 := by
  induction tys generalizing hp vs with
  | nil =>
    obtain rfl := List.length_eq_zero_iff.1 hlen.symm
    exact .nil
  | cons ty tys ih =>
    obtain ⟨v, vs, rfl⟩ := List.exists_cons_of_length_eq_add_one hlen.symm
    obtain ⟨hv, hvs⟩ := Value.withinAll_cons.1 hvs
    have hext : hp.Extends (hp.pass h ty v).2 := extends_pass
    -- What the others come to is told in the store after the first, and holds before it.
    exact .cons ((passed_pass hs hv).mono (.refl hp) (extends_passAll tys vs) hv)
      ((ih (hext.sound hs) (hvs.mono hext.lastId) (Nat.succ.inj hlen)).mono hext (.refl _) hvs)

end Heap

/-! ### Writing and reading -/

namespace Marshalling

open Effect Loopback Activation

variable {act : Activation Loopback} {f : Frame Loopback} {link : Link}
  {ask : Option Value → Effect Loopback Value} {ty : Ty} {k : Nat} {c : String} {v u : Value}
  {cs : List Value} {rest : List (Nat × List Value)}

/-- The value that is written for one of a type: what passes by value is cast first. -/
def written (h : Hierarchy) (ty : Ty) (v : Value) : Option Value :=
  if MarshalRule.ofType h ty = .value then castTo h (.named Known.serializable) v else some v

/-- The value that is read as one of a type: all but primitive values are cast. -/
def readAs (h : Hierarchy) (ty : Ty) (v : Value) : Option Value :=
  match MarshalRule.ofType h ty with
  | .primitive _ => some v
  | _ => castTo h ty v

theorem castTo_of_conforms {h : Hierarchy} (hv : v.Conforms h ty) : castTo h ty v = some v := by
  cases v with
  | object o =>
    rw [castTo]
    split
    · rfl
    · rename_i harray
      rw [if_pos (hv.subtype o rfl (Bool.not_eq_true _ ▸ harray))]
  | _ => rfl

theorem written_of_conforms {h : Hierarchy} (hv : v.Conforms h ty) : written h ty v = some v := by
  rw [written]
  split
  · rename_i hrule
    cases v with
    | object o =>
      have hser : h.isSubtype o.className (Ty.named Known.serializable).name = true :=
        hv.serializable o rfl hrule
      rw [castTo, if_neg (by decide), if_pos hser]
    | _ => rfl
  · rfl

theorem readAs_of_conforms {h : Hierarchy} (hv : v.Conforms h ty) : readAs h ty v = some v := by
  rw [readAs]
  split
  · rfl
  · exact castTo_of_conforms hv

/-- A value is written behind what the stream holds already. -/
theorem exec_write (hact : act.InLoopback link ask) {out value : Expr}
    (hout : exec (act.eval out) f = (.ok (.object ⟨k, c⟩), f))
    (hvalue : exec (act.eval value) f = (.ok v, f)) (hk : act.Foreign f.world k)
    (hs : f.world.Holds k cs rest) (hu : written link.hierarchy ty v = some u) :
    exec (act.eval (write link.hierarchy ty out value)) f =
      (.ok .void, { f with world := { f.world with
        heap := (f.world.heap.pass link.hierarchy ty u).2
        streams := (k, cs ++ [(f.world.heap.pass link.hierarchy ty u).1]) :: rest } }) := by
  have hargs : exec (act.evalAll [out, value]) f = (.ok [.object ⟨k, c⟩, v], f) :=
    exec_evalAll_cons hout (exec_evalAll_singleton hvalue)
  rw [write, Heap.pass]
  cases hrule : MarshalRule.ofType link.hierarchy ty with
  | primitive p =>
    have hname : "write_" ++ streamName p ∉ knownNames := by cases p <;> decide
    have hstart : Text.startsWith "write_" ("write_" ++ streamName p) = true := by
      cases p <;> decide
    obtain rfl : v = u := by simpa [written, hrule] using hu
    refine (exec_eval_call hout (exec_evalAll_singleton hvalue)).trans ?_
    refine exec_invoke_foreign hact hk ?_
    rw [answer_write hname hstart]
    exact exec_push hs
  | any =>
    obtain rfl : v = u := by simpa [written, hrule] using hu
    refine (exec_eval_call_static hargs).trans ?_
    refine exec_invoke_static hact ?_
    exact exec_push (hs.withHeap _)
  | reference =>
    obtain rfl : v = u := by simpa [written, hrule] using hu
    refine (exec_eval_call_static hargs).trans ?_
    exact exec_invoke_static hact (exec_push hs)
  | value =>
    rw [written, if_pos hrule] at hu
    have hcast : exec (act.eval (.cast (.named Known.serializable) value)) f = (.ok u, f) :=
      (exec_eval_cast hvalue).trans (exec_cast hact hu)
    refine (exec_eval_call hout (exec_evalAll_cons hcast
      (exec_evalAll_singleton exec_eval_classOf))).trans ?_
    refine exec_invoke_foreign hact hk ?_
    exact exec_push (hs.withHeap _)

/-- A value that cannot be cast is not written. -/
theorem exec_write_error (hact : act.InLoopback link ask) {out value : Expr}
    (hout : exec (act.eval out) f = (.ok (.object ⟨k, c⟩), f))
    (hvalue : exec (act.eval value) f = (.ok v, f)) (hu : written link.hierarchy ty v = none) :
    exec (act.eval (write link.hierarchy ty out value)) f =
      (.error ⟨f.world.heap.lastId + 1, Known.classCastException⟩,
        { f with world := { f.world with heap := f.world.heap.next } }) := by
  rw [written] at hu
  split at hu
  · rename_i hrule
    have hcast : exec (act.eval (.cast (.named Known.serializable) value)) f = _ :=
      (exec_eval_cast hvalue).trans (exec_cast_error hact hu)
    rw [write, hrule]
    exact exec_eval_call_args_error hout (exec_evalAll_cons_error hcast)
  · cases hu

/-- Where a value is cast, the cast decides. -/
theorem exec_eval_castTo (hact : act.InLoopback link ask) {e : Expr} {f' : Frame Loopback}
    (he : exec (act.eval e) f = (.ok v, f')) :
    exec (act.eval (.cast ty e)) f =
      match castTo link.hierarchy ty v with
      | some u => (.ok u, f')
      | none => (.error ⟨f'.world.heap.lastId + 1, Known.classCastException⟩,
          { f' with world := { f'.world with heap := f'.world.heap.next } }) := by
  rw [exec_eval_cast he]
  cases hu : castTo link.hierarchy ty v with
  | some u => exact exec_cast hact hu
  | none => exact exec_cast_error hact hu

section

variable {input : Expr} (hact : act.InLoopback link ask)
  (hinput : exec (act.eval input) f = (.ok (.object ⟨k, c⟩), f)) (hk : act.Foreign f.world k)
  (hs : f.world.Holds k (v :: cs) rest)
include hact hinput hs

include hk in
theorem exec_readPrimitive (p : Primitive) (result : Ty) :
    exec (act.eval (.invoke .virtual input Known.portableInputStream ("read_" ++ streamName p) []
        result [])) f =
      (.ok v, { f with world := { f.world with streams := (k, cs) :: rest } }) := by
  have hname : "read_" ++ streamName p ∉ knownNames := by cases p <;> decide
  have hwrite : Text.startsWith "write_" ("read_" ++ streamName p) = false := by
    cases p <;> decide
  have hread : Text.startsWith "read_" ("read_" ++ streamName p) = true := by
    cases p <;> decide
  refine (exec_eval_call hinput exec_evalAll_nil).trans ?_
  refine exec_invoke_foreign hact hk ?_
  rw [answer_read hname hwrite hread]
  exact exec_pop hs

/-- Every object is one of `Object`, so that leaving the cast out changes nothing. -/
theorem exec_readAny (hrule : MarshalRule.ofType link.hierarchy ty = .any) :
    exec (act.eval (Expr.fromObject ty (.invokeStatic Known.protocolUtil "readAny"
        [.named Known.portableInputStream] .object [input]))) f =
      match castTo link.hierarchy ty v with
      | some u => (.ok u, { f with world := { f.world with streams := (k, cs) :: rest } })
      | none => (.error ⟨f.world.heap.lastId + 1, Known.classCastException⟩,
          { f with world := { f.world with
            heap := f.world.heap.next, streams := (k, cs) :: rest } }) := by
  have hany : exec (act.eval (.invokeStatic Known.protocolUtil "readAny"
      [.named Known.portableInputStream] .object [input])) f =
      (.ok v, { f with world := { f.world with streams := (k, cs) :: rest } }) :=
    (exec_eval_call_static (exec_evalAll_singleton hinput)).trans
      (exec_invoke_static hact (exec_pop hs))
  have hprim : ty.primitive? = none := by
    simp only [MarshalRule.ofType] at hrule
    split at hrule
    · cases hrule
    · assumption
  simp only [Expr.fromObject, hprim]
  split
  · rename_i hobject
    rw [Ty.isNamed, Bool.and_eq_true, beq_iff_eq, beq_iff_eq] at hobject
    have hv : v.Conforms link.hierarchy ty :=
      ⟨fun o _ _ => by rw [hobject.2]; exact Hierarchy.isSubtype_object _ _,
        fun o _ hvalue => by rw [hrule] at hvalue; cases hvalue⟩
    rw [castTo_of_conforms hv]
    exact hany
  · exact exec_eval_castTo hact hany

include hk in
theorem exec_readObject :
    exec (act.eval (.invoke .virtual input Known.portableInputStream "read_Object" []
        (.named Known.corbaObject) [])) f =
      (.ok v, { f with world := { f.world with streams := (k, cs) :: rest } }) := by
  refine (exec_eval_call hinput exec_evalAll_nil).trans ?_
  refine exec_invoke_foreign hact hk ?_
  rw [answer_read (by decide) (by decide) (by decide)]
  exact exec_pop hs

include hk in
/-- The value that is next in a stream is read. -/
theorem exec_read (ty : Ty) :
    exec (act.eval (read link.hierarchy ty input)) f =
      match readAs link.hierarchy ty v with
      | some u => (.ok u, { f with world := { f.world with streams := (k, cs) :: rest } })
      | none => (.error ⟨f.world.heap.lastId + 1, Known.classCastException⟩,
          { f with world := { f.world with
            heap := f.world.heap.next, streams := (k, cs) :: rest } }) := by
  rw [read, readAs]
  cases hrule : MarshalRule.ofType link.hierarchy ty with
  | primitive p => exact exec_readPrimitive hact hinput hk hs p ty
  | any => exact exec_readAny hact hinput hs hrule
  | reference =>
    refine exec_eval_castTo hact ((exec_eval_call_static (exec_evalAll_cons
      (exec_readObject hact hinput hk hs) (exec_evalAll_singleton exec_eval_classOf))).trans ?_)
    exact exec_invoke_static hact rfl
  | value =>
    refine exec_eval_castTo hact ((exec_eval_call hinput
      (exec_evalAll_singleton exec_eval_classOf)).trans ?_)
    refine exec_invoke_foreign hact hk ?_
    rw [answer_read (by decide) (by decide) (by decide)]
    exact exec_pop hs

end

/-- A value that conforms to the type is read as it is. -/
theorem exec_read_of_conforms (hact : act.InLoopback link ask) {input : Expr}
    (hinput : exec (act.eval input) f = (.ok (.object ⟨k, c⟩), f)) (hk : act.Foreign f.world k)
    (hs : f.world.Holds k (v :: cs) rest) (hv : v.Conforms link.hierarchy ty) :
    exec (act.eval (read link.hierarchy ty input)) f =
      (.ok v, { f with world := { f.world with streams := (k, cs) :: rest } }) := by
  rw [exec_read hact hinput hk hs ty, readAs_of_conforms hv]

/-! ### All arguments -/

theorem conformsAll_passAll {h : Hierarchy} {hp : Heap} {tys : List Ty} {vs : List Value}
    (hvs : Value.ConformsAll h tys vs) : Value.ConformsAll h tys (hp.passAll h tys vs).1 := by
  induction hvs generalizing hp with
  | nil => exact .nil
  | cons hv _ ih => exact .cons (Heap.conforms_pass hv) ih

/-- The arguments from the `i`-th on are written one behind the other. -/
theorem exec_writeAll (hact : act.InLoopback link ask) {tys : List Ty} {vs : List Value}
    {i o : Nat} (hargs : act.args.drop i = vs) (hvs : Value.ConformsAll link.hierarchy tys vs)
    (hout : f.vars.getD o .null = .object ⟨k, c⟩) (hk : act.Foreign f.world k)
    (hs : f.world.Holds k cs rest) :
    exec (act.block ((tys.zipIdx i).map fun (ty, i) =>
        .eval (write link.hierarchy ty (.var o) (.arg i)))) f =
      (.ok .normal, { f with world := { f.world with
        heap := (f.world.heap.passAll link.hierarchy tys vs).2
        streams := (k, cs ++ (f.world.heap.passAll link.hierarchy tys vs).1) :: rest } }) := by
  induction hvs generalizing i cs f with
  | nil =>
    have hworld : { f.world with streams := (k, cs) :: rest } = f.world := by
      rw [← hs.streams]
    simp only [List.zipIdx_nil, List.map_nil, exec_block_nil, Heap.passAll, List.append_nil, hworld]
  | @cons ty v tys vs hv _ ih =>
    have hvar : exec (act.eval (.var o)) f = (.ok (.object ⟨k, c⟩), f) := by
      rw [exec_eval_var, hout]
    have harg : exec (act.eval (.arg i)) f = (.ok v, f) := by
      rw [exec_eval_arg, List.getD_eq_getElem?_getD, ← List.head?_drop, hargs]
      rfl
    have hwrite := exec_write hact hvar harg hk hs (written_of_conforms hv)
    rw [List.zipIdx_cons, List.map_cons, exec_block_normal (exec_stmt_eval hwrite)]
    have hdrop : act.args.drop (i + 1) = vs := by
      rw [← List.tail_drop, hargs, List.tail_cons]
    have hrest := ih (f := { f with world := { f.world with
        heap := (f.world.heap.pass link.hierarchy ty v).2
        streams := (k, cs ++ [(f.world.heap.pass link.hierarchy ty v).1]) :: rest } })
      hdrop hout hk (hs.withContents _ _)
    rw [List.append_assoc] at hrest
    exact hrest

/-- The arguments are read in the order in which they were written. -/
theorem exec_readAll (hact : act.InLoopback link ask) {input : Expr} {tys : List Ty}
    {vs : List Value} (hvs : Value.ConformsAll link.hierarchy tys vs)
    (hinput : ∀ w, exec (act.eval input) { f with world := w } =
      (.ok (.object ⟨k, c⟩), { f with world := w }))
    (hk : act.Foreign f.world k) (hs : f.world.Holds k (vs ++ cs) rest) :
    exec (act.evalAll (tys.map fun ty => read link.hierarchy ty input)) f =
      (.ok vs, { f with world := { f.world with streams := (k, cs) :: rest } }) := by
  induction hvs generalizing f with
  | nil =>
    have hworld : { f.world with streams := (k, cs) :: rest } = f.world := by
      rw [← List.nil_append cs, ← hs.streams]
    rw [List.map_nil, exec_evalAll_nil, hworld]
  | cons hv _ ih =>
    exact exec_evalAll_cons (exec_read_of_conforms hact (hinput f.world) hk hs hv)
      (ih hinput hk (hs.withContents f.world.heap _))

end Marshalling

end ComponentViews
