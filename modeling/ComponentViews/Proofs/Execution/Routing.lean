import ComponentViews.Proofs.Execution.Effect
import ComponentViews.Proofs.Synthesis.Skeleton
import ComponentViews.Proofs.Table

/-!
# Finding the handler of an operation

A skeleton that is asked for an operation looks its name up by the hash, and then compares
it with the names of that hash. Here is why it comes to the handler of the operation:

* the bucket of a hash holds the names of that hash, in their order (`lookup_buckets`);
* a name leads to the first operation that has it, and one that no operation has to the first
  that has it as an alias (`servedBy`, `get?_routes`);
* a name that leads somewhere is found among those of its hash, and one that does not is not
  (`exec_lookUp`);
* the handler that a name leads to is a method of the skeleton (`find?_handler`).
-/

namespace ComponentViews.Skeleton

open Effect

variable {h : Hierarchy} {unit target : String}

/-! ### Buckets -/

theorem lookup_addToBucket {hash : Int32} {route : String × String} {bs : Buckets}
    (hbs : (bs.map (·.1)).Pairwise (· < ·)) (x : Int32) :
    (addToBucket hash route bs).lookup x =
      if x = hash then some ((bs.lookup hash).getD [] ++ [route]) else bs.lookup x := by
  induction bs with
  | nil =>
    by_cases hx : x = hash
    · simp [addToBucket, hx]
    · simp [addToBucket, hx]
  | cons b rest ih =>
    obtain ⟨k, routes⟩ := b
    simp only [List.map_cons, List.pairwise_cons] at hbs
    rw [addToBucket]
    split
    · -- All hashes of the list are above the new one.
      rename_i hlt
      have hnone : ((k, routes) :: rest).lookup hash = none := by
        rw [List.lookup_eq_none_iff]
        intro p hp
        rw [bne_iff_ne]
        rintro rfl
        rcases List.mem_cons.1 hp with rfl | hp
        · exact Int32.lt_irrefl hlt
        · exact Int32.lt_irrefl (Int32.lt_trans hlt (hbs.1 _ (List.mem_map_of_mem hp)))
      rw [hnone, List.lookup_cons]
      by_cases hx : x = hash
      · simp [hx]
      · rw [if_neg hx, beq_false_of_ne hx]
    split
    · rename_i hk
      subst hk
      by_cases hx : x = hash
      · simp [hx]
      · rw [if_neg hx, List.lookup_cons, List.lookup_cons, beq_false_of_ne hx]
    · rename_i hk
      rw [List.lookup_cons, ih hbs.2, List.lookup_cons, List.lookup_cons]
      by_cases hx : x = hash
      · subst hx
        simp [beq_false_of_ne hk]
      · rw [if_neg hx, if_neg hx]

/-- The bucket of a hash holds the names that have it. -/
theorem lookup_buckets (routes : Table String) (x : Int32) :
    ((buckets routes).lookup x).getD [] = routes.entries.filter fun r => Utf16.hash r.1 == x := by
  have hfold : ∀ (entries : List (String × String)) (bs : Buckets),
      (bs.map (·.1)).Pairwise (· < ·) →
      ((entries.foldl (fun bs route => addToBucket (Utf16.hash route.1) route bs)
        bs).lookup x).getD [] =
        (bs.lookup x).getD [] ++ entries.filter fun r => Utf16.hash r.1 == x := by
    intro entries
    induction entries with
    | nil => exact fun bs _ => (List.append_nil _).symm
    | cons e rest ih =>
      intro bs hbs
      rw [List.foldl_cons, ih _ (pairwise_addToBucket hbs), lookup_addToBucket hbs]
      by_cases he : x = Utf16.hash e.1
      · subst he
        simp
      · rw [if_neg he, List.filter_cons_of_neg (by simpa using Ne.symm he)]
  exact hfold _ _ .nil

/-! ### Routes -/

/-- The operation that a name leads to: the first of this name, or else the one whose handler the
    first operation with this alias is called by. -/
def servedBy (methods : List Served) (asked : String) : Option Served :=
  (methods.find? (·.operation.wire.name == asked)).or
    ((methods.find? (·.operation.wire.altName == some asked)).bind fun m =>
      methods.find? (·.operation.wire.name == m.operation.wire.name))

variable {methods : List Served} {m : Served} {asked : String}

/-- An operation gets its own name, if no other of this name comes before it. -/
theorem isSome_find?_name (hm : m ∈ methods) :
    (methods.find? (·.operation.wire.name == m.operation.wire.name)).isSome = true :=
  List.find?_isSome.2 ⟨m, hm, beq_self_eq_true _⟩

/-- What a name leads to is the first operation of its own name. -/
theorem find?_name_of_servedBy (hserved : servedBy methods asked = some m) :
    methods.find? (·.operation.wire.name == m.operation.wire.name) = some m := by
  have hself : ∀ {name : String}, methods.find? (·.operation.wire.name == name) = some m →
      methods.find? (·.operation.wire.name == m.operation.wire.name) = some m := by
    intro name hfind
    have hname : m.operation.wire.name = name := by simpa using List.find?_some hfind
    rw [hname, hfind]
  rcases Option.or_eq_some_iff.1 hserved with hfirst | ⟨-, halias⟩
  · exact hself hfirst
  · obtain ⟨x, -, hx⟩ := Option.bind_eq_some_iff.1 halias
    exact hself hx

/-- Where the names are different, every operation is reached by its own. -/
theorem servedBy_of_mem (hm : m ∈ methods)
    (hnames : (methods.map (·.operation.wire.name)).Nodup) :
    servedBy methods m.operation.wire.name = some m := by
  obtain ⟨x, hx⟩ := Option.isSome_iff_exists.1 (isSome_find?_name hm)
  have hname : x.operation.wire.name = m.operation.wire.name := by
    simpa using List.find?_some hx
  rw [servedBy, hx, Option.some_or,
    List.inj_on_of_nodup_map hnames (List.mem_of_find?_eq_some hx) hm hname]

/-- Every name leads to the handler of its operation. -/
theorem get?_routes : (routes methods).get? asked =
    (servedBy methods asked).map (handlerName ·.operation.wire.name) := by
  have hnames : ∀ x : String, (methods.foldl (fun t m => t.insertIfNew m.operation.wire.name
      (handlerName m.operation.wire.name)) ∅ : Table String).get? x =
        (methods.find? (·.operation.wire.name == x)).map (handlerName ·.operation.wire.name) :=
    fun x => Table.get?_foldl_insertIfNew (fun m : Served => some m.operation.wire.name) _
      methods ∅ x
  refine (Table.get?_foldl_insertIfNew (·.operation.wire.altName) _ methods _ asked).trans ?_
  rw [hnames, servedBy]
  cases methods.find? (·.operation.wire.name == asked) with
  | some m => rfl
  | none =>
    rw [Option.none_or]
    cases halias : methods.find? (·.operation.wire.altName == some asked) with
    | none => rfl
    | some x =>
      obtain ⟨y, hy⟩ := Option.isSome_iff_exists.1
        (isSome_find?_name (List.mem_of_find?_eq_some halias))
      have hname : y.operation.wire.name = x.operation.wire.name := by
        simpa using List.find?_some hy
      rw [Option.bind_some, hy, Option.map_some, Option.map_some, hname]
      rfl

/-! ### Looking up -/

section

variable {σ : Type} {act : Activation σ} {f : Frame σ}

/-- The call of a handler. -/
def callHandler (unit handler : String) : Expr :=
  .invoke .special .this unit handler [.named Known.inputStream, .named Known.responseHandler]
    (.named Known.outputStream) [.var input, .arg 2]

theorem exec_switchCase {key : Int32} (cases : List (Int32 × Block)) (otherwise : Run σ Flow) :
    act.switchCase key cases otherwise =
      match cases.lookup key with
      | some body => act.block body
      | none => otherwise := by
  induction cases with
  | nil => rw [Activation.switchCase, List.lookup_nil]
  | cons c rest ih =>
    obtain ⟨k, body⟩ := c
    rw [Activation.switchCase, List.lookup_cons]
    by_cases hk : k = key
    · rw [if_pos hk, hk, beq_self_eq_true]
    · rw [if_neg hk, beq_false_of_ne (Ne.symm hk), ih]

theorem exec_isAsked (hasked : act.args.getD 0 .null = .string asked) (name : String) :
    exec (act.test (.isTrue (.invoke .virtual (.arg 0) Known.string "equals" [.object] .boolean
      [.string name]))) f = (.ok (asked == name), f) := by
  have hcall : exec (act.eval (.invoke .virtual (.arg 0) Known.string "equals" [.object] .boolean
      [.string name])) f = (.ok (.bool (asked == name)), f) := by
    refine (Activation.exec_eval_call Activation.exec_eval_arg
      (Activation.exec_evalAll_singleton Activation.exec_eval_const)).trans ?_
    rw [hasked]
    simp [Activation.invoke, Value.ofLiteral, Value.equal]
  rw [Activation.exec_test_isTrue hcall]
  rfl

/-- Names are compared one after another, up to the one that is asked for. -/
theorem exec_tryRoutes (hasked : act.args.getD 0 .null = .string asked)
    (routes : List (String × String)) :
    exec (act.block (routes.map (tryRoute unit))) f =
      match routes.find? (·.1 == asked) with
      | some route => exec (act.stmt (.ret (some (callHandler unit route.2)))) f
      | none => (.ok .normal, f) := by
  induction routes with
  | nil => exact Activation.exec_block_nil
  | cons route rest ih =>
    have htest := exec_isAsked (f := f) hasked route.1
    rw [List.map_cons, List.find?_cons]
    by_cases hname : route.1 = asked
    · have hstmt : exec (act.stmt (tryRoute unit route)) f =
          exec (act.stmt (.ret (some (callHandler unit route.2)))) f := by
        rw [tryRoute, Activation.exec_stmt_cond htest, hname, beq_self_eq_true, if_pos rfl,
          Activation.exec_block_singleton]
        rfl
      rw [hname, beq_self_eq_true]
      refine Eq.trans ?_ hstmt
      rcases hcall : exec (act.eval (callHandler unit route.2)) f with ⟨thrown | v, f'⟩
      · rw [Activation.exec_stmt_ret_error hcall] at hstmt
        rw [Activation.exec_block_error hstmt, hstmt]
      · rw [Activation.exec_stmt_ret hcall] at hstmt
        rw [Activation.exec_block_returned hstmt, hstmt]
    · have hstmt : exec (act.stmt (tryRoute unit route)) f = (.ok .normal, f) := by
        rw [tryRoute, Activation.exec_stmt_cond htest, beq_false_of_ne (Ne.symm hname),
          if_neg Bool.false_ne_true, Activation.exec_block_nil]
      rw [Activation.exec_block_normal hstmt, ih, beq_false_of_ne hname]

/-- The cases of the routes, by the hash of their names. -/
def routeCases (unit : String) (routes : Table String) : List (Int32 × Block) :=
  (buckets routes).map fun (k, routes) => (k, routes.map (tryRoute unit))

/-- The switch over the hashes comes to what the routes say, whichever names share a hash. -/
theorem exec_lookUp (hasked : act.args.getD 0 .null = .string asked) (unit : String)
    (routes : Table String) (f : Frame σ) :
    exec (act.stmt (.switch (.invoke .virtual (.arg 0) Known.string "hashCode" [] .int [])
      (routeCases unit routes) [])) f =
      match routes.get? asked with
      | some handler => exec (act.stmt (.ret (some (callHandler unit handler)))) f
      | none => (.ok .normal, f) := by
  have hkey : exec (act.eval (.invoke .virtual (.arg 0) Known.string "hashCode" [] .int [])) f =
      (.ok (.int (Utf16.hash asked)), f) := by
    refine (Activation.exec_eval_call Activation.exec_eval_arg
      Activation.exec_evalAll_nil).trans ?_
    rw [hasked]
    rfl
  have hmap : ∀ bs : Buckets, (bs.map fun (k, routes) =>
      (k, routes.map (tryRoute unit))).lookup (Utf16.hash asked) =
        (bs.lookup (Utf16.hash asked)).map (·.map (tryRoute unit)) := by
    intro bs
    induction bs with
    | nil => rfl
    | cons b rest ih =>
      rw [List.map_cons, List.lookup_cons, List.lookup_cons, ih]
      split <;> rfl
  -- Without a case for the hash, as without a name that fits, nothing happens.
  have hbucket : exec (act.stmt (.switch
      (.invoke .virtual (.arg 0) Known.string "hashCode" [] .int []) (routeCases unit routes)
        [])) f =
        exec (act.block ((((buckets routes).lookup (Utf16.hash asked)).getD []).map
          (tryRoute unit))) f := by
    rw [Activation.exec_stmt_switch hkey, exec_switchCase, routeCases, hmap]
    cases (buckets routes).lookup (Utf16.hash asked) <;> rfl
  have hfind : (((buckets routes).lookup (Utf16.hash asked)).getD []).find? (·.1 == asked) =
      routes.entries.find? (·.1 == asked) := by
    rw [lookup_buckets, List.find?_filter]
    refine congrArg (List.find? · _) (funext fun r => ?_)
    by_cases hr : r.1 = asked
    · simp [hr]
    · simp [hr]
  rw [hbucket, exec_tryRoutes hasked, hfind, Table.get?]
  cases routes.entries.find? (·.1 == asked) <;> rfl

end

/-! ### Handlers -/

theorem startsWith_handlerName (wire : String) :
    Text.startsWith "_op_" (handlerName wire) = true := by
  rw [Text.startsWith, Text.dropStart?, handlerName, Option.isSome_map, String.toList_append,
    Text.afterStart?_eq_some_iff.2 rfl]
  rfl

theorem handlerName_injective {a b : String} (hab : handlerName a = handlerName b) : a = b :=
  String.append_right_inj "_op_" |>.1 hab

/-- Of each name, the first operation is served. -/
theorem find?_foldl_addServed (served : List Served) (name : String) :
    (methods.foldl addServed served).find? (·.operation.wire.name == name) =
      (served ++ methods).find? (·.operation.wire.name == name) := by
  induction methods generalizing served with
  | nil => rw [List.foldl_nil, List.append_nil]
  | cons m rest ih =>
    rw [List.foldl_cons, ih, addServed]
    split
    · rename_i hany
      obtain ⟨x, hx, hname⟩ := List.any_eq_true.1 hany
      rw [List.find?_append, List.find?_append, List.find?_cons]
      by_cases hm : m.operation.wire.name = name
      · -- The operation that is passed over comes behind one of its name.
        have hsome : (served.find? (·.operation.wire.name == name)).isSome = true :=
          List.find?_isSome.2 ⟨x, hx, hm ▸ hname⟩
        obtain ⟨y, hy⟩ := Option.isSome_iff_exists.1 hsome
        rw [hy, Option.some_or, Option.some_or]
      · rw [beq_false_of_ne hm]
    · rw [List.append_assoc, List.singleton_append]

/-- The handler for a name is that of the first operation of this name. -/
theorem find?_handler (name : String) :
    (blueprint h unit target methods).find? (handlerName name)
      [.named Known.inputStream, .named Known.responseHandler] =
      (methods.find? (·.operation.wire.name == name)).map (handler h unit target) := by
  have hstart := startsWith_handlerName name
  -- No other member has a name that begins as those of handlers do.
  have hother : ∀ {member : String}, Text.startsWith "_op_" member = false →
      (member == handlerName name) = false := by
    intro member hmember
    rw [beq_eq_false_iff_ne]
    rintro rfl
    rw [hstart] at hmember
    cases hmember
  have hmember : ∀ x ∈ Method.constructorOf Known.objectImpl :: tieMembers unit target ++
      [Marshalling.idsMethod (typeIds target methods), invokeMethod unit (routes methods)],
      (x.name == handlerName name) = false := by
    have hconstructor : Text.startsWith "_op_" Known.constructor = false := by decide
    have hset : Text.startsWith "_op_" "setTarget" = false := by decide
    have hget : Text.startsWith "_op_" "getTarget" = false := by decide
    have hthis : Text.startsWith "_op_" "thisObject" = false := by decide
    have hdeactivate : Text.startsWith "_op_" "deactivate" = false := by decide
    have horb : Text.startsWith "_op_" "orb" = false := by decide
    have hids : Text.startsWith "_op_" "_ids" = false := by decide
    have hinvoke : Text.startsWith "_op_" "_invoke" = false := by decide
    simp only [tieMembers, List.cons_append, List.nil_append, List.forall_mem_cons]
    exact ⟨hother hconstructor, hother hset, hother hget, hother hthis, hother hdeactivate,
      hother horb, hother horb, hother hids, hother hinvoke, by simp⟩
  have hhandler : (fun x : Served => (handler h unit target x).name == handlerName name &&
      (handler h unit target x).params ==
        [.named Known.inputStream, .named Known.responseHandler]) =
      (·.operation.wire.name == name) := by
    funext x
    by_cases hx : x.operation.wire.name = name
    · simp [handler, hx]
    · have hne : handlerName x.operation.wire.name ≠ handlerName name :=
        fun h => hx (handlerName_injective h)
      simp [handler, hx, hne]
  rw [Blueprint.find?, blueprint, List.find?_append,
    List.find?_eq_none.2 (fun x hx => by simp [hmember x hx]), Option.none_or, List.find?_map]
  exact congrArg (Option.map _)
    ((congrArg (List.find? · _) hhandler).trans (find?_foldl_addServed [] name))

end ComponentViews.Skeleton
