import ComponentViews.Execution.Recorder
import ComponentViews.Proofs.Execution.Routing

/-!
# Asking for operations

Whatever hashes the names have, a skeleton answers as if it compared the name that it is asked
for with those of its operations, one after another, and then with their aliases
(`Skeleton.exec_invokeMethod`). What it does for the operation that it comes to
(`Skeleton.servedBy`) is one run of its handler, and what it does for a name that leads nowhere
is one failure. `Skeleton.exec_call_asked` says so of the class as a whole.

This holds in any environment. What is asked of it is only that the stream of arguments is
what the skeleton casts it to, and for the failure that it creates objects as it is told.
-/

namespace ComponentViews

open Effect

variable {σ : Type}

/-! ### New failures -/

namespace Environment

/-- Constructors create objects of the class that is asked for. -/
def Constructs (env : Environment σ) : Prop :=
  ∀ (className : String) (params : List Ty) (args : List Value) (s : σ), ∃ o s',
    exec (env.create className params args) s = (.ok (.object o), s') ∧ o.className = className

/-- What comes of throwing a new object: the failure, and the state behind it. -/
def raised (env : Environment σ) (className : String) (params : List Ty) (args : List Value)
    (s : σ) : ObjectRef × σ :=
  match exec (env.create className params args) s with
  | (.ok (.object o), s') => (o, s')
  | (.ok .null, s') => (env.failure Known.nullPointerException).run s'
  | (.ok _, s') => (env.failure Known.classCastException).run s'
  | (.error thrown, s') => (thrown, s')

end Environment

theorem Activation.exec_stmt_throw_new {act : Activation σ} {f f' : Frame σ} {className : String}
    {params : List Ty} {es : List Expr} {vs : List Value}
    (hes : exec (act.evalAll es) f = (.ok vs, f')) :
    exec (act.stmt (.throw (.new className params es))) f =
      (.error (act.env.raised className params vs f'.world).1,
        { f' with world := (act.env.raised className params vs f'.world).2 }) := by
  have heval : exec (act.eval (.new className params es)) f = _ := exec_eval_new hes
  rw [Environment.raised]
  rcases hcreate : exec (act.env.create className params vs) f'.world with ⟨thrown | v, w⟩
  · rw [Run.exec_outside hcreate] at heval
    exact exec_stmt_throw_error heval
  · rw [Run.exec_outside hcreate] at heval
    rw [stmt, exec_bind_ok heval]
    cases v <;> rfl

/-- A recording environment creates what it is told to. -/
theorem Recorder.constructs (script : Script) : (Recorder.environment script).Constructs := by
  intro className params args s
  show ∃ o s', exec (Recorder.create script className args) s = _ ∧ _
  rw [Recorder.create]
  cases hthrowable : script.hierarchy.isThrowable className with
  | true => exact ⟨_, _, rfl, rfl⟩
  | false => exact ⟨_, _, rfl, rfl⟩

/-! ### Asking -/

namespace Skeleton

/-- What follows a failure. -/
def recover (k : ObjectRef → σ → Except ObjectRef Value × σ) :
    Except ObjectRef Value × σ → Except ObjectRef Value × σ
  | (.error thrown, s) => k thrown s
  | (.ok v, s) => (.ok v, s)

/-- A failure that leaves the skeleton: one of the system's, or else a new one for it. -/
def passOn (env : Environment σ) (thrown : ObjectRef) (s : σ) : Except ObjectRef Value × σ :=
  if env.isSubtype thrown.className Known.systemException then (.error thrown, s)
  else
    let (failure, s) := env.raised Known.unknownException [.named Known.throwable]
      [.object thrown] s
    (.error failure, s)

/-- How a block ends that returns what has been answered, with the given variables. -/
def returning (vars : List Value) (r : Except ObjectRef Value × σ) :
    Except ObjectRef Flow × Frame σ :=
  (r.1.map .returned, ⟨vars, r.2⟩)

variable {h : Hierarchy} {unit target : String}

/-- What the skeleton does for a name, apart from passing on failures: it runs the handler of the
    operation that the name leads to, or else fails. -/
def attend (h : Hierarchy) (unit target : String) (methods : List Served) (env : Environment σ)
    (this : ObjectRef) (depth : Nat) (asked : String) (args : List Value) (s : σ) :
    Except ObjectRef Value × σ :=
  match servedBy methods asked with
  | some m => exec ((blueprint h unit target methods).runMethod env this depth
      (handler h unit target m) args) s
  | none =>
    let (failure, s) := env.raised Known.badOperation [] [] s
    (.error failure, s)

variable {methods : List Served} {env : Environment σ} {this stream : ObjectRef} {asked : String}
  {reply : Value} {s : σ} {depth : Nat} {act : Activation σ} {f : Frame σ}

/-- The handler of the operation that a name leads to is a method of the skeleton itself. -/
theorem exec_callHandler (hact : act = (blueprint h unit target methods).activation env this depth
      [.string asked, .object stream, reply])
    (hinput : f.vars.getD input .null = .object stream) {m : Served}
    (hserved : servedBy methods asked = some m) :
    exec (act.eval (callHandler unit (handlerName m.operation.wire.name))) f =
      exec (Run.outside ((blueprint h unit target methods).runMethod env this depth
        (handler h unit target m) [.object stream, reply])) f := by
  let b := blueprint h unit target methods
  let callee : Callee := ⟨.special, unit, handlerName m.operation.wire.name,
    [.named Known.inputStream, .named Known.responseHandler], .named Known.outputStream⟩
  have hown : act.callOwn callee = some (b.runMethod env this depth (handler h unit target m)) := by
    rw [hact]
    show (b.ownMethod? callee).map _ = _
    rw [Blueprint.ownMethod?, if_neg (by simp [callee, b, blueprint]), find?_handler,
      find?_name_of_servedBy hserved]
    rfl
  refine (Activation.exec_eval_call Activation.exec_eval_this (Activation.exec_evalAll_cons
    Activation.exec_eval_var (Activation.exec_evalAll_singleton Activation.exec_eval_arg))).trans ?_
  rw [Activation.invoke_own rfl hown, hinput, hact]
  rfl

/-- The switch returns what the handler does, and a name that leads nowhere runs into the failure
    behind it. -/
theorem exec_attend (hact : act = (blueprint h unit target methods).activation env this depth
      [.string asked, .object stream, reply])
    (hinput : f.vars.getD input .null = .object stream) :
    exec (act.block [.switch (.invoke .virtual (.arg 0) Known.string "hashCode" [] .int [])
        (routeCases unit (routes methods)) [], .throw (.new Known.badOperation [] [])]) f =
      returning f.vars
        (attend h unit target methods env this depth asked [.object stream, reply] f.world) := by
  have hasked : act.args.getD 0 .null = .string asked := by
    rw [hact]
    rfl
  have hlookUp := exec_lookUp hasked unit (routes methods) f
  rw [get?_routes] at hlookUp
  rw [attend]
  cases hserved : servedBy methods asked with
  | none =>
    rw [hserved] at hlookUp
    rw [Activation.exec_block_normal hlookUp, Activation.exec_block_singleton,
      Activation.exec_stmt_throw_new Activation.exec_evalAll_nil, hact]
    rfl
  | some m =>
    rw [hserved] at hlookUp
    have hcall := exec_callHandler hact hinput hserved
    simp only
    rcases hrun : exec ((blueprint h unit target methods).runMethod env this depth
      (handler h unit target m) [.object stream, reply]) f.world with ⟨thrown | v, s'⟩
    · rw [Run.exec_outside hrun] at hcall
      exact Activation.exec_block_error (hlookUp.trans (Activation.exec_stmt_ret_error hcall))
    · rw [Run.exec_outside hrun] at hcall
      exact Activation.exec_block_returned (hlookUp.trans (Activation.exec_stmt_ret hcall))

/-- What the region around the switch does about failures. -/
def failureHandlers : List Handler :=
  [⟨some Known.systemException, systemFailure, [.throw (.var systemFailure)]⟩,
    ⟨none, failure, [.throw (.new Known.unknownException [.named Known.throwable]
      [.var failure])]⟩]

theorem exec_passOn {guarded : Run σ Flow} {vars : List Value}
    {r : Except ObjectRef Value × σ} (hvars : failure < vars.length)
    (hguarded : exec guarded f = returning vars r) :
    ∃ vars', exec (act.handle guarded failureHandlers) f =
      returning vars' (recover (passOn act.env) r) := by
  rcases r with ⟨thrown | v, s⟩
  · have hguarded : exec guarded f = (.error thrown, ⟨vars, s⟩) := hguarded
    have hvar : ∀ {i}, i < vars.length →
        exec (act.eval (.var i)) ⟨vars.set i (.object thrown), s⟩ =
          (.ok (.object thrown), ⟨vars.set i (.object thrown), s⟩) := fun hi => by
      rw [Activation.exec_eval_var, Activation.getD_set hi]
    rw [Activation.exec_handle_error hguarded, recover, passOn, failureHandlers]
    cases hsystem : act.env.isSubtype thrown.className Known.systemException with
    | true =>
      have htaken : act.catches (some Known.systemException) thrown = true := hsystem
      rw [Activation.exec_firstHandler_taken htaken, Activation.exec_block_singleton]
      exact ⟨_, Activation.exec_stmt_throw (hvar (Nat.lt_of_succ_lt hvars))⟩
    | false =>
      have hpassed : act.catches (some Known.systemException) thrown = false := hsystem
      rw [Activation.exec_firstHandler_passed hpassed, Activation.exec_firstHandler_taken rfl,
        Activation.exec_block_singleton]
      exact ⟨_, Activation.exec_stmt_throw_new (Activation.exec_evalAll_singleton (hvar hvars))⟩
  · exact ⟨vars, Activation.exec_handle_ok hguarded⟩

/-- A skeleton that is asked for a name answers what comes of the operation that the name leads
    to, and passes on its failures. -/
theorem exec_invokeMethod (hstream : env.isSubtype stream.className Known.inputStream = true) :
    exec ((blueprint h unit target methods).runMethod env this (depth + 1)
      (invokeMethod unit (routes methods)) [.string asked, .object stream, reply]) s =
      recover (passOn env)
        (attend h unit target methods env this depth asked [.object stream, reply] s) := by
  let act := (blueprint h unit target methods).activation env this depth
    [.string asked, .object stream, reply]
  let zeros : List Value := ([⟨"in", .named Known.inputStream⟩,
    ⟨"ex", .named Known.systemException⟩, ⟨"t", .named Known.throwable⟩] : List Variable).map
      fun v => .zero v.type
  have hinput : exec (act.eval (.cast (.named Known.inputStream) (.arg 1))) ⟨zeros, s⟩ =
      (.ok (.object stream), ⟨zeros, s⟩) := by
    refine (Activation.exec_eval_cast Activation.exec_eval_arg).trans ?_
    rw [show act.args.getD 1 .null = .object stream from rfl,
      Activation.cast_of_isSubtype hstream, exec_pure]
  have hstored : (⟨zeros.set input (.object stream), s⟩ : Frame σ).vars.getD input .null =
      .object stream := Activation.getD_set (by decide)
  -- The switch finds the operation; the handlers around it pass on its failures.
  have hregion := exec_attend (show act = _ from rfl) hstored
  obtain ⟨vars, hhandled⟩ : ∃ vars, exec (act.handle _ failureHandlers) _ = returning vars _ :=
    exec_passOn (by simp [zeros, failure]) hregion
  have hblock : exec (act.block [.assign input (.cast (.named Known.inputStream) (.arg 1)),
      .region [.switch (.invoke .virtual (.arg 0) Known.string "hashCode" [] .int [])
        (routeCases unit (routes methods)) [], .throw (.new Known.badOperation [] [])]
        failureHandlers none]) ⟨zeros, s⟩ = returning vars (recover (passOn env)
          (attend h unit target methods env this depth asked [.object stream, reply] s)) := by
    rw [Activation.exec_block_normal (Activation.exec_stmt_assign hinput),
      Activation.exec_block_singleton, Activation.exec_stmt_region, Activation.exec_exitBlock_none]
    exact hhandled
  rw [Blueprint.exec_runMethod rfl hblock]
  rcases recover (passOn env) (attend h unit target methods env this depth asked
    [.object stream, reply] s) with ⟨thrown | v, s'⟩ <;> rfl

/-- The method that is asked for operations is the one of its name. -/
theorem exec_call_invoke (hstream : env.isSubtype stream.className Known.inputStream = true) :
    exec ((blueprint h unit target methods).call env this "_invoke"
      [.string asked, .object stream, reply]) s =
      recover (passOn env) (attend h unit target methods env this (Blueprint.maxDepth - 1) asked
        [.object stream, reply] s) := by
  have hfind : (blueprint h unit target methods).methods.find?
      (fun x => x.name == "_invoke" && x.body.isSome) =
      some (invokeMethod unit (routes methods)) := by
    simp [blueprint, tieMembers, Method.constructorOf, Known.constructor, Method.ofBody,
      Marshalling.idsMethod, invokeMethod]
  rw [Blueprint.call, hfind]
  exact exec_invokeMethod hstream

/-- Asked for the name of an operation, a skeleton runs the handler of the first operation of this
    name, and no other. Asked for an alias, it runs that of the first operation that goes by the
    name of the first one with this alias. Asked for anything else, it runs none, and fails. -/
theorem exec_call_asked (henv : env.Constructs)
    (hsystem : env.isSubtype Known.badOperation Known.systemException = true)
    (hstream : env.isSubtype stream.className Known.inputStream = true) (h : Hierarchy)
    (unit target : String) (methods : List Served) (this : ObjectRef) (asked : String)
    (reply : Value) (s : σ) :
    let b := blueprint h unit target methods
    let call := exec (b.call env this "_invoke" [.string asked, .object stream, reply]) s
    let run (m : Served) := recover (passOn env)
      (exec (b.runMethod env this (Blueprint.maxDepth - 1) (handler h unit target m)
        [.object stream, reply]) s)
    (∀ m, methods.find? (·.operation.wire.name == asked) = some m → call = run m) ∧
    (methods.find? (·.operation.wire.name == asked) = none →
      ∀ named, methods.find? (·.operation.wire.altName == some asked) = some named →
        ∃ m, methods.find? (·.operation.wire.name == named.operation.wire.name) = some m ∧
          call = run m) ∧
    (methods.find? (·.operation.wire.name == asked) = none →
      methods.find? (·.operation.wire.altName == some asked) = none →
        ∃ o s', exec (env.create Known.badOperation [] []) s = (.ok (.object o), s') ∧
          o.className = Known.badOperation ∧ call = (.error o, s')) ∧
    ∃ start key rest, (invokeMethod unit (routes methods)).body.map (·.block) =
        some [start, .region (.switch key (routeCases unit (routes methods)) [] :: rest)
          failureHandlers none] ∧
      ((routeCases unit (routes methods)).map (·.1)).Nodup := by
  intro b call run
  have hcall : call = recover (passOn env) (attend h unit target methods env this
      (Blueprint.maxDepth - 1) asked [.object stream, reply] s) := exec_call_invoke hstream
  have hserved : ∀ m, servedBy methods asked = some m → call = run m := by
    intro m hm
    rw [hcall, attend, hm]
  refine ⟨fun m hm => ?_, fun hname named hnamed => ?_, fun hname halias => ?_,
    _, _, _, rfl, ?_⟩
  · exact hserved m (by rw [servedBy, hm, Option.some_or])
  · obtain ⟨m, hm⟩ := Option.isSome_iff_exists.1
      (isSome_find?_name (List.mem_of_find?_eq_some hnamed))
    exact ⟨m, hm, hserved m (by rw [servedBy, hname, hnamed, Option.none_or, Option.bind_some, hm])⟩
  · obtain ⟨o, s', hcreate, hclass⟩ := henv Known.badOperation [] [] s
    refine ⟨o, s', hcreate, hclass, ?_⟩
    rw [hcall, attend, servedBy, hname, halias]
    simp only [Option.none_or, Option.bind_none, Environment.raised, hcreate, recover, passOn,
      hclass, hsystem, if_true]
  · rw [routeCases, List.map_map]
    exact nodup_buckets (routes methods)

/-! ### Names of one hash -/

/-- An operation of an account under a name, and under an alias if it has one. -/
def servedAs (name : String) (altName : Option String := none) : Served where
  interface := "acme.Account"
  operation :=
    { exposed :=
        { op := { name, owner := "acme.Account" }
          id := 0
          policy := {}
          failures := { systemUnchecked := true }
          isRmi := true }
      wire := { name, altName } }

/-- Two operations of one hash, the second of which is reached by a further name of this hash; the
    alias of the first gives way to it. -/
def collidingMethods : List Served :=
  [servedAs "AaAa" (some "BBBB"), servedAs "BBBB" (some "AaBB")]

theorem exec_call_asked_colliding :
    let env := Recorder.environment { hierarchy := .standard }
    let stream : ObjectRef := ⟨2, Known.inputStream⟩
    let b := blueprint .standard "acme._Account_Tie" "acme.Account" collidingMethods
    let call (asked : String) := exec (b.call env ⟨1, "acme._Account_Tie"⟩ "_invoke"
      [.string asked, .object stream, .null]) {}
    let run (m : Served) := recover (passOn env) (exec (b.runMethod env ⟨1, "acme._Account_Tie"⟩
      (Blueprint.maxDepth - 1) (handler .standard "acme._Account_Tie" "acme.Account" m)
      [.object stream, .null]) {})
    ["BBBB", "AaBB", "BBAa"].map Utf16.hash = List.replicate 3 (Utf16.hash "AaAa") ∧
      env.Constructs ∧ env.isSubtype Known.badOperation Known.systemException = true ∧
      env.isSubtype stream.className Known.inputStream = true ∧
      call "BBBB" = run (servedAs "BBBB" (some "AaBB")) ∧
      call "AaBB" = run (servedAs "BBBB" (some "AaBB")) ∧
      ∃ o s', o.className = Known.badOperation ∧ call "BBAa" = (.error o, s') := by
  intro env stream b call run
  have hsystem : env.isSubtype Known.badOperation Known.systemException = true := by decide
  have hstream : env.isSubtype stream.className Known.inputStream = true := by decide
  have henv : env.Constructs := Recorder.constructs _
  have hasked (asked : String) := exec_call_asked henv hsystem hstream .standard
    "acme._Account_Tie" "acme.Account" collidingMethods ⟨1, "acme._Account_Tie"⟩ asked .null {}
  obtain ⟨hname, -, -, -⟩ := hasked "BBBB"
  obtain ⟨-, halias, -, -⟩ := hasked "AaBB"
  obtain ⟨-, -, hnone, -⟩ := hasked "BBAa"
  obtain ⟨m, hm, halias⟩ := halias rfl (servedAs "BBBB" (some "AaBB")) rfl
  cases hm
  obtain ⟨o, s', -, hclass, hfailed⟩ := hnone rfl rfl
  exact ⟨by decide, henv, hsystem, hstream, hname _ rfl, halias, o, s', hclass, hfailed⟩

end Skeleton

end ComponentViews
