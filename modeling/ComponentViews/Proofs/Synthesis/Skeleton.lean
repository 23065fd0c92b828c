import ComponentViews.Proofs.Synthesis.Stub
import ComponentViews.Synthesis.Skeleton

/-!
# Skeletons are accepted

The names that lead to operations are sorted into buckets by their hashes, so that no hash
has two cases of the switch. A handler is accepted if the failures of its operation can be
told apart.
-/

namespace ComponentViews.Skeleton

open Marshalling

variable {h : Hierarchy} {unit target : String}

/-! ### Buckets -/

theorem mem_keys_addToBucket {hash x : Int32} {route : String × String} {bs : Buckets}
    (hx : x ∈ (addToBucket hash route bs).map (·.1)) : x = hash ∨ x ∈ bs.map (·.1) := by
  induction bs with
  | nil => simpa [addToBucket] using hx
  | cons b rest ih =>
    obtain ⟨k, routes⟩ := b
    simp only [addToBucket] at hx
    split at hx
    · simpa using hx
    split at hx
    · exact .inr (by simpa using hx)
    · simp only [List.map_cons, List.mem_cons] at hx ⊢
      rcases hx with hx | hx
      · exact .inr (.inl hx)
      · exact (ih hx).imp id .inr

/-- The hashes of the buckets ascend. -/
theorem pairwise_addToBucket {hash : Int32} {route : String × String} {bs : Buckets}
    (hbs : (bs.map (·.1)).Pairwise (· < ·)) :
    ((addToBucket hash route bs).map (·.1)).Pairwise (· < ·) := by
  induction bs with
  | nil => simp [addToBucket]
  | cons b rest ih =>
    obtain ⟨k, routes⟩ := b
    simp only [List.map_cons, List.pairwise_cons] at hbs
    simp only [addToBucket]
    split
    · rename_i hlt
      simp only [List.map_cons, List.pairwise_cons, List.mem_cons]
      refine ⟨fun x hx => ?_, hbs⟩
      rcases hx with rfl | hx
      · exact hlt
      · exact Int32.lt_trans hlt (hbs.1 x hx)
    split
    · simpa using hbs
    · rename_i hnlt hne
      simp only [List.map_cons, List.pairwise_cons]
      refine ⟨fun x hx => ?_, ih hbs.2⟩
      rcases mem_keys_addToBucket hx with rfl | hx
      · exact Int32.lt_of_le_of_ne (Int32.not_lt.1 hnlt) (Ne.symm hne)
      · exact hbs.1 x hx

theorem pairwise_buckets (routes : Table String) :
    ((buckets routes).map (·.1)).Pairwise (· < ·) := by
  rw [buckets]
  have hfold : ∀ (entries : List (String × String)) (bs : Buckets),
      (bs.map (·.1)).Pairwise (· < ·) →
      ((entries.foldl (fun bs route => addToBucket (Utf16.hash route.1) route bs) bs).map
        (·.1)).Pairwise (· < ·) := by
    intro entries
    induction entries with
    | nil => exact fun _ hbs => hbs
    | cons e rest ih => exact fun bs hbs => ih _ (pairwise_addToBucket hbs)
  exact hfold _ _ .nil

/-- No hash has two buckets. -/
theorem nodup_buckets (routes : Table String) : ((buckets routes).map (·.1)).Nodup :=
  (pairwise_buckets routes).imp fun hlt => Int32.ne_of_lt hlt

/-! ### The members of every skeleton -/

theorem check_tieMembers : ∀ m ∈ tieMembers unit target, m.check h = .ok () := by
  have hvoid : Ty.void.isVoid = true := by decide
  have hremote : (Ty.named Known.remote).isVoid = false := by decide
  have hobject : (Ty.named Known.corbaObject).isVoid = false := by decide
  have horb : (Ty.named Known.orb).isVoid = false := by decide
  have hends : ∀ e, blockEnds [.ret (some e)] = true := by simp [blockEnds, Stmt.ends]
  simp only [tieMembers, List.forall_mem_cons]
  exact ⟨Method.check_ofBlock (by simp [hvoid]) (.inl rfl),
    Method.check_ofBlock (by simp [hremote, targetExpr]) (.inr (hends _)),
    Method.check_ofBlock (by simp [hobject]) (.inr (hends _)),
    Method.check_ofBlock (by simp [hvoid]) (.inl rfl),
    Method.check_ofBlock (by simp [horb]) (.inr (hends _)),
    Method.check_ofBlock (by simp [hvoid]) (.inl rfl), by simp⟩

theorem check_invokeMethod (routes : Table String) :
    (invokeMethod unit routes).check h = .ok () := by
  have hvoid : (Ty.named Known.portableOutputStream).isVoid = false := by decide
  have hname : Known.systemException ≠ "" := by decide
  have hkeys :
      (((buckets routes).map fun b => (b.1, b.2.map (tryRoute unit))).map (·.1)).Nodup := by
    rw [List.map_map]
    exact nodup_buckets routes
  refine Method.check_of_body rfl (Method.isStatic_of_public rfl) ?_
    (.inr (by simp [blockEnds, Stmt.ends, exitEnds, handlersEnd]))
  simp only [List.forall_mem_cons, Scope.checkStmt_region, Scope.checkStmt_switch, hkeys]
  refine ⟨by simp [invokeMethod, Method.ofBody, input], ⟨.inl (by simp), ?_, ?_, by simp⟩, by simp⟩
  · simp only [List.forall_mem_map]
    refine ⟨⟨by simp [invokeMethod, Method.ofBody], trivial, fun b _ route _ => ?_, by simp⟩,
      by simp⟩
    simp [invokeMethod, Method.ofBody, input, tryRoute, hvoid]
  · simp [Scope.checkHandlers_eq_ok, Scope.CatchesReachable, hname, systemFailure, failure]

/-! ### Handlers -/

section

variable {m : Served}

/-- The variables of a handler, those for failures apart. -/
def handlerVars (m : Served) : List Variable :=
  ⟨"out", .named Known.outputStream⟩ ::
    (if m.operation.exposed.op.result.isVoid then []
      else [⟨"result", m.operation.exposed.op.result⟩])

/-- What a handler does on declared failures. -/
def catches (h : Hierarchy) (m : Served) : List Catch :=
  m.operation.exposed.failures.application.map (answerFailure h)

/-- The block of a handler. -/
def handlerBlock (h : Hierarchy) (unit target : String) (m : Served) : Block :=
  if (catches h m).isEmpty then answer h unit target m
  else [.region (answer h unit target m) (Catch.handlers (handlerVars m).length (catches h m)) none]

theorem body_handler : (handler h unit target m).body =
    some ⟨handlerVars m ++ (catches h m).map (·.binding), handlerBlock h unit target m⟩ :=
  rfl

/-- The scope of the handler for an operation, with the given number of variables. -/
abbrev scopeOf (h : Hierarchy) (vars : Nat) : Scope :=
  .ofInstance h vars [.named Known.inputStream, .named Known.responseHandler]
    (.named Known.outputStream)

variable {vars : Nat}

@[simp] theorem checkExpr_replyExpr {kind : String} :
    (scopeOf h vars).checkExpr (replyExpr kind) = .ok () := by
  simp [replyExpr]

theorem checkBlock_answer (hvars : (handlerVars m).length ≤ vars) :
    ∀ s ∈ answer h unit target m, (scopeOf h vars).checkStmt s = .ok () := by
  have hnotVoid : (Ty.named Known.outputStream).isVoid = false := by decide
  have hout : output < vars := by
    simp only [handlerVars, List.length_cons] at hvars
    simp only [output]
    omega
  have hcall : (scopeOf h vars).checkExpr (.invoke .interface
      (.cast (.named m.interface) (targetExpr unit target)) m.interface
      m.operation.exposed.op.name m.operation.exposed.op.params m.operation.exposed.op.result
      (m.operation.exposed.op.params.map fun ty => read h ty (.arg 0))) = .ok () := by
    simp [targetExpr]
  simp only [answer, List.forall_mem_append]
  refine ⟨?_, by simpa [hnotVoid] using hout⟩
  split
  · simpa [hout] using hcall
  · rename_i hresult
    have hresult : result < vars := by
      simp only [handlerVars, hresult, Bool.false_eq_true, if_false, List.length_cons,
        List.length_nil] at hvars
      simp only [result]
      omega
    simp only [List.forall_mem_cons, Scope.checkStmt_assign, Scope.checkStmt_eval,
      checkExpr_write, Scope.checkExpr_var, hcall]
    exact ⟨⟨hresult, trivial⟩, by simpa using hout, ⟨hout, hresult⟩, by simp⟩

theorem blockEnds_answer : blockEnds (answer h unit target m) = true := by
  simp [answer, Stmt.ends]

theorem checkBlock_answerFailure (hout : output < vars) (failure : Ty) :
    ∀ i < vars, ∀ s ∈ (answerFailure h failure).body i,
      (scopeOf h vars).checkStmt s = .ok () := by
  have hnotVoid : (Ty.named Known.outputStream).isVoid = false := by decide
  intro i hi
  simp [answerFailure, Catch.ofFailure, hout, hi, hnotVoid]

/-- The handlers for declared failures can be reached. -/
theorem catchesReachable_catches (hm : m.operation.exposed.failures.Handled h) :
    Scope.CatchesReachable h [] ((catches h m).map (·.caught)) := by
  have hcaught : (catches h m).map (·.caught) =
      (m.operation.exposed.failures.application.map (·.name)).map some ++ [] := by
    simp [catches, answerFailure, Catch.ofFailure]
  rw [hcaught]
  exact Scope.catchesReachable_of_handlersReachable (.inl rfl) (List.forall_mem_map.2 hm.named)
    hm.reachable_application

theorem checkBlock_handlerBlock (hm : m.operation.exposed.failures.Handled h) :
    ∀ s ∈ handlerBlock h unit target m,
      (scopeOf h ((handlerVars m).length + (catches h m).length)).checkStmt s = .ok () := by
  have hanswer : ∀ s ∈ answer h unit target m,
      (scopeOf h ((handlerVars m).length + (catches h m).length)).checkStmt s = .ok () :=
    checkBlock_answer (Nat.le_add_right _ _)
  have hout : output < (handlerVars m).length + (catches h m).length := by
    simp only [output, handlerVars, List.length_cons]
    omega
  rw [handlerBlock]
  split
  · exact hanswer
  · rename_i hsome
    have hne : Catch.handlers (handlerVars m).length (catches h m) ≠ [] := by
      cases hcatches : catches h m with
      | nil => simp [hcatches] at hsome
      | cons c rest => simp [Catch.handlers]
    rw [List.forall_mem_singleton, Scope.checkStmt_region]
    refine ⟨.inl hne, hanswer, ?_, by simp⟩
    refine Scope.checkHandlers_catches _ le_rfl ?_ (catchesReachable_catches hm)
    exact List.forall_mem_map.2 fun failure _ => checkBlock_answerFailure hout failure

theorem blockEnds_handlerBlock : blockEnds (handlerBlock h unit target m) = true := by
  rw [handlerBlock]
  split
  · exact blockEnds_answer
  · have hends : ∀ first, handlersEnd (Catch.handlers first (catches h m)) = true := by
      intro first
      refine handlersEnd_catches (List.forall_mem_map.2 fun failure _ => ?_)
      simp [answerFailure, Catch.ofFailure, blockEnds, Stmt.ends]
    simp [blockEnds, Stmt.ends, exitEnds, blockEnds_answer, hends]

theorem check_handler (hm : m.operation.exposed.failures.Handled h) :
    (handler h unit target m).check h = .ok () := by
  have hstatic : (handler h unit target m).isStatic = false := by
    show (Modifiers.privateBit &&& Modifiers.staticBit != 0) = false
    decide
  refine Method.check_of_body body_handler hstatic ?_ (.inr blockEnds_handlerBlock)
  rw [List.length_append, List.length_map]
  exact checkBlock_handlerBlock hm

end

/-! ### The class -/

theorem mem_foldl_addServed {methods served : List Served} {m : Served}
    (hm : m ∈ methods.foldl addServed served) : m ∈ served ∨ m ∈ methods := by
  induction methods generalizing served with
  | nil => exact .inl hm
  | cons first rest ih =>
    rcases ih hm with hm | hm
    · rw [addServed] at hm
      split at hm
      · exact .inl hm
      · rcases List.mem_append.1 hm with hm | hm
        · exact .inl hm
        · exact .inr (List.mem_cons.2 (.inl (List.mem_singleton.1 hm)))
    · exact .inr (List.mem_cons_of_mem _ hm)

/-- The skeleton is accepted if the failures of each operation can be told apart. -/
theorem check_blueprint {methods : List Served}
    (hmethods : ∀ m ∈ methods, m.operation.exposed.failures.Handled h) :
    (blueprint h unit target methods).check h = .ok () := by
  refine Blueprint.check_eq_ok.2 ?_
  simp only [blueprint, List.cons_append, List.forall_mem_cons, List.forall_mem_append,
    List.forall_mem_map]
  refine ⟨Method.check_constructorOf _ _, ⟨check_tieMembers, check_idsMethod _,
    check_invokeMethod _, by simp⟩, fun m hm => ?_⟩
  rcases mem_foldl_addServed hm with hm | hm
  · exact absurd hm List.not_mem_nil
  · exact check_handler (hmethods m hm)

end ComponentViews.Skeleton
