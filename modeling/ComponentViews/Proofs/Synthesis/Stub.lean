import ComponentViews.Proofs.Synthesis.Dispatch
import ComponentViews.Synthesis.Stub

/-!
# Stubs are accepted

Both ways of a stub's method are accepted whatever the signature is. Arguments that are
copied together are taken out of an array by their places in it, which are 32-bit numbers:
an operation has to have few enough parameters for that.
-/

namespace ComponentViews

namespace Marshalling

variable {scope : Scope} {h : Hierarchy} {ty : Ty}

@[simp] theorem checkExpr_write {out value : Expr} :
    scope.checkExpr (write h ty out value) = .ok () ↔
      scope.checkExpr out = .ok () ∧ scope.checkExpr value = .ok () := by
  simp only [write]
  split <;> simp

@[simp] theorem checkExpr_read {input : Expr} :
    scope.checkExpr (read h ty input) = .ok () ↔ scope.checkExpr input = .ok () := by
  simp only [read]
  split <;> simp

@[simp] theorem checkExpr_ofSelf {name : String} {params : List Ty} {result : Ty}
    {args : List Expr} :
    scope.checkExpr (ofSelf name params result args) = .ok () ↔
      params.length = args.length ∧ scope.isStatic = false ∧
        ∀ e ∈ args, scope.checkExpr e = .ok () := by
  simp [ofSelf]

@[simp] theorem checkExpr_broker : scope.checkExpr broker = .ok () ↔ scope.isStatic = false := by
  simp [broker]

@[simp] theorem checkExpr_copyObject {value : Expr} :
    scope.checkExpr (copyObject value) = .ok () ↔
      scope.checkExpr value = .ok () ∧ scope.isStatic = false := by
  simp [copyObject]

@[simp] theorem checkExpr_copyObjects {values : Expr} :
    scope.checkExpr (copyObjects values) = .ok () ↔
      scope.checkExpr values = .ok () ∧ scope.isStatic = false := by
  simp [copyObjects]

theorem check_idsMethod (ids : List String) : (idsMethod ids).check h = .ok () := by
  have hvoid : Ty.string.arrayOf.isVoid = false := by decide
  have hstring : Ty.string.primitive? = none ∧ Ty.string.isVoid = false := by decide
  refine Method.check_ofBlock ?_ (.inr (by simp [blockEnds, Stmt.ends]))
  simp [hvoid, hstring]

end Marshalling

namespace Stub

open Marshalling

variable {h : Hierarchy} {unit interface : String} {m : RemoteOperation} {vars : Nat}

/-- The scope of the stub's method for an operation, with the given number of variables. -/
abbrev scopeOf (h : Hierarchy) (m : RemoteOperation) (vars : Nat) : Scope :=
  .ofInstance h vars (op m).params (op m).result

theorem checkBlock_retry :
    ∀ s ∈ retry unit m, (scopeOf h m vars).checkStmt s = .ok () := by
  rw [retry, Scope.checkBlock_retCall _ rfl, Scope.checkExpr_invoke]
  exact ⟨by simp, by simp, Scope.checkExpr_forwardArgs⟩

/-- A parameter with its place is one of the arguments. -/
theorem lt_of_mem_zipIdx {ty : Ty} {i : Nat} (hi : (ty, i) ∈ (op m).params.zipIdx) :
    i < (op m).params.length := by
  have := List.mem_zipIdx hi
  omega

/-! ### Over the wire -/

theorem checkBlock_exchange (hvars : 7 ≤ vars) :
    ∀ s ∈ exchange h m, (scopeOf h m vars).checkStmt s = .ok () := by
  have hin : input < vars := by simp only [input]; omega
  have hout : output < vars := by simp only [output]; omega
  simp only [exchange, List.cons_append, List.forall_mem_cons, List.forall_mem_append,
    List.forall_mem_map, Prod.forall]
  refine ⟨by simpa [wireExpr] using hout, fun ty i hi => ?_, ?_, ?_, by simp⟩
  · simpa using And.intro hout (lt_of_mem_zipIdx hi)
  · simpa using And.intro hin hout
  · cases hvoid : (op m).result.isVoid <;> simp [hvoid, hin]

theorem checkBlock_readFailure (hvars : 7 ≤ vars) :
    ∀ s ∈ readFailure h m, (scopeOf h m vars).checkStmt s = .ok () := by
  have hin : input < vars := by simp only [input]; omega
  have hfail : applicationFailure < vars := by simp only [applicationFailure]; omega
  have hid : failureId < vars := by simp only [failureId]; omega
  simp only [readFailure, List.forall_mem_append, List.forall_mem_map]
  refine ⟨⟨by simp [hin, hfail, hid], fun failure _ => ?_⟩, by simpa using hid⟩
  simpa [throwDeclared] using And.intro hid hin

theorem checkBlock_remotePath (hk : h.KeepsStandard) (hvars : 7 ≤ vars) :
    ∀ s ∈ remotePath h unit m, (scopeOf h m vars).checkStmt s = .ok () := by
  have hin : input < vars := by simp only [input]; omega
  have hfail : applicationFailure < vars := by simp only [applicationFailure]; omega
  have hremarshal : remarshal < vars := by simp only [remarshal]; omega
  have hsystem : systemFailure < vars := by simp only [systemFailure]; omega
  have hsub : h.isSubtype Known.remarshalException Known.applicationException = false := by
    rw [hk.isSubtype_eq (by decide)]
    decide
  have hnames : Known.systemException ≠ "" ∧ Known.applicationException ≠ "" ∧
      Known.remarshalException ≠ "" := by decide
  have hinner : (scopeOf h m vars).checkHandlers []
      [⟨some Known.applicationException, applicationFailure, readFailure h m⟩,
        ⟨some Known.remarshalException, remarshal, retry unit m⟩] = .ok () := by
    rw [Scope.checkHandlers_eq_ok]
    refine ⟨?_, by simp [Scope.CatchesReachable, hsub, hnames]⟩
    simp only [List.forall_mem_cons, Scope.vars_ofInstance]
    exact ⟨⟨hfail, checkBlock_readFailure hvars⟩, ⟨hremarshal, checkBlock_retry⟩, by simp⟩
  simp only [remotePath, List.forall_mem_singleton]
  rw [Scope.checkStmt_region]
  refine ⟨.inl (by simp), ?_, ?_, by simp⟩
  · simp only [List.forall_mem_cons, Scope.checkStmt_region]
    exact ⟨by simpa using hin, ⟨.inl (by simp), checkBlock_exchange hvars, hinner,
      by simpa using hin⟩, by simp⟩
  · simp [Scope.checkHandlers_eq_ok, Scope.CatchesReachable, hnames, hsystem]

theorem blockEnds_remotePath : blockEnds (remotePath h unit m) = true := by
  have hexchange : blockEnds (exchange h m) = true := by
    rw [exchange]
    exact blockEnds_append (by simp [blockEnds, Stmt.ends])
  have hfailure : blockEnds (readFailure h m) = true := by
    rw [readFailure]
    exact blockEnds_append (by simp [blockEnds, Stmt.ends])
  simp [remotePath, blockEnds, Stmt.ends, exitEnds, handlersEnd, hexchange, hfailure, retry]

/-! ### Within the program -/

theorem length_copiedArgs_le : (copiedArgs h m).length ≤ (op m).params.length := by
  rw [copiedArgs, List.length_map]
  exact (List.length_filter_le _ _).trans (by simp)

theorem lt_of_mem_copiedArgs {i : Nat} (hi : i ∈ copiedArgs h m) : i < (op m).params.length := by
  obtain ⟨⟨ty, j⟩, hj, rfl⟩ := List.mem_map.1 hi
  exact lt_of_mem_zipIdx (List.mem_of_mem_filter hj)

/-- The place of a copy within the array of copies is no negative number. -/
theorem item_nonneg {k : Nat} (hk : k < 2 ^ 31) : ¬ Int32.ofNat k < 0 := by
  rw [Int32.not_lt, Int32.le_iff_toInt_le, Int32.toInt_ofNat_of_lt hk]
  simp

/-- The variables of a stub's method: those of the way over the wire, one for copies made
    together, and the failure of the servant and its copy. -/
theorem length_vars : (Stub.vars h m).length = failureCopy h m + 1 := by
  cases hc : copiesTogether h m <;> simp [Stub.vars, failureCopy, servantFailure, hc]

theorem checkExpr_passedArg (hsmall : (op m).params.length ≤ 2 ^ 31) {ty : Ty} {i : Nat}
    (hi : i < (op m).params.length) :
    (scopeOf h m (Stub.vars h m).length).checkExpr (passedArg h m ty i) = .ok () := by
  rw [passedArg]
  split
  · simpa using hi
  · rename_i k hk
    have hk : k < (copiedArgs h m).length := by
      have := List.idxOf?_eq_some_iff.1 hk
      obtain ⟨hlt, -⟩ := this
      exact hlt
    have hle := length_copiedArgs_le (h := h) (m := m)
    rw [Scope.checkExpr_fromObject]
    split
    · rename_i htogether
      have hcopies : copies < (Stub.vars h m).length := by
        rw [length_vars, failureCopy, servantFailure, if_pos htogether]
        simp [copies]
      simpa using And.intro (item_nonneg (by omega)) hcopies
    · simpa using hi

/-- The arguments that the servant gets. -/
def servantArgs (h : Hierarchy) (m : RemoteOperation) : List Expr :=
  (op m).params.zipIdx.map fun (ty, i) => passedArg h m ty i

theorem checkBlock_callServant (hsmall : (op m).params.length ≤ 2 ^ 31) :
    ∀ s ∈ callServant h interface m,
      (scopeOf h m (Stub.vars h m).length).checkStmt s = .ok () := by
  have hservant : servant < (Stub.vars h m).length := by
    rw [length_vars, failureCopy, servantFailure]
    simp only [servant]
    -- Arguments that are copied together wait in a variable of their own.
    split <;> omega
  simp only [callServant, List.forall_mem_append]
  refine ⟨?_, ?_⟩
  · rw [copyArgs]
    split
    · rename_i htogether
      have hcopies : copies < (Stub.vars h m).length := by
        rw [length_vars, failureCopy, servantFailure, if_pos htogether]
        simp [copies]
      simp only [List.forall_mem_singleton, Scope.checkStmt_assign, checkExpr_copyObjects,
        Scope.checkExpr_objectArray, List.forall_mem_map, Scope.checkExpr_arg]
      exact ⟨hcopies, fun i hi => lt_of_mem_copiedArgs hi, rfl⟩
    · simp
  · have hcall : (scopeOf h m (Stub.vars h m).length).checkExpr
        (.invoke .interface (.cast (.named interface)
          (.fieldOf Known.servantObject "servant" Known.object (.var servant))) interface
          (op m).name (op m).params (op m).result (servantArgs h m)) = .ok () := by
      simp only [servantArgs, Scope.checkExpr_invoke, List.length_map, List.length_zipIdx, true_and,
        Scope.checkExpr_cast, Scope.checkExpr_fieldOf, Scope.checkExpr_var,
        Scope.vars_ofInstance, List.forall_mem_map, Prod.forall]
      exact ⟨hservant, fun ty i hi => checkExpr_passedArg hsmall (lt_of_mem_zipIdx hi)⟩
    rw [Scope.checkBlock_retCall _ rfl]
    split
    · simpa [servantArgs] using hcall
    · exact hcall

theorem checkBlock_passFailure :
    ∀ s ∈ passFailure h m, (scopeOf h m (Stub.vars h m).length).checkStmt s = .ok () := by
  have hfailure : servantFailure h m < (Stub.vars h m).length := by
    rw [length_vars, failureCopy]
    omega
  have hcopy : failureCopy h m < (Stub.vars h m).length := by
    rw [length_vars]
    omega
  simp only [passFailure, List.cons_append, List.forall_mem_cons, List.forall_mem_append,
    List.forall_mem_map]
  exact ⟨by simpa using And.intro hcopy hfailure, fun failure _ => by simpa using hcopy,
    by simpa using hcopy, by simp⟩

theorem checkBlock_localPath (hsmall : (op m).params.length ≤ 2 ^ 31) :
    ∀ s ∈ localPath h unit interface m,
      (scopeOf h m (Stub.vars h m).length).checkStmt s = .ok () := by
  have hservant : servant < (Stub.vars h m).length := by
    rw [length_vars, failureCopy, servantFailure]
    simp only [servant]
    split <;> omega
  have hfailure : servantFailure h m < (Stub.vars h m).length := by
    rw [length_vars, failureCopy]
    omega
  have hhandler : (scopeOf h m (Stub.vars h m).length).checkHandlers []
      [⟨none, servantFailure h m, passFailure h m⟩] = .ok () := by
    rw [Scope.checkHandlers_eq_ok]
    refine ⟨?_, by simp [Scope.CatchesReachable]⟩
    simp only [List.forall_mem_singleton, Scope.vars_ofInstance]
    exact ⟨hfailure, checkBlock_passFailure⟩
  simp only [localPath, List.forall_mem_cons, Scope.checkStmt_cond, Scope.checkStmt_region]
  exact ⟨by simpa [wireExpr] using hservant, ⟨by simpa using hservant, checkBlock_retry, by simp⟩,
    ⟨.inl (by simp), checkBlock_callServant hsmall, hhandler, by simpa using hservant⟩, by simp⟩

theorem blockEnds_localPath : blockEnds (localPath h unit interface m) = true := by
  have hcall : blockEnds (callServant h interface m) = true := by
    simp only [callServant]
    exact blockEnds_append (by simp)
  have hpass : blockEnds (passFailure h m) = true := by
    simp only [passFailure]
    exact blockEnds_append (by simp [blockEnds, Stmt.ends])
  simp [localPath, blockEnds, Stmt.ends, exitEnds, handlersEnd, hcall, hpass]

/-! ### The class -/

theorem check_method (hk : h.KeepsStandard) (hsmall : (op m).params.length ≤ 2 ^ 31) :
    (method h unit interface m).check h = .ok () := by
  refine Method.check_of_body rfl (Method.isStatic_of_public rfl) ?_ (.inr ?_)
  · have hseven : 7 ≤ (Stub.vars h m).length := by
      rw [length_vars, failureCopy, servantFailure]
      split <;> omega
    simp only [List.forall_mem_singleton, Scope.checkStmt_cond]
    exact ⟨by simp [method, Method.ofBody], checkBlock_remotePath hk hseven,
      checkBlock_localPath hsmall⟩
  · simp [blockEnds, Stmt.ends, blockEnds_remotePath, blockEnds_localPath]

theorem nodup_copiedArgs : (copiedArgs h m).Nodup := by
  have hsub : (copiedArgs h m).Sublist ((op m).params.zipIdx.map (·.2)) :=
    List.filter_sublist.map _
  refine hsub.nodup ?_
  rw [List.zipIdx_map_snd]
  exact List.nodup_range'

/-- The bound on the parameters is needed: where more arguments are copied together than a
    32-bit number can count, the place of one in the array of copies is negative. -/
theorem not_check_method (hmany : 2 ^ 31 < (copiedArgs h m).length) :
    (method h unit interface m).check h ≠ .ok () := by
  intro hcheck
  have hi := List.getElem_mem hmany
  have hidx : (copiedArgs h m).idxOf? (copiedArgs h m)[2 ^ 31] = some (2 ^ 31) :=
    List.idxOf?_eq_some_iff.2 ⟨hmany, rfl, fun j hj => by
      simpa [nodup_copiedArgs.getElem_inj_iff] using hj.ne⟩
  obtain ⟨⟨ty, i⟩, hmem, heq⟩ := List.mem_map.1 hi
  have htogether : copiesTogether h m = true := by
    rw [copiesTogether, decide_eq_true_iff]
    omega
  -- The argument is part of the call of the servant, which stands behind the copying.
  have hblock := ((Method.check_eq_ok rfl (Method.isStatic_of_public rfl)).1 hcheck).1
  rw [List.forall_mem_singleton, Scope.checkStmt_cond] at hblock
  have hlocal := hblock.2.2
  simp only [localPath, List.forall_mem_cons, Scope.checkStmt_region] at hlocal
  have hservant := hlocal.2.2.1.2.1
  simp only [callServant, List.forall_mem_append] at hservant
  have hcall := (Scope.checkBlock_retCall _ rfl).1 hservant.2
  have hargs : ∀ e ∈ servantArgs h m, (scopeOf h m (Stub.vars h m).length).checkExpr e =
      .ok () := by
    split at hcall
    · rw [Scope.checkExpr_fromObject, checkExpr_copyObject, Scope.checkExpr_invoke] at hcall
      exact hcall.1.2.2
    · rw [Scope.checkExpr_invoke] at hcall
      exact hcall.2.2
  have hcall := hargs _ (List.mem_map_of_mem (List.mem_of_mem_filter hmem))
  simp only [passedArg, show i = (copiedArgs h m)[2 ^ 31] from heq, hidx, htogether, if_true,
    Scope.checkExpr_fromObject, Scope.checkExpr_item] at hcall
  exact hcall.1 (by decide)

/-- The stub of an interface is accepted if its operations have few enough parameters. -/
theorem check_blueprint (hk : h.KeepsStandard) (i : Interface) {methods : List RemoteOperation}
    (hsmall : ∀ m ∈ methods, (op m).params.length ≤ 2 ^ 31) :
    (blueprint h i methods).check h = .ok () := by
  refine Blueprint.check_eq_ok.2 ?_
  simp only [blueprint, List.forall_mem_cons, List.forall_mem_map]
  exact ⟨Method.check_constructorOf _ _, check_idsMethod _,
    fun m hm => check_method hk (hsmall m hm)⟩

end Stub

end ComponentViews
