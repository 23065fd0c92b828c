import ComponentViews.Proofs.Kinds.Dispatch
import ComponentViews.Synthesis.Stub

/-!
# Operands of stubs

What is written to a stream has the kind of the type that it is written as, and what is read has
that of the type that is asked for. So both ways of a stub's method are kinded.
-/

namespace ComponentViews

variable {named checked : Prop} {c : CodeContext} {vars : List Variable} {params : List Ty}
  {result : Ty}

theorem Ty.eq_ofPrimitive {ty : Ty} {p : Primitive} (h : ty.primitive? = some p) :
    ty = ofPrimitive p := by
  obtain ⟨name, dims⟩ := ty
  rw [primitive?] at h
  split at h
  · rename_i hdims
    obtain rfl : dims = 0 := hdims
    rw [ofPrimitive, Primitive.name_of_ofName?_eq_some h, named]
  · cases h

theorem Ty.isReference_of_primitive? {ty : Ty} (hvoid : ty.isVoid = false)
    (h : ty.primitive? = none) : ty.isReference = true := by
  simp [isReference, hvoid, h]

namespace Marshalling

variable {h : Hierarchy} {ty : Ty}

theorem isReference_of_needsCopy (hvoid : ty.isVoid = false) (hcopy : h.needsCopy ty = true) :
    ty.isReference = true := by
  refine Ty.isReference_of_primitive? hvoid ?_
  cases hp : ty.primitive? with
  | none => rfl
  | some p => simp [Hierarchy.needsCopy, MarshalRule.ofType, hp] at hcopy

@[simp] theorem kindOf?_ofSelf {name : String} {args : List Expr} :
    c.kindOf? (ofSelf name params result args) = result.slotKind? := by
  simp [ofSelf]

@[simp] theorem kindOf?_broker : c.kindOf? broker = some .reference := by
  simp [broker]

@[simp] theorem kindOf?_copyObject {value : Expr} :
    c.kindOf? (copyObject value) = some .reference := by
  simp [copyObject]

@[simp] theorem kindOf?_copyObjects {values : Expr} :
    c.kindOf? (copyObjects values) = some .reference := by
  simp [copyObjects]

theorem kinded_ofSelf (hc : c.Sees vars params result) {name : String} {types : List Ty}
    {given : Ty} {args : List Expr} :
    c.Kinded named checked (ofSelf name types given args) ↔
      c.AllKinded named checked args ∧ args.map c.kindOf? = types.map Ty.slotKind? ∧
        FitsCall named checked .virtual types given := by
  simp [ofSelf, hc.kinded_this, hc.kindOf?_this]

/-- What is read has the kind of the type that is asked for. -/
theorem kindOf?_read (hvoid : ty.isVoid = false) (input : Expr) :
    c.kindOf? (read h ty input) = ty.slotKind? := by
  simp only [read]
  split
  · simp
  · rw [CodeContext.kindOf?_fromObject hvoid (by simp)]
  · simp
  · simp

variable [Known.AreFit named checked]

theorem kinded_write (hvoid : ty.isVoid = false) {out value : Expr}
    (hout : c.Kinded named checked out) (hstream : c.kindOf? out = some .reference)
    (hvalue : c.Kinded named checked value) (hkind : c.kindOf? value = ty.slotKind?) :
    c.Kinded named checked (write h ty out value) := by
  rw [write, MarshalRule.ofType]
  cases hp : ty.primitive? with
  | some p => 
    have hfits : ty.Fits named checked := Ty.eq_ofPrimitive hp ▸ Ty.fits_ofPrimitive p
    simp [hout, hstream, hvalue, hkind, hfits]
  | none =>
    have hkind : c.kindOf? value = some .reference :=
      hkind.trans (Ty.slotKind?_of_isReference (Ty.isReference_of_primitive? hvoid hp))
    simp only
    split_ifs <;> simp [hout, hstream, hvalue, hkind]

theorem kinded_read (hvoid : ty.isVoid = false) {input : Expr}
    (hinput : c.Kinded named checked input) (hstream : c.kindOf? input = some .reference) :
    c.Kinded named checked (read h ty input) := by
  rw [read, MarshalRule.ofType]
  cases hp : ty.primitive? with
  | some p =>
    have hfits : ty.Fits named checked := Ty.eq_ofPrimitive hp ▸ Ty.fits_ofPrimitive p
    simp [hinput, hstream, hfits]
  | none =>
    have href := Ty.isReference_of_primitive? hvoid hp
    simp only
    split_ifs
    · simp [hinput, hstream, href]
    · exact CodeContext.kinded_fromObject hvoid (by simp [hinput, hstream]) (by simp)
    · simp [hinput, hstream, href]
    · simp [hinput, hstream, href]

theorem kinded_broker (hc : c.Sees vars params result) : c.Kinded named checked broker := by
  simp [broker, kinded_ofSelf hc]

theorem kinded_copyObject (hc : c.Sees vars params result) {value : Expr}
    (hvalue : c.Kinded named checked value) (hkind : c.kindOf? value = some .reference) :
    c.Kinded named checked (copyObject value) := by
  simp [copyObject, hvalue, hkind, kinded_broker hc]

theorem kinded_copyObjects (hc : c.Sees vars params result) {values : Expr}
    (hvalues : c.Kinded named checked values) (hkind : c.kindOf? values = some .reference) :
    c.Kinded named checked (copyObjects values) := by
  simp [copyObjects, hvalues, hkind, kinded_broker hc]

omit [Known.AreFit named checked] in
theorem isKinded_idsMethod {unit : String} (hunit : (Ty.named unit).isReference = true)
    (ids : List String) : (idsMethod ids).IsKinded named checked unit := by
  refine Method.isKinded_ofBlock hunit fun c hc => ?_
  have hstring : Ty.string.isReference = true := Ty.isReference_named (by simp)
  simp [CodeContext.kinded_array hstring, CodeContext.allKinded_iff, hc.result]

end Marshalling

namespace Stub

open Marshalling

variable {h : Hierarchy} {unit interface : String} {m : RemoteOperation}

/-- The kinds of the variables of a stub's method. -/
structure PlaceKinds (c : CodeContext) (h : Hierarchy) (m : RemoteOperation) : Prop where
  input : c.kindOf? (.var input) = some .reference
  output : c.kindOf? (.var output) = some .reference
  applicationFailure : c.kindOf? (.var applicationFailure) = some .reference
  failureId : c.kindOf? (.var failureId) = some .reference
  remarshal : c.kindOf? (.var remarshal) = some .reference
  systemFailure : c.kindOf? (.var systemFailure) = some .reference
  servant : c.kindOf? (.var servant) = some .reference
  copies : copiesTogether h m = true → c.kindOf? (.var copies) = some .reference
  servantFailure : c.kindOf? (.var (servantFailure h m)) = some .reference
  failureCopy : c.kindOf? (.var (failureCopy h m)) = some .reference

theorem placeKinds (hc : c.Sees (Stub.vars h m) params result) : PlaceKinds c h m := by
  have hnamed : ∀ {i : Nat} {name className : String}, className ∈ Known.handledClasses →
      (Stub.vars h m)[i]? = some ⟨name, .named className⟩ →
      c.kindOf? (.var i) = some .reference := fun hclass hi =>
    (hc.kindOf?_var hi).trans (Ty.slotKind?_named hclass)
  have hlast : (Stub.vars h m)[servantFailure h m]? = some ⟨"t", .named Known.throwable⟩ ∧
      (Stub.vars h m)[failureCopy h m]? = some ⟨"tc", .named Known.throwable⟩ := by
    cases htogether : copiesTogether h m <;>
      simp [Stub.vars, failureCopy, servantFailure, htogether]
  exact {
    input := hnamed (by simp) rfl
    output := hnamed (by simp) rfl
    applicationFailure := hnamed (by simp) rfl
    failureId := (hc.kindOf?_var rfl).trans Ty.slotKind?_string
    remarshal := hnamed (by simp) rfl
    systemFailure := hnamed (by simp) rfl
    servant := hnamed (by simp) rfl
    copies := fun htogether =>
      (hc.kindOf?_var (v := ⟨"copies", Ty.object.arrayOf⟩)
        (by simp [Stub.vars, htogether, copies])).trans (Ty.slotKind?_arrayOf _)
    servantFailure := hnamed (by simp) hlast.1
    failureCopy := hnamed (by simp) hlast.2 }

/-- The call of the servant, with the arguments as they are passed. -/
def servantCall (h : Hierarchy) (interface : String) (m : RemoteOperation) : Expr :=
  .invoke .interface (.cast (.named interface)
    (.fieldOf Known.servantObject "servant" Known.object (.var servant))) interface
    (op m).name (op m).params (op m).result
    ((op m).params.zipIdx.map fun x => passedArg h m x.1 x.2)

variable [Known.AreFit named checked] (hc : c.Sees vars (op m).params (op m).result)
  (hm : m.exposed.HasKinds named checked)

include hc hm

omit [Known.AreFit named checked] in
theorem kinded_retry : ∀ s ∈ retry unit m, c.KindedStmt named checked s := by
  have hcall : FitsCall named checked .virtual (op m).params (op m).result := hm.call _
  refine CodeContext.kinded_retCall hc.result ?_ (by simp)
  simp [hc.kinded_this, hc.kindOf?_this, hc.map_forwardArgs, hcall]

variable (hp : PlaceKinds c h m)

include hp

theorem kinded_exchange : ∀ s ∈ exchange h m, c.KindedStmt named checked s := by
  simp only [exchange, List.cons_append, List.forall_mem_cons, List.forall_mem_append,
    List.forall_mem_map, Prod.forall]
  refine ⟨?_, fun ty i hi => ?_, ?_, ?_, by simp⟩
  · simp [wireExpr, kinded_ofSelf hc, hp.output]
  · have hty := List.mem_zipIdx_iff_getElem?.1 hi
    refine CodeContext.kindedStmt_eval.2 (kinded_write (hm.params ty (List.mem_of_getElem? hty))
      (by simp) hp.output (by simp) (hc.kindOf?_arg hty))
  · simp [kinded_ofSelf hc, hp.input, hp.output]
  · split
    · simp
    · rename_i hvoid
      have hvoid : (op m).result.isVoid = false := by simpa using hvoid
      rw [CodeContext.kindedStmt_ret_some, hc.result, kindOf?_read hvoid]
      exact ⟨kinded_read hvoid (by simp) hp.input, rfl, Ty.slotKind?_ne_none hvoid⟩

omit hc in
theorem kinded_readFailure : ∀ s ∈ readFailure h m, c.KindedStmt named checked s := by
  simp only [readFailure, List.forall_mem_append, List.forall_mem_map]
  refine ⟨⟨?_, fun failure hfailure => ?_⟩, ?_⟩
  · simp [hp.input, hp.failureId, hp.applicationFailure]
  · have href := hm.failures failure hfailure
    have hvoid := Ty.isVoid_of_isReference href
    simp [throwDeclared, kinded_read hvoid, kindOf?_read hvoid, hp.input, hp.failureId,
      Ty.slotKind?_of_isReference href]
  · simp [hp.failureId]

theorem kinded_remotePath : ∀ s ∈ remotePath h unit m, c.KindedStmt named checked s := by
  have hreadFailure : ∀ s ∈ readFailure h m, c.KindedStmt named checked s :=
    kinded_readFailure hm hp
  simp only [remotePath, List.forall_mem_singleton, CodeContext.kindedStmt_region,
    List.forall_mem_cons]
  exact ⟨⟨by simp [hp.input], kinded_exchange hc hm hp,
    ⟨⟨hp.applicationFailure, hreadFailure⟩, hp.remarshal, kinded_retry hc hm⟩,
    by simp [kinded_ofSelf hc, hp.input]⟩, by simp [hp.systemFailure], by simp⟩

/-! ### Within the program -/

omit hc hm hp in
theorem mem_copiedArgs {i : Nat} (hi : i ∈ copiedArgs h m) :
    ∃ ty, (op m).params[i]? = some ty ∧ h.needsCopy ty = true := by
  obtain ⟨⟨ty, j⟩, hj, rfl⟩ := List.mem_map.1 hi
  rw [List.mem_filter] at hj
  exact ⟨ty, List.mem_zipIdx_iff_getElem?.1 hj.1, hj.2⟩

omit [Known.AreFit named checked] hp in
theorem kindOf?_copied {i : Nat} (hi : i ∈ copiedArgs h m) :
    c.kindOf? (.arg i) = some .reference := by
  obtain ⟨ty, hty, hcopy⟩ := mem_copiedArgs hi
  rw [hc.kindOf?_arg hty]
  exact Ty.slotKind?_of_isReference
    (isReference_of_needsCopy (hm.params ty (List.mem_of_getElem? hty)) hcopy)

theorem kinded_copyArgs : ∀ s ∈ copyArgs h m, c.KindedStmt named checked s := by
  rw [copyArgs]
  split
  · rename_i htogether
    have hobjects : c.Kinded named checked (Expr.objectArray ((copiedArgs h m).map .arg)) := by
      rw [CodeContext.kinded_objectArray, CodeContext.allKinded_iff]
      exact ⟨List.forall_mem_map.2 fun i _ => CodeContext.kinded_arg i,
        List.forall_mem_map.2 fun i hi => kindOf?_copied hc hm hi⟩
    simp [kinded_copyObjects hc hobjects, hp.copies htogether]
  · simp

/-- The argument that the servant gets has the kind of the parameter. -/
theorem kinded_passedArg {ty : Ty} {i : Nat} (hi : (op m).params[i]? = some ty) :
    c.Kinded named checked (passedArg h m ty i) ∧
      c.kindOf? (passedArg h m ty i) = ty.slotKind? := by
  have hvoid := hm.params ty (List.mem_of_getElem? hi)
  rw [passedArg]
  split
  · exact ⟨CodeContext.kinded_arg i, hc.kindOf?_arg hi⟩
  · rename_i k hk
    have hcopied : i ∈ copiedArgs h m := by
      obtain ⟨hlt, heq, -⟩ := List.idxOf?_eq_some_iff.1 hk
      exact heq ▸ List.getElem_mem hlt
    have hcopy : ∀ e : Expr, c.Kinded named checked e → c.kindOf? e = some .reference →
        c.Kinded named checked (Expr.fromObject ty e) ∧
          c.kindOf? (Expr.fromObject ty e) = ty.slotKind? := fun e he hkind =>
      ⟨CodeContext.kinded_fromObject hvoid he hkind, CodeContext.kindOf?_fromObject hvoid hkind⟩
    split
    · rename_i htogether
      exact hcopy _ (by simp [hp.copies htogether]) (by simp)
    · exact hcopy _ (kinded_copyObject hc (by simp) (kindOf?_copied hc hm hcopied)) (by simp)

theorem kinded_servantCall (hinterface : (Ty.named interface).isReference = true) :
    c.Kinded named checked (servantCall h interface m) := by
  have hkinds : ((op m).params.zipIdx.map fun x => passedArg h m x.1 x.2).map c.kindOf? =
      (op m).params.map Ty.slotKind? := by
    rw [List.map_map]
    conv_rhs => rw [← List.zipIdx_map_fst 0 (op m).params, List.map_map]
    refine List.map_congr_left fun x hx => ?_
    exact (kinded_passedArg hc hm hp (List.mem_zipIdx_iff_getElem?.1 hx)).2
  have hargs : c.AllKinded named checked
      ((op m).params.zipIdx.map fun x => passedArg h m x.1 x.2) := by
    rw [CodeContext.allKinded_iff, List.forall_mem_map, Prod.forall]
    exact fun ty i hi => (kinded_passedArg hc hm hp (List.mem_zipIdx_iff_getElem?.1 hi)).1
  rw [servantCall, CodeContext.kinded_invoke]
  exact ⟨⟨by decide, by simp [hinterface, hp.servant],
    by simpa using Ty.slotKind?_of_isReference hinterface⟩, hargs, hkinds, hm.call _⟩

theorem kinded_callServant (hinterface : (Ty.named interface).isReference = true) :
    ∀ s ∈ callServant h interface m, c.KindedStmt named checked s := by
  have hcall : c.Kinded named checked (servantCall h interface m) :=
    kinded_servantCall hc hm hp hinterface
  simp only [callServant, List.forall_mem_append]
  refine ⟨kinded_copyArgs hc hm hp, ?_⟩
  cases hresult : !(op m).result.isVoid && h.needsCopy (op m).result with
  | false => exact CodeContext.kinded_retCall hc.result hcall rfl
  | true =>
    simp only [Bool.and_eq_true, Bool.not_eq_true'] at hresult
    have hkind : c.kindOf? (servantCall h interface m) = some .reference :=
      Ty.slotKind?_of_isReference (isReference_of_needsCopy hresult.1 hresult.2)
    refine CodeContext.kinded_retCall hc.result (CodeContext.kinded_fromObject hresult.1
      (kinded_copyObject hc hcall hkind) (by simp)) ?_
    rw [if_pos rfl, CodeContext.kindOf?_fromObject hresult.1 (by simp)]

theorem kinded_passFailure : ∀ s ∈ passFailure h m, c.KindedStmt named checked s := by
  simp only [passFailure, List.cons_append, List.forall_mem_cons, List.forall_mem_append,
    List.forall_mem_map]
  refine ⟨?_, fun failure hfailure => ?_, ?_, by simp⟩
  · simp [kinded_copyObject hc, hp.servantFailure, hp.failureCopy]
  · have href := hm.failures failure hfailure
    simp [hp.failureCopy, href, Ty.slotKind?_of_isReference href]
  · simp [hp.failureCopy]

theorem kinded_localPath (hinterface : (Ty.named interface).isReference = true) :
    ∀ s ∈ localPath h unit interface m, c.KindedStmt named checked s := by
  have hpass : ∀ s ∈ passFailure h m, c.KindedStmt named checked s := kinded_passFailure hc hm hp
  simp only [localPath, List.forall_mem_cons, CodeContext.kindedStmt_cond,
    CodeContext.kindedStmt_region]
  refine ⟨?_, ⟨by simp [hp.servant], kinded_retry hc hm, by simp⟩,
    ⟨kinded_callServant hc hm hp hinterface, ⟨⟨hp.servantFailure, hpass⟩, by simp⟩, ?_⟩, by simp⟩
  · simp [wireExpr, kinded_ofSelf hc, hp.servant]
  · simp [kinded_ofSelf hc, hp.servant]

/-! ### The class -/

omit hc hp in
theorem isKinded_method (hunit : (Ty.named unit).isReference = true)
    (hinterface : (Ty.named interface).isReference = true) :
    (method h unit interface m).IsKinded named checked unit := by
  refine Method.isKinded_of_body rfl hunit fun c hc => ?_
  have hp := placeKinds hc
  simp only [List.forall_mem_singleton, CodeContext.kindedStmt_cond]
  refine ⟨?_, kinded_remotePath hc hm hp, kinded_localPath hc hm hp hinterface⟩
  simp [hc.kinded_this, hc.kindOf?_this]

omit hc hm hp in
/-- The stub of an interface is kinded if its operations have the kinds that it expects. -/
theorem isKinded_blueprint {i : Interface} (hunit : (Ty.named (stubName i.name)).isReference = true)
    (hinterface : (Ty.named i.name).isReference = true) {methods : List RemoteOperation}
    (hmethods : ∀ m ∈ methods, m.exposed.HasKinds named checked) :
    (blueprint h i methods).IsKinded named checked := by
  simp only [Blueprint.IsKinded, blueprint, List.forall_mem_cons, List.forall_mem_map]
  exact ⟨Method.isKinded_constructorOf _ hunit, isKinded_idsMethod hunit _,
    fun m hm => isKinded_method (hmethods m hm) hunit hinterface⟩

end Stub

end ComponentViews
