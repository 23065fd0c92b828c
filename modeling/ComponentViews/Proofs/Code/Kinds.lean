import ComponentViews.Proofs.Code.Typing
import ComponentViews.Proofs.Descriptor
import ComponentViews.Synthesis.Container
import ComponentViews.Synthesis.Parts

/-!
# Kinds of values

The kinds of the types that generated code names, and of the expressions that it is made of:
the kind of a call is that of its result, a value becomes an object or is taken out of one.
Besides its kind, what counts of a type is whether it can stand in the descriptor of a signature
(`FitsCall`).
-/

namespace ComponentViews

/-- The classes whose instances generated code handles whatever the request is. -/
abbrev Known.handledClasses : List String :=
  [object, string, classClass, serializable, remote, throwable, exception, runtimeException,
    remoteException, unexpectedException, ejbException, collection, enumeration, future, method,
    timer, ejbObject, ejbLocalObject, container, wrapperBase, remoteWrapper, localWrapper,
    businessLocalWrapper, deployedSupport, beanContext, entityBeanContext,
    createFailureException, beanId, messageEndpointBase, protocolStub, inputStream,
    outputStream, portableInputStream, portableOutputStream, responseHandler,
    applicationException, remarshalException, servantObject, systemException, badOperation,
    unknownException, corbaObject, orb]

/-! ### Kinds of types -/

namespace Ty

theorem slotKind?_of_isReference {ty : Ty} (h : ty.isReference = true) :
    ty.slotKind? = some .reference :=
  isReference_iff.1 h

theorem slotKind?_ne_none {ty : Ty} (h : ty.isVoid = false) : ty.slotKind? ≠ none := by
  obtain ⟨kind, hkind⟩ := exists_slotKind? h
  simp [hkind]

theorem isVoid_of_isReference {ty : Ty} (h : ty.isReference = true) : ty.isVoid = false := by
  rw [isReference, Bool.and_eq_true] at h
  simpa using h.1

theorem isNamed_iff {ty : Ty} {name : String} : ty.isNamed name = true ↔ ty = Ty.named name := by
  cases ty
  simp [isNamed, Ty.named, and_comm]

/-- The kind of a type that has values. -/
theorem slotKind?_eq {ty : Ty} (h : ty.isVoid = false) : ty.slotKind? =
    match ty.primitive? with
    | some p => (ofPrimitive p).slotKind?
    | none => some .reference := by
  rw [slotKind?, h]
  cases hp : ty.primitive? with
  | none => rfl
  | some p => cases p <;> decide

@[simp] theorem isReference_named {name : String} (h : name ∈ Known.handledClasses) :
    (Ty.named name).isReference = true := by
  have hall : ∀ name ∈ Known.handledClasses, (Ty.named name).isReference = true := by
    decide
  exact hall name h

@[simp] theorem slotKind?_named {name : String} (h : name ∈ Known.handledClasses) :
    (Ty.named name).slotKind? = some .reference :=
  slotKind?_of_isReference (isReference_named h)

@[simp] theorem slotKind?_object : object.slotKind? = some .reference := slotKind?_named (by simp)

@[simp] theorem slotKind?_string : string.slotKind? = some .reference := slotKind?_named (by simp)

@[simp] theorem slotKind?_objects : Hook.objects.slotKind? = some .reference :=
  slotKind?_arrayOf _

@[simp] theorem slotKind?_int : int.slotKind? = some .int := by decide

@[simp] theorem slotKind?_boolean : boolean.slotKind? = some .int := by decide

@[simp] theorem slotKind?_byte : (ofPrimitive .byte).slotKind? = some .int := by decide

theorem slotKind?_boxClass (p : Primitive) :
    (Ty.named p.boxClass).slotKind? = some .reference := by
  cases p <;> decide

/-- A class whose name has a character that no keyword has. -/
theorem isReference_of_mem {name : String} {c : Char} (hc : c ∈ name.toList)
    (hlower : c.isLower = false) : (Ty.named name).isReference = true := by
  have hne : ∀ keyword : String, keyword.toList.all (·.isLower) = true → name ≠ keyword := by
    rintro _ hall rfl
    rw [List.all_eq_true.1 hall c hc] at hlower
    cases hlower
  have hvoid := hne "void" (by decide)
  cases hp : Primitive.ofName? name with
  | some p =>
    exact absurd (Primitive.name_of_ofName?_eq_some hp).symm (hne _ (by cases p <;> decide))
  | none => simp [isReference, isVoid, primitive?, Ty.named, hvoid, hp]

end Ty

variable {named checked : Prop}

/-! ### Types in descriptors -/

/-- The type has values, and can stand in a descriptor, where that matters. -/
structure Ty.Fits (named checked : Prop) (ty : Ty) : Prop where
  value : ty.isVoid = false
  legible : named → ';' ∉ ty.name.toList
  writable : checked → ty.IsWritable

/-- The classes that generated code handles can stand in descriptors, where that matters. -/
class Known.AreFit (named checked : Prop) : Prop where
  fits : ∀ name ∈ handledClasses, (Ty.named name).Fits named checked

namespace Ty

theorem fits_false {ty : Ty} (h : ty.isVoid = false) : ty.Fits False False :=
  ⟨h, False.elim, False.elim⟩

instance : Known.AreFit False False :=
  ⟨fun _ hname => fits_false (isVoid_of_isReference (isReference_named hname))⟩

@[simp] theorem fits_ofPrimitive (p : Primitive) : (ofPrimitive p).Fits named checked where
  value := by cases p <;> decide
  legible _ := by cases p <;> decide
  writable _ := isWritable_of_ofName? p.ofName?_name

@[simp] theorem fits_int : int.Fits named checked := fits_ofPrimitive .int

@[simp] theorem fits_boolean : boolean.Fits named checked := fits_ofPrimitive .boolean

@[simp] theorem fits_named [Known.AreFit named checked] {name : String}
    (h : name ∈ Known.handledClasses) : (Ty.named name).Fits named checked :=
  Known.AreFit.fits name h

@[simp] theorem fits_object [Known.AreFit named checked] : object.Fits named checked :=
  fits_named (by simp)

@[simp] theorem fits_string [Known.AreFit named checked] : string.Fits named checked :=
  fits_named (by simp)

theorem fits_arrayOf {ty : Ty} (h : ty.Fits named checked) : ty.arrayOf.Fits named checked := by
  refine ⟨by simp [isVoid, arrayOf], h.legible, fun hchecked => ?_⟩
  have hwritable := h.writable hchecked
  rw [IsWritable, Descriptor.isField, descriptor, String.toList_ofList,
    Descriptor.afterField?_replicate] at hwritable ⊢
  exact hwritable

@[simp] theorem fits_objectArray [Known.AreFit named checked] :
    object.arrayOf.Fits named checked :=
  fits_arrayOf fits_object

@[simp] theorem fits_objects [Known.AreFit named checked] : Hook.objects.Fits named checked :=
  fits_objectArray

end Ty

/-! ### Signatures -/

/-- The parameters of a signature have values; its types can be told from its descriptor, and the
    descriptor can be written, where that matters. -/
structure FitsCall (named checked : Prop) (kind : CallKind) (params : List Ty) (result : Ty) :
    Prop where
  values : ∀ ty ∈ params, ty.isVoid = false
  legible : named → AreLegible params
  writable : checked → Descriptor.isMethod (methodDescriptor params result).toList = true
  slots : checked → kind = .interface → slotsOf params ≤ 254

theorem slotsOf_le (params : List Ty) : slotsOf params ≤ 2 * params.length := by
  induction params with
  | nil => exact Nat.le_refl 0
  | cons ty params ih =>
    have := ty.slots_le_two
    rw [slotsOf, List.length_cons]
    omega

@[simp] theorem fitsCall_of_forall {kind : CallKind} {params : List Ty} {result : Ty}
    (hparams : ∀ ty ∈ params, ty.Fits named checked)
    (hresult : result = .void ∨ result.Fits named checked) (hlength : params.length ≤ 127) :
    FitsCall named checked kind params result where
  values ty hty := (hparams ty hty).value
  legible hnamed ty hty := (hparams ty hty).legible hnamed
  writable hchecked := isMethod_methodDescriptor (fun ty hty => (hparams ty hty).writable hchecked)
    (hresult.imp id fun hfits => hfits.writable hchecked)
  slots _ _ := Nat.le_trans (slotsOf_le params) (by omega)

namespace CodeContext

variable {c : CodeContext}

/-! ### Kinds -/

@[simp] theorem kindOf?_null : c.kindOf? .null = some .reference := Ty.slotKind?_object

@[simp] theorem kindOf?_int (n : Int32) : c.kindOf? (.int n) = some .int := Ty.slotKind?_int

@[simp] theorem kindOf?_bool (b : Bool) : c.kindOf? (.bool b) = some .int := Ty.slotKind?_boolean

@[simp] theorem kindOf?_string (s : String) : c.kindOf? (.string s) = some .reference :=
  Ty.slotKind?_string

/-- What a variable starts with is of its kind. -/
theorem kindOf?_zero {ty : Ty} (h : ty.isVoid = false) : c.kindOf? (.zero ty) = ty.slotKind? := by
  rw [kindOf?, typeOf, Expr.zero, Literal.zero, ty.slotKind?_eq h]
  cases hp : ty.primitive? with
  | none => exact Ty.slotKind?_object
  | some p => cases p <;> rfl

@[simp] theorem kindOf?_field (f : FieldRef) (target : Expr) :
    c.kindOf? (.field f target) = f.type.slotKind? :=
  rfl

@[simp] theorem kindOf?_fieldOf (owner name className : String) (target : Expr) :
    c.kindOf? (.fieldOf owner name className target) = (Ty.named className).slotKind? :=
  rfl

@[simp] theorem kindOf?_new (className : String) (params : List Ty) (args : List Expr) :
    c.kindOf? (.new className params args) = (Ty.named className).slotKind? :=
  rfl

@[simp] theorem kindOf?_array (element : Ty) (items : List Expr) :
    c.kindOf? (.array element items) = some .reference :=
  Ty.slotKind?_arrayOf element

@[simp] theorem kindOf?_objectArray (items : List Expr) :
    c.kindOf? (Expr.objectArray items) = some .reference :=
  kindOf?_array _ _

@[simp] theorem kindOf?_boxedArgs (params : List Ty) :
    c.kindOf? (Expr.boxedArgs params) = some .reference :=
  kindOf?_array _ _

@[simp] theorem kindOf?_item (array : Expr) (i : Int32) :
    c.kindOf? (.item array i) = some .reference :=
  Ty.slotKind?_object

@[simp] theorem kindOf?_classOf (ty : Ty) : c.kindOf? (.classOf ty) = some .reference :=
  Ty.slotKind?_named (by simp)

@[simp] theorem kindOf?_unbox (p : Primitive) (e : Expr) :
    c.kindOf? (.unbox p e) = (Ty.ofPrimitive p).slotKind? :=
  rfl

@[simp] theorem kindOf?_cast (ty : Ty) (e : Expr) : c.kindOf? (.cast ty e) = ty.slotKind? :=
  rfl

@[simp] theorem kindOf?_invoke (kind : CallKind) (receiver : Expr) (owner name : String)
    (params : List Ty) (result : Ty) (args : List Expr) :
    c.kindOf? (.invoke kind receiver owner name params result args) = result.slotKind? :=
  rfl

@[simp] theorem kindOf?_invokeStatic (owner name : String) (params : List Ty) (result : Ty)
    (args : List Expr) :
    c.kindOf? (.invokeStatic owner name params result args) = result.slotKind? :=
  rfl

@[simp] theorem kindOf?_hook (hook : Hook) (receiver : Expr) (args : List Expr) :
    c.kindOf? (hook.invoke receiver args) = hook.result.slotKind? :=
  rfl

@[simp] theorem kindOf?_hookInherited (hook : Hook) (args : List Expr) :
    c.kindOf? (hook.invokeInherited args) = hook.result.slotKind? :=
  rfl

/-- Values become objects, unless they are objects already. -/
theorem kindOf?_box {e : Expr} (h : (c.typeOf e).isVoid = false) :
    c.kindOf? (.box e) = some .reference := by
  rw [typeOf] at h
  rw [kindOf?, typeOf, Method.typeOf]
  split
  · exact Ty.slotKind?_boxClass _
  · rename_i hp
    exact Ty.slotKind?_of_isReference (by simp [Ty.isReference, h, hp])

theorem kindOf?_fromObject {ty : Ty} {e : Expr} (h : ty.isVoid = false)
    (he : c.kindOf? e = some .reference) : c.kindOf? (Expr.fromObject ty e) = ty.slotKind? := by
  rw [Expr.fromObject]
  split
  · rename_i p hp
    rw [kindOf?_unbox, Ty.slotKind?_eq h, hp]
  · rename_i hp
    split
    · rw [he, Ty.slotKind?_eq h, hp]
    · rfl

end CodeContext

end ComponentViews
