import ComponentViews.Execution.Value
import Mathlib

/-!
# The store of objects

Objects are numbered in the order in which they are made, and a store is *sound* if no
slot belongs to a number that has not been given away yet. Everything that generated code
does to a store of which it knows nothing else makes a later one (`Heap.Extends`): numbers
are only added, and what the objects from before hold stays.

* `Heap.copied_copy`: a copy of a value consists of new objects of the same classes that
  hold the same, and is otherwise the value itself;
* `Heap.ids_copy`: the objects of a copy have consecutive numbers, so that no two of them
  are the same.
-/

namespace ComponentViews

namespace Value

mutual

/-- The numbers of the objects in a value, one for each mention. -/
def ids : Value → List Nat
  | .object o => [o.id]
  | .array items => idsAll items
  | _ => []

/-- The ids of the objects in a list of values. -/
def idsAll : List Value → List Nat
  | [] => []
  | v :: rest => ids v ++ idsAll rest

end

/-- Neither an object nor an array: a value that is its own copy. -/
def isPlain : Value → Bool
  | .object _ | .array _ => false
  | _ => true

@[simp] theorem idsAll_nil : idsAll [] = [] := by
  rw [idsAll]

@[simp] theorem idsAll_cons (v : Value) (rest : List Value) :
    idsAll (v :: rest) = ids v ++ idsAll rest := by
  rw [idsAll]

@[simp] theorem ids_object (o : ObjectRef) : ids (.object o) = [o.id] := by
  rw [ids]

@[simp] theorem ids_array (items : List Value) : ids (.array items) = idsAll items := by
  rw [ids]

theorem ids_of_isPlain {v : Value} (hv : v.isPlain = true) : v.ids = [] := by
  cases v <;> first | exact absurd hv Bool.false_ne_true | simp [ids]

/-- All objects in the value have numbers up to `n`. -/
def Within (n : Nat) (v : Value) : Prop := ∀ id ∈ v.ids, id ≤ n

/-- No id of an object in the list is larger than `n`. -/
def WithinAll (n : Nat) (vs : List Value) : Prop := ∀ id ∈ idsAll vs, id ≤ n

theorem Within.mono {n n' : Nat} {v : Value} (hv : v.Within n) (hn : n ≤ n') : v.Within n' :=
  fun id hid => (hv id hid).trans hn

theorem withinAll_cons {n : Nat} {v : Value} {vs : List Value} :
    WithinAll n (v :: vs) ↔ v.Within n ∧ WithinAll n vs := by
  simp only [WithinAll, Within, idsAll_cons, List.mem_append]
  exact ⟨fun h => ⟨fun id hid => h id (.inl hid), fun id hid => h id (.inr hid)⟩,
    fun h id hid => hid.elim (h.1 id) (h.2 id)⟩

theorem WithinAll.mono {n n' : Nat} {vs : List Value} (hvs : WithinAll n vs) (hn : n ≤ n') :
    WithinAll n' vs :=
  fun id hid => (hvs id hid).trans hn

end Value

namespace Heap

/-! ### Later stores -/

/-- What an object holds, by name. -/
def slotsOf (h : Heap) (id : Nat) : List (String × Value) :=
  (h.slots.filter (·.owner == id)).map fun s => (s.name, s.value)

/-- No slot belongs to an object that there is not. -/
def Sound (h : Heap) : Prop := ∀ s ∈ h.slots, s.owner ≤ h.lastId

/-- `h'` comes of `h` by making objects and filling their slots. -/
structure Extends (h h' : Heap) : Prop where
  lastId : h.lastId ≤ h'.lastId
  /-- Objects from before hold what they held. -/
  slotsOf : ∀ id ≤ h.lastId, h'.slotsOf id = h.slotsOf id
  sound : h.Sound → h'.Sound

variable {h h' h'' : Heap}

theorem Extends.refl (h : Heap) : h.Extends h := ⟨le_rfl, fun _ _ => rfl, id⟩

theorem Extends.trans (h₁ : h.Extends h') (h₂ : h'.Extends h'') : h.Extends h'' where
  lastId := h₁.lastId.trans h₂.lastId
  slotsOf id hid := (h₂.slotsOf id (hid.trans h₁.lastId)).trans (h₁.slotsOf id hid)
  sound hs := h₂.sound (h₁.sound hs)

theorem slotsOf_eq_nil (hs : h.Sound) {id : Nat} (hid : h.lastId < id) : h.slotsOf id = [] := by
  rw [Heap.slotsOf, List.filter_eq_nil_iff.2, List.map_nil]
  intro s hmem
  have := hs s hmem
  simp only [beq_iff_eq]
  omega

/-- The store with the number of one object more given away. -/
def next (h : Heap) : Heap := { h with lastId := h.lastId + 1 }

@[simp] theorem lastId_next : h.next.lastId = h.lastId + 1 := rfl

@[simp] theorem slotsOf_next (id : Nat) : h.next.slotsOf id = h.slotsOf id := rfl

theorem extends_next : h.Extends h.next where
  lastId := Nat.le_succ _
  slotsOf _ _ := rfl
  sound hs s hmem := (hs s hmem).trans (Nat.le_succ _)

/-- Filling a slot of an object leaves the other objects as they are. -/
theorem slotsOf_setSlot_of_ne {target : ObjectRef} {name : String} {value : Value} {id : Nat}
    (hid : id ≠ target.id) : (h.setSlot target name value).slotsOf id = h.slotsOf id := by
  rw [Heap.slotsOf, Heap.slotsOf, setSlot, List.filter_cons_of_neg (by simpa using Ne.symm hid),
    List.filter_filter]
  refine congrArg (List.map _) (List.filter_congr fun s _ => ?_)
  by_cases hs : s.owner = id
  · simp [hs, hid]
  · simp [hs]

theorem sound_setSlot {target : ObjectRef} {name : String} {value : Value} (hs : h.Sound)
    (htarget : target.id ≤ h.lastId) : (h.setSlot target name value).Sound := by
  intro s hmem
  rcases List.mem_cons.1 hmem with rfl | hmem
  · exact htarget
  · exact hs s (List.mem_of_mem_filter hmem)

/-- A slot is filled of an object that there was not before. -/
theorem Extends.setSlot (hh : h.Extends h') {target : ObjectRef} {name : String} {value : Value}
    (hnew : h.lastId < target.id) (hmade : target.id ≤ h'.lastId) :
    h.Extends (h'.setSlot target name value) where
  lastId := hh.lastId
  slotsOf id hid := (slotsOf_setSlot_of_ne (by omega)).trans (hh.slotsOf id hid)
  sound hs := sound_setSlot (hh.sound hs) hmade

/-- A new object whose slot is filled. -/
theorem extends_setSlot_next (h : Heap) (className name : String) (value : Value) :
    h.Extends (h.next.setSlot ⟨h.lastId + 1, className⟩ name value) :=
  extends_next.setSlot (Nat.lt_succ_self _) le_rfl

theorem slot?_setSlot (target : ObjectRef) (name : String) (value : Value) :
    (h.setSlot target name value).slot? target name = some value := by
  simp [slot?, setSlot]

/-- An object that there is not yet has no slot. -/
theorem slot?_eq_none (hs : h.Sound) {o : ObjectRef} (ho : h.lastId < o.id) (name : String) :
    h.slot? o name = none := by
  rw [slot?, Option.map_eq_none_iff, List.find?_eq_none]
  intro s hmem hname
  have := hs s hmem
  simp only [Bool.and_eq_true, beq_iff_eq] at hname
  omega

/-! ### Copies -/

mutual

/-- `w` is a copy in `h'` of the value `v` of `h`: new objects of the same classes that hold
    the same, item by item in arrays, and any other value itself. -/
inductive Copied (h h' : Heap) : Value → Value → Prop where
  | object {o new : ObjectRef} (fresh : h.lastId < new.id) (made : new.id ≤ h'.lastId)
      (className : new.className = o.className) (slots : h'.slotsOf new.id = h.slotsOf o.id) :
      Copied h h' (.object o) (.object new)
  | array {vs ws : List Value} (items : CopiedAll h h' vs ws) :
      Copied h h' (.array vs) (.array ws)
  | plain {v : Value} (isPlain : v.isPlain = true) : Copied h h' v v

/-- The values of a list have been copied one by one. -/
inductive CopiedAll (h h' : Heap) : List Value → List Value → Prop where
  | nil : CopiedAll h h' [] []
  | cons {v w : Value} {vs ws : List Value} (first : Copied h h' v w)
      (rest : CopiedAll h h' vs ws) : CopiedAll h h' (v :: vs) (w :: ws)

end

/-- The store after one object has been copied. -/
def copyObject (h : Heap) (o : ObjectRef) : Heap :=
  { h.next with
    slots := ((h.slots.filter (·.owner == o.id)).map fun s => { s with owner := h.lastId + 1 }) ++
      h.slots }

theorem copy_object (o : ObjectRef) :
    h.copy (.object o) = (.object ⟨h.lastId + 1, o.className⟩, h.copyObject o) := by
  rw [copy]
  rfl

theorem copy_array (items : List Value) :
    h.copy (.array items) = (.array (h.copyAll items).1, (h.copyAll items).2) := by
  rw [copy]

theorem copy_of_isPlain {v : Value} (hv : v.isPlain = true) : h.copy v = (v, h) := by
  cases v <;> first | exact absurd hv Bool.false_ne_true | simp [copy]

theorem copyAll_nil : h.copyAll [] = ([], h) := by
  rw [copyAll]

theorem copyAll_cons (v : Value) (rest : List Value) :
    h.copyAll (v :: rest) =
      ((h.copy v).1 :: ((h.copy v).2.copyAll rest).1, ((h.copy v).2.copyAll rest).2) := by
  rw [copyAll]

theorem slotsOf_copyObject (o : ObjectRef) (id : Nat) : (h.copyObject o).slotsOf id =
    (if id = h.lastId + 1 then h.slotsOf o.id else []) ++ h.slotsOf id := by
  have hfilter : ∀ slots : List Slot,
      (slots.map fun s => { s with owner := h.lastId + 1 }).filter (·.owner == id) =
        if id = h.lastId + 1 then slots.map fun s => { s with owner := h.lastId + 1 } else [] := by
    intro slots
    split
    · rename_i hid
      exact List.filter_eq_self.2 fun s hs => by
        obtain ⟨s', -, rfl⟩ := List.mem_map.1 hs
        simp [hid]
    · rename_i hid
      refine List.filter_eq_nil_iff.2 fun s hs => ?_
      obtain ⟨s', -, rfl⟩ := List.mem_map.1 hs
      simp [Ne.symm hid]
  simp only [Heap.slotsOf, copyObject, List.filter_append, List.map_append, hfilter]
  split <;> simp

theorem extends_copyObject (o : ObjectRef) : h.Extends (h.copyObject o) where
  lastId := Nat.le_succ _
  slotsOf id hid := by
    rw [slotsOf_copyObject, if_neg (by omega), List.nil_append]
  sound hs s hmem := by
    rcases List.mem_append.1 hmem with hmem | hmem
    · obtain ⟨s', -, rfl⟩ := List.mem_map.1 hmem
      exact le_rfl
    · exact (hs s hmem).trans (Nat.le_succ _)

mutual

theorem lastId_copy (h : Heap) : ∀ v : Value, (h.copy v).2.lastId = h.lastId + v.ids.length
  | .object o => by rw [copy_object, Value.ids_object]; rfl
  | .array items => by rw [copy_array, Value.ids_array, lastId_copyAll h items]
  | .void | .null | .bool _ | .int _ | .long _ | .float _ | .double _ | .string _ | .classOf _ => by
    rw [copy_of_isPlain rfl, Value.ids_of_isPlain rfl, List.length_nil, Nat.add_zero]

theorem lastId_copyAll (h : Heap) :
    ∀ vs : List Value, (h.copyAll vs).2.lastId = h.lastId + (Value.idsAll vs).length
  | [] => by rw [copyAll_nil, Value.idsAll_nil, List.length_nil, Nat.add_zero]
  | v :: rest => by
    rw [copyAll_cons, lastId_copyAll _ rest, lastId_copy h v, Value.idsAll_cons,
      List.length_append, Nat.add_assoc]

end

mutual

/-- The objects of a copy have consecutive numbers. -/
theorem ids_copy (h : Heap) :
    ∀ v : Value, (h.copy v).1.ids = List.range' (h.lastId + 1) v.ids.length
  | .object o => by rw [copy_object, Value.ids_object, Value.ids_object]; rfl
  | .array items => by rw [copy_array, Value.ids_array, Value.ids_array, idsAll_copyAll h items]
  | .void | .null | .bool _ | .int _ | .long _ | .float _ | .double _ | .string _ | .classOf _ => by
    rw [copy_of_isPlain rfl, Value.ids_of_isPlain rfl, List.length_nil, List.range'_zero]

theorem idsAll_copyAll (h : Heap) : ∀ vs : List Value,
    Value.idsAll (h.copyAll vs).1 = List.range' (h.lastId + 1) (Value.idsAll vs).length
  | [] => by rw [copyAll_nil, Value.idsAll_nil, List.length_nil, List.range'_zero]
  | v :: rest => by
    rw [copyAll_cons, Value.idsAll_cons, Value.idsAll_cons, ids_copy h v, idsAll_copyAll _ rest,
      lastId_copy h v, List.length_append, ← List.range'_append_1, Nat.add_right_comm]

end

mutual

theorem extends_copy (h : Heap) : ∀ v : Value, h.Extends (h.copy v).2
  | .object o => by rw [copy_object]; exact extends_copyObject o
  | .array items => by rw [copy_array]; exact extends_copyAll h items
  | .void | .null | .bool _ | .int _ | .long _ | .float _ | .double _ | .string _ | .classOf _ => by
    rw [copy_of_isPlain rfl]; exact .refl h

theorem extends_copyAll (h : Heap) : ∀ vs : List Value, h.Extends (h.copyAll vs).2
  | [] => by rw [copyAll_nil]; exact .refl h
  | v :: rest => by
    rw [copyAll_cons]
    exact (extends_copy h v).trans (extends_copyAll _ rest)

end

/-! ### What stays a copy -/

variable {g g' : Heap}

mutual

/-- A copy of a value that there was before is one of an earlier store too, and stays one in
    later stores. -/
theorem Copied.mono {v w : Value} (hgh : g.Extends h) (hh : h'.Extends h'')
    (hv : v.Within g.lastId) : Copied h h' v w → Copied g h'' v w
  | .object fresh made className slots => by
    refine .object (hgh.lastId.trans_lt fresh) (made.trans hh.lastId) className ?_
    rw [hh.slotsOf _ made, slots, hgh.slotsOf]
    exact hv _ (by simp)
  | .array items => .array (items.mono hgh hh fun id hid => hv id (by simpa using hid))
  | .plain isPlain => .plain isPlain

theorem CopiedAll.mono {vs ws : List Value} (hgh : g.Extends h) (hh : h'.Extends h'')
    (hvs : Value.WithinAll g.lastId vs) : CopiedAll h h' vs ws → CopiedAll g h'' vs ws
  | .nil => .nil
  | .cons first rest =>
    .cons (first.mono hgh hh (Value.withinAll_cons.1 hvs).1)
      (rest.mono hgh hh (Value.withinAll_cons.1 hvs).2)

end

mutual

/-- The copy of a value of a sound store is one. -/
theorem copied_copy (h : Heap) (hs : h.Sound) :
    ∀ v : Value, v.Within h.lastId → Copied h (h.copy v).2 v (h.copy v).1
  | .object o, hv => by
    rw [copy_object]
    refine .object (Nat.lt_succ_self _) le_rfl rfl ?_
    rw [slotsOf_copyObject, if_pos rfl, slotsOf_eq_nil hs (Nat.lt_succ_self _), List.append_nil]
  | .array items, hv => by
    rw [copy_array]
    exact .array (copiedAll_copyAll h hs items fun id hid => hv id (by simpa using hid))
  | .void, _ | .null, _ | .bool _, _ | .int _, _ | .long _, _ | .float _, _ | .double _, _
  | .string _, _ | .classOf _, _ => by
    rw [copy_of_isPlain rfl]; exact .plain rfl

theorem copiedAll_copyAll (h : Heap) (hs : h.Sound) : ∀ vs : List Value,
    Value.WithinAll h.lastId vs → CopiedAll h (h.copyAll vs).2 vs (h.copyAll vs).1
  | [], _ => by rw [copyAll_nil]; exact .nil
  | v :: rest, hvs => by
    obtain ⟨hv, hrest⟩ := Value.withinAll_cons.1 hvs
    have hext := extends_copy h v
    rw [copyAll_cons]
    -- The copy of the first is made before the others, and nothing changes it then.
    exact .cons ((copied_copy h hs v hv).mono (.refl h) (extends_copyAll _ rest) hv)
      ((copiedAll_copyAll _ (hext.sound hs) rest (hrest.mono hext.lastId)).mono hext (.refl _)
        hrest)

end

theorem within_copy (h : Heap) (v : Value) : (h.copy v).1.Within (h.copy v).2.lastId := by
  intro id hid
  rw [ids_copy, List.mem_range'_1] at hid
  rw [lastId_copy]
  omega

end Heap

end ComponentViews
