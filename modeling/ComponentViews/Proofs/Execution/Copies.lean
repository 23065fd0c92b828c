import ComponentViews.Proofs.Execution.Heap

/-!
# Copies are isolated

A store that starts empty is used by *actions*: objects are made, slots are read and written,
values are made up and copied. An action mentions only objects that the store has handed out
before, and a *history* (`Heap.History`) keeps their numbers beside the store.

A number has been handed out exactly if there is an object of it, and no slot has anything to do
with another number (`Heap.History.Sound`). Each action keeps this, so that it holds of every
store that can be reached (`Heap.History.Reaches.sound`), and the numbers of a copy, which are
the next ones, are new. An action fills slots of the one object that it is on, so that an object
holds what it held until there is an action on it (`Heap.History.Reaches.slotsOf`).

* `Heap.isolated_copy`: a copy changes nothing that there was, its objects are new ones that
  hold what the originals hold, and what is done to the originals later is not seen in it, nor
  the other way round.

Copies are shallow. An object that only a slot refers to is not copied, and both slots refer to it
afterwards.
-/

namespace ComponentViews

theorem Value.ids_zero (ty : Ty) : (Value.zero ty).ids = [] := by
  refine Value.ids_of_isPlain ?_
  rw [Value.zero]
  split
  · rfl
  · cases Literal.zero ty <;> rfl

namespace Heap

variable {h h' : Heap}

/-! ### Objects that there are -/

/-- The store has an object of the number. -/
def Has (h : Heap) (id : Nat) : Prop := 0 < id ∧ id ≤ h.lastId

/-- The slot belongs to an object of the store, and refers to no other objects. -/
structure IsOwn (h : Heap) (s : Slot) : Prop where
  owner : h.Has s.owner
  value : ∀ id ∈ s.value.ids, h.Has id

/-- No slot has to do with an object that there is not. -/
def Closed (h : Heap) : Prop := ∀ s ∈ h.slots, h.IsOwn s

theorem Has.mono {id : Nat} (hid : h.Has id) (hle : h.lastId ≤ h'.lastId) : h'.Has id :=
  ⟨hid.1, hid.2.trans hle⟩

theorem IsOwn.mono {s : Slot} (hs : h.IsOwn s) (hle : h.lastId ≤ h'.lastId) : h'.IsOwn s :=
  ⟨hs.owner.mono hle, fun id hid => (hs.value id hid).mono hle⟩

theorem has_next_iff {id : Nat} : h.next.Has id ↔ h.Has id ∨ id = h.lastId + 1 := by
  simp only [Has, lastId_next]
  omega

/-- The objects after a copy are those from before and those of the copy. -/
theorem has_copy_iff {v : Value} {id : Nat} :
    (h.copy v).2.Has id ↔ h.Has id ∨ id ∈ (h.copy v).1.ids := by
  rw [Has, Has, ids_copy, lastId_copy, List.mem_range'_1]
  omega

theorem Closed.sound (hc : h.Closed) : h.Sound := fun s hs => (hc s hs).owner.2

theorem closed_empty : Closed {} := fun _ hs => nomatch hs

theorem Closed.next (hc : h.Closed) : h.next.Closed := fun s hs => (hc s hs).mono (Nat.le_succ _)

theorem Closed.setSlot (hc : h.Closed) {target : ObjectRef} {name : String} {value : Value}
    (htarget : h.Has target.id) (hvalue : ∀ id ∈ value.ids, h.Has id) :
    (h.setSlot target name value).Closed := by
  intro s hs
  rcases List.mem_cons.1 hs with rfl | hs
  · exact ⟨htarget, hvalue⟩
  · exact (hc s (List.mem_of_mem_filter hs)).mono le_rfl

/-- The slots of a copy refer to what those of the original refer to. -/
theorem Closed.copyObject (hc : h.Closed) (o : ObjectRef) : (h.copyObject o).Closed := by
  intro s hs
  rcases List.mem_append.1 hs with hs | hs
  · obtain ⟨s', hs', rfl⟩ := List.mem_map.1 hs
    have hold := hc s' (List.mem_of_mem_filter hs')
    exact ⟨⟨Nat.succ_pos _, le_rfl⟩, (hold.mono (Nat.le_succ _)).value⟩
  · exact (hc s hs).mono (Nat.le_succ _)

mutual

theorem Closed.copy {h : Heap} (hc : h.Closed) : ∀ v : Value, (h.copy v).2.Closed
  | .object o => by rw [copy_object]; exact hc.copyObject o
  | .array items => by rw [copy_array]; exact hc.copyAll items
  | .void | .null | .bool _ | .int _ | .long _ | .float _ | .double _ | .string _ | .classOf _ => by
    rw [copy_of_isPlain rfl]; exact hc

theorem Closed.copyAll {h : Heap} (hc : h.Closed) : ∀ vs : List Value, (h.copyAll vs).2.Closed
  | [] => by rw [copyAll_nil]; exact hc
  | v :: rest => by rw [copyAll_cons]; exact (hc.copy v).copyAll rest

end

/-! ### Slots -/

/-- A slot is found among those of its object. -/
theorem slot?_eq (o : ObjectRef) (name : String) :
    h.slot? o name = ((h.slotsOf o.id).find? (·.1 == name)).map (·.2) := by
  simp only [slot?, slotsOf, List.find?_map, List.find?_filter, Option.map_map, Function.comp_def,
    Bool.decide_and, Bool.decide_eq_true]

theorem mem_slots_of_slot? {o : ObjectRef} {name : String} {value : Value}
    (hslot : h.slot? o name = some value) : ∃ s ∈ h.slots, s.owner = o.id ∧ s.value = value := by
  obtain ⟨s, hfind, rfl⟩ := Option.map_eq_some_iff.1 hslot
  have hkey := List.find?_some hfind
  simp only [Bool.and_eq_true, beq_iff_eq] at hkey
  exact ⟨s, List.mem_of_find?_eq_some hfind, hkey.1, rfl⟩

theorem Closed.slot? (hc : h.Closed) {o : ObjectRef} {name : String} {value : Value}
    (hslot : h.slot? o name = some value) : h.Has o.id ∧ ∀ id ∈ value.ids, h.Has id := by
  obtain ⟨s, hs, howner, rfl⟩ := mem_slots_of_slot? hslot
  exact ⟨howner ▸ (hc s hs).owner, (hc s hs).value⟩

/-- The slots that there are stay as they are when a value is copied. -/
theorem slot?_copy (hc : h.Closed) (v : Value) {o : ObjectRef} {name : String} {value : Value}
    (hslot : h.slot? o name = some value) : (h.copy v).2.slot? o name = some value := by
  have howner : h.Has o.id := (hc.slot? hslot).1
  rw [slot?_eq] at hslot ⊢
  rw [(extends_copy h v).slotsOf o.id howner.2]
  exact hslot

/-! ### Values that are made up -/

/-- A value that is made up is a new object, or refers to none. -/
theorem fabricate_cases (h : Heap) (ty : Ty) :
    h.fabricate ty = (.object ⟨h.lastId + 1, ty.name⟩, h.next) ∨
      ∃ v : Value, v.ids = [] ∧ h.fabricate ty = (v, h) := by
  rw [fabricate]
  split
  · exact .inr ⟨.array [], by simp, rfl⟩
  · split
    · exact .inl rfl
    · exact .inr ⟨.zero ty, Value.ids_zero ty, rfl⟩

theorem has_fabricate_iff {ty : Ty} {id : Nat} :
    (h.fabricate ty).2.Has id ↔ h.Has id ∨ id ∈ (h.fabricate ty).1.ids := by
  obtain hmade | ⟨v, hids, hmade⟩ := h.fabricate_cases ty
  · rw [hmade, has_next_iff, Value.ids_object, List.mem_singleton]
  · rw [hmade, hids, List.mem_nil_iff, or_false]

theorem Closed.fabricate (hc : h.Closed) (ty : Ty) : (h.fabricate ty).2.Closed := by
  obtain hmade | ⟨v, -, hmade⟩ := h.fabricate_cases ty
  · rw [hmade]; exact hc.next
  · rw [hmade]; exact hc

theorem slotsOf_fabricate (ty : Ty) (id : Nat) :
    (h.fabricate ty).2.slotsOf id = h.slotsOf id := by
  obtain hmade | ⟨v, -, hmade⟩ := h.fabricate_cases ty
  · rw [hmade, slotsOf_next]
  · rw [hmade]

/-- A slot that is read is there, or is filled with a value that is made up. -/
theorem readSlot_cases (h : Heap) (target : ObjectRef) (name : String) (ty : Ty) :
    (∃ value, h.slot? target name = some value ∧ h.readSlot target name ty = (value, h)) ∨
      h.readSlot target name ty =
        ((h.fabricate ty).1, (h.fabricate ty).2.setSlot target name (h.fabricate ty).1) := by
  rw [readSlot]
  split
  · exact .inl ⟨_, ‹_›, rfl⟩
  · exact .inr rfl

/-! ### Actions -/

/-- What a store can be asked to do. -/
inductive Action where
  | allocate (className : String)
  /-- A slot that is not there yet is filled with a value of the type. -/
  | read (target : ObjectRef) (name : String) (ty : Ty)
  | write (target : ObjectRef) (name : String) (value : Value)
  | fabricate (ty : Ty)
  | copy (value : Value)

namespace Action

/-- What the store answers, and the store then. -/
def run (h : Heap) : Action → Value × Heap
  | .allocate className => (.object (h.allocate className).1, (h.allocate className).2)
  | .read target name ty => h.readSlot target name ty
  | .write target name value => (.void, h.setSlot target name value)
  | .fabricate ty => h.fabricate ty
  | .copy value => h.copy value

/-- The numbers of the objects that the action mentions, under whatever class. -/
def mentions : Action → List Nat
  | .allocate _ | .fabricate _ => []
  | .read target _ _ => [target.id]
  | .write target _ value => target.id :: value.ids
  | .copy value => value.ids

/-- The number of the object that the action is on, of which it may fill a slot. -/
def target? : Action → Option Nat
  | .read target _ _ | .write target _ _ => some target.id
  | .allocate _ | .fabricate _ | .copy _ => none

/-- The objects after an action are those from before and those of the answer. -/
theorem has_run_iff (hc : h.Closed) (a : Action) {id : Nat} :
    (a.run h).2.Has id ↔ h.Has id ∨ id ∈ (a.run h).1.ids := by
  cases a with
  | allocate className =>
    rw [run, Value.ids_object, List.mem_singleton]
    exact has_next_iff
  | read target name ty =>
    rw [run]
    obtain ⟨value, hslot, hread⟩ | hread := h.readSlot_cases target name ty
    · -- What is in a slot refers to objects that there are already.
      rw [hread]
      exact (or_iff_left_of_imp ((hc.slot? hslot).2 id)).symm
    · rw [hread]
      exact has_fabricate_iff
  | write target name value => exact (or_iff_left (by simp [run, Value.ids])).symm
  | fabricate ty => exact has_fabricate_iff
  | copy value => exact has_copy_iff

theorem closed_run (hc : h.Closed) {a : Action} (hknown : ∀ id ∈ a.mentions, h.Has id) :
    (a.run h).2.Closed := by
  cases a with
  | allocate className => exact hc.next
  | read target name ty =>
    rw [run]
    obtain ⟨value, -, hread⟩ | hread := h.readSlot_cases target name ty
    · rw [hread]
      exact hc
    · have htarget : h.Has target.id := hknown target.id (List.mem_singleton_self _)
      rw [hread]
      exact (hc.fabricate ty).setSlot (has_fabricate_iff.2 (.inl htarget))
        fun id hid => has_fabricate_iff.2 (.inr hid)
  | write target name value =>
    have htarget : h.Has target.id := hknown target.id List.mem_cons_self
    have hvalue : ∀ id ∈ value.ids, h.Has id :=
      fun id hid => hknown id (List.mem_cons_of_mem _ hid)
    exact hc.setSlot htarget hvalue
  | fabricate ty => exact hc.fabricate ty
  | copy value => exact hc.copy value

/-- An object that the action is not on holds what it held. -/
theorem slotsOf_run {a : Action} {id : Nat} (hid : h.Has id) (ha : a.target? ≠ some id) :
    (a.run h).2.slotsOf id = h.slotsOf id := by
  have hne : ∀ target : ObjectRef, a.target? = some target.id → id ≠ target.id :=
    fun target htarget heq => ha (heq ▸ htarget)
  cases a with
  | allocate className => rfl
  | read target name ty =>
    rw [run]
    obtain ⟨value, -, hread⟩ | hread := h.readSlot_cases target name ty
    · rw [hread]
    · rw [hread, slotsOf_setSlot_of_ne (hne target rfl), slotsOf_fabricate]
  | write target name value => exact slotsOf_setSlot_of_ne (hne target rfl)
  | fabricate ty => exact slotsOf_fabricate ty id
  | copy value => exact (extends_copy h value).slotsOf id hid.2

end Action

/-! ### Histories -/

/-- A store, and the numbers of the objects that it has handed out. -/
structure History where
  heap : Heap := {}
  given : List Nat := []

namespace History

variable {s t : History} {actions : List Action}

/-- What an action makes of a history: the objects of the answer have been handed out. -/
def after (s : History) (a : Action) : History where
  heap := (a.run s.heap).2
  given := s.given ++ (a.run s.heap).1.ids

/-- The actions lead from one history to the other, where each of them mentions only objects
    that have been handed out by then. -/
inductive Reaches : History → List Action → History → Prop where
  | nil (s : History) : Reaches s [] s
  | cons {s t : History} {a : Action} {rest : List Action} (known : ∀ id ∈ a.mentions, id ∈ s.given)
      (others : Reaches (s.after a) rest t) : Reaches s (a :: rest) t

/-- A number has been handed out exactly if there is an object of it. -/
structure Sound (s : History) : Prop where
  closed : s.heap.Closed
  mem_given_iff : ∀ id, id ∈ s.given ↔ s.heap.Has id

theorem sound_start : Sound {} :=
  ⟨closed_empty, fun _ => ⟨nofun, fun hid => absurd hid.2 (Nat.not_le.2 hid.1)⟩⟩

theorem Sound.after (hs : s.Sound) {a : Action} (hknown : ∀ id ∈ a.mentions, id ∈ s.given) :
    (s.after a).Sound where
  closed := Action.closed_run hs.closed fun id hid => (hs.mem_given_iff id).1 (hknown id hid)
  mem_given_iff id := by
    rw [History.after, List.mem_append, hs.mem_given_iff, ← Action.has_run_iff hs.closed]

theorem Sound.within (hs : s.Sound) {v : Value} (hv : ∀ id ∈ v.ids, id ∈ s.given) :
    v.Within s.heap.lastId :=
  fun id hid => ((hs.mem_given_iff id).1 (hv id hid)).2

/-- The numbers of a copy are behind all that have been handed out. -/
theorem Sound.notMem_given (hs : s.Sound) {v : Value} {id : Nat}
    (hid : id ∈ (s.heap.copy v).1.ids) : id ∉ s.given := by
  intro hgiven
  have hle := ((hs.mem_given_iff id).1 hgiven).2
  rw [ids_copy, List.mem_range'_1] at hid
  omega

namespace Reaches

theorem sound (hr : s.Reaches actions t) (hs : s.Sound) : t.Sound := by
  induction hr with
  | nil => exact hs
  | cons hknown _ ih => exact ih (hs.after hknown)

/-- What has been handed out stays so. -/
theorem subset (hr : s.Reaches actions t) : s.given ⊆ t.given := by
  induction hr with
  | nil => exact List.Subset.refl _
  | cons _ _ ih => exact fun id hid => ih (List.mem_append_left _ hid)

/-- An object holds what it held as long as there is no action on it. -/
theorem slotsOf (hr : s.Reaches actions t) (hs : s.Sound) {id : Nat} (hid : id ∈ s.given)
    (hactions : ∀ a ∈ actions, a.target? ≠ some id) : t.heap.slotsOf id = s.heap.slotsOf id := by
  induction hr with
  | nil => rfl
  | cons hknown _ ih =>
    rw [List.forall_mem_cons] at hactions
    exact (ih (hs.after hknown) (List.mem_append_left _ hid) hactions.2).trans
      (Action.slotsOf_run ((hs.mem_given_iff _).1 hid) hactions.1)

end Reaches

/-- From the history `s` to `s'`, the value `v` has been copied to `w`, and the two are apart. -/
structure Isolated (s : History) (v w : Value) (s' : History) : Prop where
  /-- Every slot that there was is as it was. -/
  slots : ∀ o name value, s.heap.slot? o name = some value → s'.heap.slot? o name = some value
  /-- Objects have become new ones of the same classes with the same slots, also in arrays, and
      all else is itself. -/
  copied : Copied s.heap s'.heap v w
  /-- The objects of the copy have never been handed out before. -/
  fresh : ∀ id ∈ w.ids, id ∉ s.given
  /-- Each mention of an object has a copy of its own. -/
  nodup : w.ids.Nodup
  /-- The numbers have 32 bits as long as there are no more objects than that. -/
  fits : s'.heap.lastId < 2 ^ 32 → ∀ id ∈ w.ids, id < 2 ^ 32
  /-- An action on an original is not one on a copy. -/
  apart : ∀ id ∈ v.ids, id ∉ w.ids
  /-- Whatever has been done since, an original or a copy holds what it holds until there is an
      action on itself. -/
  kept : ∀ {between later : List Action} {t u : History}, s'.Reaches between t →
    t.Reaches later u → ∀ id ∈ v.ids ++ w.ids, (∀ a ∈ later, a.target? ≠ some id) →
      u.heap.slotsOf id = t.heap.slotsOf id

end History

open History

/-- A value of objects that have been handed out is isolated from its copy. A number that has not
    been handed out yet could be one that the copies get. -/
theorem isolated_copy {s : History} {actions : List Action} (hs : Reaches {} actions s) {v : Value}
    (hv : ∀ id ∈ v.ids, id ∈ s.given) :
    Isolated s v (s.heap.copy v).1 (s.after (.copy v)) := by
  have hsound : s.Sound := hs.sound sound_start
  have hcopied : (s.after (.copy v)).Sound := hsound.after hv
  refine {
    slots := fun o name value hslot => slot?_copy hsound.closed v hslot
    copied := copied_copy s.heap hsound.closed.sound v (hsound.within hv)
    fresh := fun id hid => hsound.notMem_given hid
    nodup := ids_copy s.heap v ▸ List.nodup_range'
    fits := fun hlast id hid => (within_copy s.heap v id hid).trans_lt hlast
    apart := fun id hid hcopy => hsound.notMem_given hcopy (hv id hid)
    kept := ?_ }
  intro between later t u hbetween hlater id hid hactions
  -- The originals have been handed out before, and the copies with the answer.
  have hgiven : id ∈ (s.after (.copy v)).given := by
    rcases List.mem_append.1 hid with hid | hid
    · exact List.mem_append_left _ (hv id hid)
    · exact List.mem_append_right _ hid
  exact hlater.slotsOf (hbetween.sound hcopied) (hbetween.subset hgiven) hactions

/-- An order that refers to an item, and a copy of the order. -/
def ordering : List Action :=
  [.allocate "acme.Item", .write ⟨1, "acme.Item"⟩ "quantity" (.int 3), .allocate "acme.Order",
    .write ⟨2, "acme.Order"⟩ "item" (.object ⟨1, "acme.Item"⟩),
    .read ⟨2, "acme.Order"⟩ "owner" (.named "acme.Owner"), .copy (.object ⟨2, "acme.Order"⟩)]

/-- The copy of the order, and the item in an array of its own. -/
def parcel : Value :=
  .array [.object ⟨4, "acme.Order"⟩, .array [.object ⟨1, "acme.Item"⟩, .string "A-17"], .null]

theorem isolated_copy_parcel :
    let s := ordering.foldl History.after {}
    Reaches {} ordering s ∧ (∀ id ∈ parcel.ids, id ∈ s.given) ∧
      Isolated s parcel
        (.array [.object ⟨5, "acme.Order"⟩,
          .array [.object ⟨6, "acme.Item"⟩, .string "A-17"], .null])
        (s.after (.copy parcel)) := by
  intro s
  have hs : Reaches {} ordering s :=
    .cons (by decide) <| .cons (by decide) <| .cons (by decide) <| .cons (by decide) <|
      .cons (by decide) <| .cons (by decide) <| .nil s
  have hparcel : ∀ id ∈ parcel.ids, id ∈ s.given := by decide
  exact ⟨hs, hparcel, isolated_copy hs hparcel⟩

/-- The item changes, and its copy does not. -/
example : ((ordering ++ [Action.copy parcel, .write ⟨1, "acme.Item"⟩ "quantity" (.int 9)]).foldl
    History.after {}).heap.slotsOf 6 = [("quantity", .int 3)] := rfl

end Heap

end ComponentViews
