import ComponentViews.Proofs.Checks
import ComponentViews.Proofs.ClassFile.Reading
import ComponentViews.Verification.Pool

/-!
# Constant pools under construction

A pool is *sound* when its entries name entries of the kinds that they need, when its index
tells the truth, and when it is within its size. Adding a constant to a sound pool, where
that succeeds, gives a sound pool in which everything that was found before is still found
(`Extends`), and the constant is at the index that is answered. A sound pool passes
verification (`verify_eq_ok`), and what has been read of it does too.
-/

namespace ComponentViews

namespace Pool

/-! ### What an index stands for -/

/-- The name and descriptor at an index. -/
def nameAndType? (p : Pool) (i : UInt16) : Option (String × String) :=
  match p.get? i with
  | some (.nameAndType name descriptor) =>
    (p.utf8? name).bind fun name => (p.utf8? descriptor).map fun descriptor => (name, descriptor)
  | _ => none

/-- What is found in a pool is found in another at the same index. -/
def Extends (p q : Pool) : Prop := ∀ i c, p.get? i = some c → q.get? i = some c

/-- The name and type of an entry is there, and its descriptor is of the right form. -/
def Describes (p : Pool) (isValid : List Char → Bool) (i : UInt16) : Prop :=
  ∃ name descriptor, p.nameAndType? i = some (name, descriptor) ∧
    isValid descriptor.toList = true

/-- The entries that an entry names are there, and of the kinds that it needs. -/
def Links (p : Pool) : Constant → Prop
  | .classRef name | .string name => ∃ s, p.utf8? name = some s
  | .nameAndType name descriptor => (∃ s, p.utf8? name = some s) ∧ ∃ s, p.utf8? descriptor = some s
  | .fieldRef owner nat => (∃ s, p.className? owner = some s) ∧ p.Describes Descriptor.isField nat
  | .methodRef owner nat | .interfaceMethodRef owner nat =>
    (∃ s, p.className? owner = some s) ∧ p.Describes Descriptor.isMethod nat
  | _ => True

/-- A pool that passes verification. -/
structure Formed (p : Pool) : Prop where
  small : p.size ≤ maxSize
  laidOut : p.IsLaidOut
  links : ∀ c ∈ p.toList, p.Links c

/-- A pool to which constants can be added. Where it is not to pass verification, its
    descriptors may have any form. -/
structure Sound (p : Pool) (checked : Prop) : Prop where
  small : p.size ≤ maxSize
  laidOut : p.IsLaidOut
  links : checked → ∀ c ∈ p.toList, p.Links c
  index : ∀ c i, p.index[c]? = some i → p.get? i = some c

theorem Sound.formed {p : Pool} {checked : Prop} (hp : p.Sound checked) (hchecked : checked) :
    p.Formed :=
  ⟨hp.small, hp.laidOut, hp.links hchecked⟩

variable {p q r : Pool} {checked : Prop}

/-! ### Extensions -/

theorem Extends.refl (p : Pool) : p.Extends p := fun _ _ h => h

theorem Extends.trans (hpq : p.Extends q) (hqr : q.Extends r) : p.Extends r :=
  fun i c h => hqr i c (hpq i c h)

theorem utf8?_eq_some {i : UInt16} {s : String} :
    p.utf8? i = some s ↔ p.get? i = some (.utf8 s) := by
  rw [utf8?]
  split <;> simp_all

theorem className?_eq_some {i : UInt16} {s : String} :
    p.className? i = some s ↔ ∃ name, p.get? i = some (.classRef name) ∧ p.utf8? name = some s := by
  rw [className?]
  split <;> simp_all

theorem nameAndType?_eq_some {i : UInt16} {name descriptor : String} :
    p.nameAndType? i = some (name, descriptor) ↔
      ∃ n d, p.get? i = some (.nameAndType n d) ∧ p.utf8? n = some name ∧
        p.utf8? d = some descriptor := by
  rw [nameAndType?]
  split <;> simp_all [Option.bind_eq_some_iff]

theorem Extends.utf8? (h : p.Extends q) {i : UInt16} {s : String} (hi : p.utf8? i = some s) :
    q.utf8? i = some s :=
  utf8?_eq_some.2 (h _ _ (utf8?_eq_some.1 hi))

theorem Extends.className? (h : p.Extends q) {i : UInt16} {s : String}
    (hi : p.className? i = some s) : q.className? i = some s := by
  obtain ⟨name, hget, hname⟩ := className?_eq_some.1 hi
  exact className?_eq_some.2 ⟨name, h _ _ hget, h.utf8? hname⟩

theorem Extends.nameAndType? (h : p.Extends q) {i : UInt16} {nat : String × String}
    (hi : p.nameAndType? i = some nat) : q.nameAndType? i = some nat := by
  obtain ⟨n, d, hget, hn, hd⟩ := nameAndType?_eq_some.1 hi
  exact nameAndType?_eq_some.2 ⟨n, d, h _ _ hget, h.utf8? hn, h.utf8? hd⟩

theorem Extends.describes (h : p.Extends q) {isValid : List Char → Bool} {i : UInt16}
    (hi : p.Describes isValid i) : q.Describes isValid i := by
  obtain ⟨name, descriptor, hnat, hvalid⟩ := hi
  exact ⟨name, descriptor, h.nameAndType? hnat, hvalid⟩

theorem Extends.links (h : p.Extends q) {c : Constant} (hc : p.Links c) : q.Links c := by
  have htext : ∀ {i}, (∃ s, p.utf8? i = some s) → ∃ s, q.utf8? i = some s :=
    fun ⟨s, hs⟩ => ⟨s, h.utf8? hs⟩
  have hclass : ∀ {i}, (∃ s, p.className? i = some s) → ∃ s, q.className? i = some s :=
    fun ⟨s, hs⟩ => ⟨s, h.className? hs⟩
  cases c <;> simp only [Links] at hc ⊢
  case classRef | string => exact htext hc
  case nameAndType => exact ⟨htext hc.1, htext hc.2⟩
  case fieldRef | methodRef | interfaceMethodRef => exact ⟨hclass hc.1, h.describes hc.2⟩

/-! ### Adding an entry -/

/-- The index of an entry that is there. -/
theorem get?_ofNat {i : Nat} (hi : i + 1 < 65536) :
    p.get? (UInt16.ofNat (i + 1)) = p.entries[i]? := by
  have htoNat : (UInt16.ofNat (i + 1)).toNat = i + 1 := UInt16.toNat_ofNat_of_lt' hi
  have hne : UInt16.ofNat (i + 1) ≠ 0 := by
    intro h
    rw [h] at htoNat
    exact absurd htoNat (by simp)
  rw [get?, if_neg hne, htoNat, Nat.add_sub_cancel]

theorem sound_empty : ({} : Pool).Sound checked where
  small := Nat.zero_le _
  laidOut := ⟨[], List.not_mem_nil, rfl⟩
  links := fun _ c hc => absurd hc List.not_mem_nil
  index := fun c i h => by simp at h

/-- The slots of an entry. -/
def slotsFor (c : Constant) : List Constant := if c.isWide then [c, .unusable] else [c]

/-- A pool with a further entry. -/
def extended (p : Pool) (c : Constant) : Pool where
  entries := p.entries ++ (slotsFor c).toArray
  index := p.index.insert c (UInt16.ofNat (p.size + 1))

theorem size_extended (c : Constant) :
    (p.extended c).size = p.size + (if c.isWide then 2 else 1) := by
  simp only [extended, size, slotsFor, Array.size_append, List.size_toArray]
  split <;> rfl

theorem toList_extended (c : Constant) :
    (p.extended c).toList = p.toList ++ slotsFor c := by
  simp [extended, toList]

theorem extends_extended (c : Constant) : p.Extends (p.extended c) := by
  intro i d h
  rw [get?] at h ⊢
  split at h
  · cases h
  · rename_i hi
    rw [if_neg hi, extended, Array.getElem?_append_left (Array.getElem?_eq_some_iff.1 h).1]
    exact h

theorem get?_extended {c : Constant} (hsize : p.size + 1 < 65536) :
    (p.extended c).get? (UInt16.ofNat (p.size + 1)) = some c := by
  rw [get?_ofNat hsize, extended, size, Array.getElem?_append_right (Nat.le_refl _),
    Nat.sub_self, slotsFor]
  split <;> rfl

/-- An entry that is there is found. -/
theorem run_intern_of_some {c : Constant} {i : UInt16} (h : p.index[c]? = some i) :
    (intern c).run.run p = (.ok i, p) := by
  show intern c p = _
  simp only [intern, ExceptT.mk, h]

/-- One that is not is added where there is room. -/
theorem run_intern_of_none {c : Constant} (h : p.index[c]? = none) :
    (intern c).run.run p =
      if maxSize < p.size + (if c.isWide then 2 else 1) then (.error {}, p)
      else (.ok (UInt16.ofNat (p.size + 1)), p.extended c) := by
  have hentries : p.entries ++ (slotsFor c).toArray =
      if c.isWide then (p.entries.push c).push .unusable else p.entries.push c := by
    rw [slotsFor]
    split <;> rfl
  show intern c p = _
  simp only [intern, ExceptT.mk, h, extended, hentries]

theorem index_extended {c d : Constant} :
    (p.extended c).index[d]? =
      if c = d then some (UInt16.ofNat (p.size + 1)) else p.index[d]? := by
  simp [extended, Std.TreeMap.getElem?_insert]

/-- A constant that is not there is added where there is room. -/
theorem run_intern_of_room {c : Constant} (h : p.index[c]? = none) (hroom : p.size + 2 ≤ maxSize) :
    (intern c).run.run p = (.ok (UInt16.ofNat (p.size + 1)), p.extended c) := by
  rw [run_intern_of_none h, if_neg]
  split <;> omega

theorem sound_extended (hp : p.Sound checked) {c : Constant} (hc : c ≠ .unusable)
    (hlinks : checked → p.Links c)
    (hsize : p.size + (if c.isWide then 2 else 1) ≤ maxSize) : (p.extended c).Sound checked := by
  have hnew : p.size + 1 < 65536 := by
    rw [maxSize] at hsize
    split at hsize <;> omega
  constructor
  · rwa [size_extended]
  · obtain ⟨cs, hcs, hlayout⟩ := hp.laidOut
    refine ⟨cs ++ [c], by simp [hcs, Ne.symm hc], ?_⟩
    rw [toList_extended, hlayout, layout_append]
    simp [layout, slotsFor]
  · intro hchecked d hd
    rw [toList_extended, List.mem_append] at hd
    refine (extends_extended c).links ?_
    rcases hd with hd | hd
    · exact hp.links hchecked d hd
    · -- The second slot of a wide constant is of no use, and links to nothing.
      rw [slotsFor] at hd
      split at hd
      · rcases List.mem_pair.1 hd with rfl | rfl
        · exact hlinks hchecked
        · trivial
      · rw [List.mem_singleton.1 hd]
        exact hlinks hchecked
  · intro d i hd
    rw [index_extended] at hd
    split at hd
    · rename_i heq
      rw [← heq, ← Option.some.inj hd]
      exact get?_extended hnew
    · exact extends_extended c i d (hp.index d i hd)

/-! ### Steps that add -/

/-- Both steps of an addition succeed. -/
theorem run_bind_eq_ok {add : Add} {f : UInt16 → Add} {i : UInt16}
    (h : (add >>= f).run.run p = (.ok i, q)) :
    ∃ j r, add.run.run p = (.ok j, r) ∧ (f j).run.run r = (.ok i, q) := by
  simp only [ExceptT.run_bind, StateT.run_bind] at h
  cases hadd : add.run.run p with
  | mk result r =>
    cases result with
    | ok j =>
      rw [hadd] at h
      exact ⟨j, r, rfl, h⟩
    | error e =>
      rw [hadd] at h
      exact absurd (congrArg Prod.fst h) (by rintro ⟨⟩)

theorem spec_intern {c : Constant} {i : UInt16} (hp : p.Sound checked) (hc : c ≠ .unusable)
    (hlinks : checked → p.Links c) (hrun : (intern c).run.run p = (.ok i, q)) :
    q.Sound checked ∧ p.Extends q ∧ q.get? i = some c := by
  cases hindex : p.index[c]? with
  | some j =>
    rw [run_intern_of_some hindex, Prod.mk.injEq, Except.ok.injEq] at hrun
    obtain ⟨rfl, rfl⟩ := hrun
    exact ⟨hp, Extends.refl p, hp.index c j hindex⟩
  | none =>
    rw [run_intern_of_none hindex] at hrun
    by_cases hfull : maxSize < p.size + (if c.isWide then 2 else 1)
    · rw [if_pos hfull] at hrun
      exact absurd (congrArg Prod.fst hrun) (by rintro ⟨⟩)
    · rw [if_neg hfull, Prod.mk.injEq, Except.ok.injEq] at hrun
      obtain ⟨rfl, rfl⟩ := hrun
      have hroom := Nat.not_lt.1 hfull
      refine ⟨sound_extended hp hc hlinks hroom, extends_extended c, get?_extended ?_⟩
      rw [maxSize] at hroom
      split at hroom <;> omega

variable {i : UInt16}

theorem spec_addUtf8 {s : String} (hp : p.Sound checked)
    (hrun : (addUtf8 s).run.run p = (.ok i, q)) :
    q.Sound checked ∧ p.Extends q ∧ q.utf8? i = some s := by
  obtain ⟨hq, hext, hget⟩ := spec_intern (c := .utf8 s) hp (by simp) (fun _ => trivial) hrun
  exact ⟨hq, hext, utf8?_eq_some.2 hget⟩

theorem spec_addClass {name : String} (hp : p.Sound checked)
    (hrun : (addClass name).run.run p = (.ok i, q)) :
    q.Sound checked ∧ p.Extends q ∧ q.className? i = some (Dotted.slashed name) := by
  obtain ⟨j, r, htext, hrun⟩ := run_bind_eq_ok hrun
  obtain ⟨hr, hpr, hj⟩ := spec_addUtf8 hp htext
  obtain ⟨hq, hrq, hget⟩ := spec_intern (c := .classRef j) hr (by simp) (fun _ => ⟨_, hj⟩) hrun
  exact ⟨hq, hpr.trans hrq, className?_eq_some.2 ⟨j, hget, hrq.utf8? hj⟩⟩

/-- A class that is not there is added with its name where there is room for both. -/
theorem run_addClass_of_room {name : String}
    (hname : p.index[Constant.utf8 (Dotted.slashed name)]? = none)
    (hclass : p.index[Constant.classRef (UInt16.ofNat (p.size + 1))]? = none)
    (hroom : p.size + 3 ≤ maxSize) :
    (addClass name).run.run p = (.ok (UInt16.ofNat (p.size + 2)),
      (p.extended (.utf8 (Dotted.slashed name))).extended
        (.classRef (UInt16.ofNat (p.size + 1)))) := by
  have hsize : (p.extended (.utf8 (Dotted.slashed name))).size = p.size + 1 := size_extended _
  rw [addClass, addUtf8, ExceptT.run_bind, StateT.run_bind,
    run_intern_of_room hname (by omega)]
  refine (run_intern_of_room ?_ ?_).trans ?_
  · rw [index_extended, if_neg (by simp), hclass]
  · show (p.extended _).size + 2 ≤ maxSize
    omega
  · rw [hsize]

theorem spec_addString {s : String} (hp : p.Sound checked)
    (hrun : (addString s).run.run p = (.ok i, q)) :
    q.Sound checked ∧ p.Extends q ∧
      ∃ text, q.get? i = some (.string text) ∧ q.utf8? text = some s := by
  obtain ⟨j, r, htext, hrun⟩ := run_bind_eq_ok hrun
  obtain ⟨hr, hpr, hj⟩ := spec_addUtf8 hp htext
  obtain ⟨hq, hrq, hget⟩ := spec_intern (c := .string j) hr (by simp) (fun _ => ⟨_, hj⟩) hrun
  exact ⟨hq, hpr.trans hrq, j, hget, hrq.utf8? hj⟩

theorem spec_addNameAndType {name descriptor : String} (hp : p.Sound checked)
    (hrun : (addNameAndType name descriptor).run.run p = (.ok i, q)) :
    q.Sound checked ∧ p.Extends q ∧ q.nameAndType? i = some (name, descriptor) := by
  obtain ⟨j, r, hname, hrun⟩ := run_bind_eq_ok hrun
  obtain ⟨k, t, hdescriptor, hrun⟩ := run_bind_eq_ok hrun
  obtain ⟨hr, hpr, hj⟩ := spec_addUtf8 hp hname
  obtain ⟨ht, hrt, hk⟩ := spec_addUtf8 hr hdescriptor
  obtain ⟨hq, htq, hget⟩ := spec_intern (c := .nameAndType j k) ht (by simp)
    (fun _ => ⟨⟨_, hrt.utf8? hj⟩, ⟨_, hk⟩⟩) hrun
  exact ⟨hq, (hpr.trans hrt).trans htq, nameAndType?_eq_some.2
    ⟨j, k, hget, htq.utf8? (hrt.utf8? hj), htq.utf8? hk⟩⟩

/-- What an entry of a field or method stands for. -/
def HasMember (p : Pool) (make : UInt16 → UInt16 → Constant) (i : UInt16)
    (owner name descriptor : String) : Prop :=
  ∃ o nat, p.get? i = some (make o nat) ∧ p.className? o = some (Dotted.slashed owner) ∧
    p.nameAndType? nat = some (name, descriptor)

/-- Adding a member of a class; its entry needs a descriptor of the right form. -/
theorem spec_addMember {make : UInt16 → UInt16 → Constant} {isValid : List Char → Bool}
    {owner name descriptor : String} (hp : p.Sound checked)
    (hmake : ∀ o nat, make o nat ≠ .unusable)
    (hlinks : ∀ (r : Pool) (o nat : UInt16), (∃ s, r.className? o = some s) →
      r.Describes isValid nat → r.Links (make o nat))
    (hvalid : checked → isValid descriptor.toList = true)
    (hrun : (addMember make owner name descriptor).run.run p = (.ok i, q)) :
    q.Sound checked ∧ p.Extends q ∧ q.HasMember make i owner name descriptor := by
  obtain ⟨o, r, howner, hrun⟩ := run_bind_eq_ok hrun
  obtain ⟨nat, t, hnat, hrun⟩ := run_bind_eq_ok hrun
  obtain ⟨hr, hpr, ho⟩ := spec_addClass hp howner
  obtain ⟨ht, hrt, hnat⟩ := spec_addNameAndType hr hnat
  obtain ⟨hq, htq, hget⟩ := spec_intern ht (hmake o nat)
    (fun hchecked => hlinks t o nat ⟨_, hrt.className? ho⟩
      ⟨name, descriptor, hnat, hvalid hchecked⟩) hrun
  exact ⟨hq, (hpr.trans hrt).trans htq, o, nat, hget, htq.className? (hrt.className? ho),
    htq.nameAndType? hnat⟩

theorem spec_addField {owner name descriptor : String} (hp : p.Sound checked)
    (hvalid : checked → Descriptor.isField descriptor.toList = true)
    (hrun : (addField owner name descriptor).run.run p = (.ok i, q)) :
    q.Sound checked ∧ p.Extends q ∧ q.HasMember .fieldRef i owner name descriptor :=
  spec_addMember hp (by simp) (fun _ _ _ ho hnat => ⟨ho, hnat⟩) hvalid hrun

theorem spec_addMethod {owner name descriptor : String} (hp : p.Sound checked)
    (hvalid : checked → Descriptor.isMethod descriptor.toList = true)
    (hrun : (addMethod owner name descriptor).run.run p = (.ok i, q)) :
    q.Sound checked ∧ p.Extends q ∧ q.HasMember .methodRef i owner name descriptor :=
  spec_addMember hp (by simp) (fun _ _ _ ho hnat => ⟨ho, hnat⟩) hvalid hrun

theorem spec_addInterfaceMethod {owner name descriptor : String} (hp : p.Sound checked)
    (hvalid : checked → Descriptor.isMethod descriptor.toList = true)
    (hrun : (addInterfaceMethod owner name descriptor).run.run p = (.ok i, q)) :
    q.Sound checked ∧ p.Extends q ∧ q.HasMember .interfaceMethodRef i owner name descriptor :=
  spec_addMember hp (by simp) (fun _ _ _ ho hnat => ⟨ho, hnat⟩) hvalid hrun

/-! ### Verification -/

theorem verifySlots_layout {cs : List Constant} (hcs : .unusable ∉ cs) (afterWide : Bool)
    (n : Nat) :
    verifySlots afterWide ((layout cs).zipIdx n |>.map fun e => (UInt16.ofNat (e.2 + 1), e.1)) =
      .ok () := by
  induction cs generalizing afterWide n with
  | nil => rfl
  | cons c cs ih =>
    rw [List.mem_cons, not_or] at hcs
    rw [show layout (c :: cs) = (if c.isWide then [c, .unusable] else [c]) ++ layout cs from rfl]
    cases hwide : c.isWide with
    | true =>
      simp only [if_true, List.cons_append, List.nil_append, List.zipIdx_cons, List.map_cons,
        verifySlots, Ne.symm hcs.1, false_and, if_false, hwide]
      exact ih hcs.2 _ _
    | false =>
      simp only [Bool.false_eq_true, if_false, List.cons_append, List.nil_append,
        List.zipIdx_cons, List.map_cons, verifySlots, Ne.symm hcs.1, false_and]
      exact ih hcs.2 _ _

theorem expect_eq_ok {target : UInt16} {isKind : Constant → Bool} {c : Constant}
    (hget : p.get? target = some c) (hc : isKind c = true) : p.expect i target isKind = .ok () := by
  rw [expect, hget]
  exact if_pos hc

theorem verifyMember_eq_ok {owner nat : UInt16} {isField : Bool}
    (howner : ∃ s, p.className? owner = some s)
    (hnat : p.Describes (if isField then Descriptor.isField else Descriptor.isMethod) nat) :
    p.verifyMember i owner nat isField = .ok () := by
  obtain ⟨s, hs⟩ := howner
  obtain ⟨n, hget, -⟩ := className?_eq_some.1 hs
  obtain ⟨name, descriptor, hdescribes, hvalid⟩ := hnat
  obtain ⟨a, d, hgetNat, -, hd⟩ := nameAndType?_eq_some.1 hdescribes
  have hdescriptor : p.descriptorAt nat = descriptor := by
    rw [descriptorAt, hgetNat]
    simp only [hd, Option.getD_some]
  rw [verifyMember, expect_eq_ok hget rfl, expect_eq_ok hgetNat rfl, hdescriptor]
  simp only [bind, Except.bind, hvalid, if_true, pure, Except.pure]

theorem verifyEntry_eq_ok {c : Constant} (hc : p.Links c) : p.verifyEntry i c = .ok () := by
  cases c with
  | classRef name | string name =>
    obtain ⟨s, hs⟩ := hc
    exact expect_eq_ok (utf8?_eq_some.1 hs) rfl
  | nameAndType name descriptor =>
    obtain ⟨⟨s, hs⟩, ⟨t, ht⟩⟩ := hc
    rw [verifyEntry, expect_eq_ok (utf8?_eq_some.1 hs) rfl]
    exact expect_eq_ok (utf8?_eq_some.1 ht) rfl
  | fieldRef owner nat => exact verifyMember_eq_ok hc.1 hc.2
  | methodRef owner nat | interfaceMethodRef owner nat => exact verifyMember_eq_ok hc.1 hc.2
  | _ => rfl

/-- A sound pool passes verification. -/
theorem Formed.verify_eq_ok (hp : p.Formed) : p.verify = .ok () := by
  obtain ⟨cs, hcs, hlayout⟩ := hp.laidOut
  have hslots := verifySlots_layout hcs false 0
  rw [← hlayout] at hslots
  rw [verify, show verifySlots false p.indexed = .ok () from hslots]
  refine Except.forM_eq_ok.2 fun e he => ?_
  obtain ⟨⟨c, n⟩, hmem, rfl⟩ := List.mem_map.1 he
  exact verifyEntry_eq_ok (hp.links c (List.fst_mem_of_mem_zipIdx hmem))

/-! ### Pools that have been read -/

/-- The entries of a pool, without the index. -/
def unindexed (p : Pool) : Pool := .ofList p.toList

@[simp] theorem get?_unindexed (i : UInt16) : p.unindexed.get? i = p.get? i := rfl

theorem Formed.unindexed (hp : p.Formed) : p.unindexed.Formed where
  small := hp.small
  laidOut := hp.laidOut
  links := fun c hc => Extends.links (p := p) (fun _ _ h => h) (hp.links c hc)

end Pool

end ComponentViews
