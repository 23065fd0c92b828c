import ComponentViews.Proofs.ClassFile.Pool

/-!
# Runs of additions to a constant pool

`Pool.Item` is what can be added to a pool: a constant with the texts that it stands for. Items
are added in any order and number, and an addition that finds no room may leave some of its
parts behind. In every pool that comes of this, the index and the entries say the same
(`Pool.Ordered`), whatever has failed before. So an index that has been answered stands for its
item from then on (`Pool.StandsFor`): the item is read from there, it is found there when it is
added again, and a different one is somewhere else (`Pool.standsFor_ofItems`).

One addition is a chain of entries, each of which names only what is there already, and any of
which may find no room. `Pool.Keeps.bind` follows the chain up to where it breaks off.
-/

namespace ComponentViews

/-- The entries that an entry names, with the kinds that they must have. -/
def Constant.references : Constant → List (UInt16 × (Constant → Bool))
  | classRef name | string name => [(name, isUtf8)]
  | nameAndType name descriptor => [(name, isUtf8), (descriptor, isUtf8)]
  | fieldRef owner nat | methodRef owner nat | interfaceMethodRef owner nat =>
    [(owner, isClass), (nat, isNameAndType)]
  | _ => []

namespace Pool

/-! ### Items -/

/-- Something to be added to a pool. Floating-point numbers are given by their bits. -/
inductive Item where
  | utf8 (s : String)
  | integer (n : Int32)
  | float (bits : UInt32)
  | long (n : Int64)
  | double (bits : UInt64)
  | classRef (name : String)
  | string (s : String)
  | nameAndType (name descriptor : String)
  | field (owner name descriptor : String)
  | method (owner name descriptor : String)
  | interfaceMethod (owner name descriptor : String)
deriving DecidableEq, Repr

namespace Item

/-- The addition to a pool that an item stands for. -/
def add : Item → Add
  | utf8 s => addUtf8 s
  | integer n => addInteger n
  | float bits => addFloat bits
  | long n => addLong n
  | double bits => addDouble bits
  | classRef name => addClass name
  | string s => addString s
  | nameAndType name descriptor => addNameAndType name descriptor
  | field owner name descriptor => addField owner name descriptor
  | method owner name descriptor => addMethod owner name descriptor
  | interfaceMethod owner name descriptor => addInterfaceMethod owner name descriptor

/-- An item with its class named as in class files. -/
def normal : Item → Item
  | classRef name => classRef (Dotted.slashed name)
  | field owner name descriptor => field (Dotted.slashed owner) name descriptor
  | method owner name descriptor => method (Dotted.slashed owner) name descriptor
  | interfaceMethod owner name descriptor =>
    interfaceMethod (Dotted.slashed owner) name descriptor
  | item => item

end Item

/-- The pool after additions, of which any may fail. -/
def after (p : Pool) (items : List Item) : Pool :=
  items.foldl (fun p item => (item.add.run.run p).2) p

/-- The pool that additions make up. -/
def ofItems (items : List Item) : Pool := ({} : Pool).after items

/-- The member that an entry with these references stands for. -/
def resolveMember? (p : Pool) (make : String → String → String → Item) (owner nat : UInt16) :
    Option Item :=
  (p.className? owner).bind fun owner => (p.nameAndType? nat).map fun (name, descriptor) =>
    make owner name descriptor

/-- The item that an index stands for. -/
def resolve? (p : Pool) (i : UInt16) : Option Item :=
  match p.get? i with
  | some (.utf8 s) => some (.utf8 s)
  | some (.integer n) => some (.integer n.toInt32)
  | some (.float bits) => some (.float bits)
  | some (.long n) => some (.long n.toInt64)
  | some (.double bits) => some (.double bits)
  | some (.classRef name) => (p.utf8? name).map .classRef
  | some (.string text) => (p.utf8? text).map .string
  | some (.nameAndType _ _) =>
    (p.nameAndType? i).map fun (name, descriptor) => .nameAndType name descriptor
  | some (.fieldRef owner nat) => p.resolveMember? .field owner nat
  | some (.methodRef owner nat) => p.resolveMember? .method owner nat
  | some (.interfaceMethodRef owner nat) => p.resolveMember? .interfaceMethod owner nat
  | some .unusable | none => none

/-- An index stands for an item, whatever is added: it is answered for the same item again, of
    which nothing more is added, and for no other. -/
def StandsFor (p : Pool) (i : UInt16) (item : Item) : Prop :=
  ∀ later, (p.after later).resolve? i = some item.normal ∧
    ∀ other : Item,
      if other.normal = item.normal then
        other.add.run.run (p.after later) = (.ok i, p.after later)
      else (other.add.run.run (p.after later)).1 ≠ .ok i

/-- The entries that a constant names are there, below an index. -/
def RefersBelow (p : Pool) (i : UInt16) (c : Constant) : Prop :=
  ∀ r ∈ c.references, r.1 < i ∧ ∃ k, p.get? r.1 = some k ∧ r.2 k = true

/-- A pool between additions, whether they have succeeded or not. -/
structure Ordered (p : Pool) : Prop where
  small : p.size ≤ maxSize
  laidOut : p.IsLaidOut
  /-- The index has every entry, and no other. -/
  index : ∀ c i, p.index[c]? = some i ↔ p.get? i = some c ∧ c ≠ .unusable
  refers : ∀ i c, p.get? i = some c → p.RefersBelow i c

variable {p q : Pool} {i j : UInt16} {c d : Constant}

/-! ### Indices -/

theorem get?_eq_some_iff : p.get? i = some c ↔ i ≠ 0 ∧ p.entries[i.toNat - 1]? = some c := by
  rw [get?]
  split
  · simp_all
  · simp_all

/-- Every entry is below the index of the next. -/
theorem lt_of_get? (hsize : p.size + 1 < 65536) (h : p.get? i = some c) :
    i < UInt16.ofNat (p.size + 1) := by
  obtain ⟨hi, hget⟩ := get?_eq_some_iff.1 h
  have hlt : i.toNat - 1 < p.size := (Array.getElem?_eq_some_iff.1 hget).1
  rw [UInt16.lt_iff_toNat_lt, UInt16.toNat_ofNat_of_lt' hsize]
  omega

/-- What is found in a pool with a further entry. -/
theorem cases_of_get?_extended (h : (p.extended c).get? i = some d) :
    p.get? i = some d ∨ (i = UInt16.ofNat (p.size + 1) ∧ d = c) ∨ d = .unusable := by
  obtain ⟨hi, hget⟩ := get?_eq_some_iff.1 h
  have hpos : i.toNat ≠ 0 := fun h0 => hi (UInt16.toNat_inj.1 h0)
  rw [extended, Array.getElem?_append] at hget
  split at hget
  · exact .inl (get?_eq_some_iff.2 ⟨hi, hget⟩)
  rename_i hge
  rw [List.getElem?_toArray] at hget
  by_cases hfirst : i.toNat - 1 - p.entries.size = 0
  · rw [hfirst] at hget
    have hd : d = c := by
      rw [slotsFor] at hget
      split at hget <;> exact (Option.some.inj hget).symm
    refine .inr (.inl ⟨UInt16.toNat_inj.1 ?_, hd⟩)
    have hi' : i.toNat = p.size + 1 := by
      rw [size]
      omega
    rw [← hi', UInt16.ofNat_toNat]
  · obtain ⟨n, hn⟩ := Nat.exists_eq_succ_of_ne_zero hfirst
    rw [hn, slotsFor] at hget
    split at hget
    · cases n with
      | zero => exact .inr (.inr (Option.some.inj hget).symm)
      | succ n => cases hget
    · cases hget

/-! ### Unusable entries -/

theorem head?_layout {cs : List Constant} (hcs : .unusable ∉ cs) :
    (layout cs)[0]? ≠ some .unusable := by
  cases cs with
  | nil => simp [layout]
  | cons c cs =>
    have hc : c ≠ .unusable := fun h => hcs (h ▸ List.mem_cons_self)
    cases hwide : c.isWide <;> simp [layout, hwide, hc]

/-- In a layout, unusable entries are those behind wide ones. -/
theorem getElem?_layout_succ {cs : List Constant} (hcs : .unusable ∉ cs) (n : Nat) :
    (layout cs)[n + 1]? = some .unusable ↔ (layout cs)[n]?.any Constant.isWide = true := by
  induction cs generalizing n with
  | nil => simp [layout]
  | cons c cs ih =>
    rw [List.mem_cons, not_or] at hcs
    have ih := ih hcs.2
    rw [show layout (c :: cs) = slotsFor c ++ layout cs from rfl, slotsFor]
    cases hwide : c.isWide with
    | true =>
      obtain _ | _ | n := n
      · simp [hwide]
      · simpa [Constant.isWide] using head?_layout hcs.2
      · simpa using ih n
    | false =>
      obtain _ | n := n
      · simpa [hwide] using head?_layout hcs.2
      · simpa using ih n

/-- In a pool, unusable entries are those behind wide ones. -/
theorem Ordered.get?_succ (hp : p.Ordered) (i : UInt16) :
    p.get? (i + 1) = some .unusable ↔ (p.get? i).any Constant.isWide = true := by
  obtain ⟨cs, hcs, hlayout⟩ := hp.laidOut
  have hentries : ∀ n, p.entries[n]? = (layout cs)[n]? := fun n => by
    rw [← hlayout, toList, Array.getElem?_toList]
  have hsmall := hp.small
  rw [maxSize, size] at hsmall
  by_cases hi : i = 0
  · subst hi
    have hhead := head?_layout hcs
    rw [← hentries] at hhead
    simpa [get?] using hhead
  have hpos : i.toNat ≠ 0 := fun h0 => hi (UInt16.toNat_inj.1 h0)
  have hsucc : (i + 1).toNat = (i.toNat + 1) % 65536 := UInt16.toNat_add i 1
  by_cases hlast : i.toNat = 65535
  · -- There is no such entry, nor one behind it.
    have hzero : i + 1 = 0 := UInt16.toNat_inj.1 (by rw [hsucc, hlast]; rfl)
    rw [get?, get?, if_pos hzero, if_neg hi, hlast, Array.getElem?_eq_none (by omega)]
    simp
  · have hlt := i.toNat_lt
    rw [Nat.mod_eq_of_lt (by omega)] at hsucc
    have hne : i + 1 ≠ 0 := by
      intro h
      rw [h] at hsucc
      exact absurd hsucc.symm (Nat.succ_ne_zero _)
    rw [get?, get?, if_neg hne, if_neg hi, hsucc, hentries, hentries,
      show i.toNat + 1 - 1 = i.toNat - 1 + 1 by omega]
    exact getElem?_layout_succ hcs _

/-! ### Additions keep the order -/

theorem Ordered.sound (hp : p.Ordered) : p.Sound False :=
  ⟨hp.small, hp.laidOut, False.elim, fun c i h => ((hp.index c i).1 h).1⟩

theorem ordered_empty : ({} : Pool).Ordered where
  small := Nat.zero_le _
  laidOut := ⟨[], List.not_mem_nil, rfl⟩
  index := fun c i => by simp [get?]
  refers := fun i c h => by simp [get?] at h

theorem Extends.refersBelow (h : p.Extends q) (hc : p.RefersBelow i c) : q.RefersBelow i c := by
  intro r hr
  obtain ⟨hlt, k, hk, hkind⟩ := hc r hr
  exact ⟨hlt, k, h _ _ hk, hkind⟩

theorem ordered_extended (hp : p.Ordered) (hc : c ≠ .unusable) (hnew : p.index[c]? = none)
    (hrefers : p.RefersBelow (UInt16.ofNat (p.size + 1)) c)
    (hroom : p.size + (if c.isWide then 2 else 1) ≤ maxSize) : (p.extended c).Ordered := by
  have hsound := sound_extended hp.sound hc False.elim hroom
  have hsize : p.size + 1 < 65536 := by
    rw [maxSize] at hroom
    split at hroom <;> omega
  refine ⟨hsound.small, hsound.laidOut, fun d i => ?_, fun i d h => ?_⟩
  · rw [index_extended]
    split
    · rename_i heq
      subst heq
      rw [Option.some_inj]
      constructor
      · rintro rfl
        exact ⟨get?_extended hsize, hc⟩
      · rintro ⟨h, -⟩
        rcases cases_of_get?_extended h with hold | ⟨rfl, -⟩ | hunusable
        · rw [(hp.index c i).2 ⟨hold, hc⟩] at hnew
          cases hnew
        · rfl
        · exact absurd hunusable hc
    · rename_i hne
      rw [hp.index d i]
      refine and_congr_left fun hd => ⟨extends_extended c i d, fun h => ?_⟩
      rcases cases_of_get?_extended h with hold | ⟨-, rfl⟩ | rfl
      · exact hold
      · exact absurd rfl hne
      · exact absurd rfl hd
  · rcases cases_of_get?_extended h with hold | ⟨rfl, rfl⟩ | rfl
    · exact (extends_extended c).refersBelow (hp.refers i d hold)
    · exact (extends_extended d).refersBelow hrefers
    · exact fun r hr => absurd hr List.not_mem_nil

/-- Whatever comes of an addition, the pool stays in order, and keeps what it has. -/
def Keeps (p : Pool) (add : Add) : Prop :=
  (add.run.run p).2.Ordered ∧ p.Extends (add.run.run p).2

theorem keeps_intern (hp : p.Ordered) (hc : c ≠ .unusable)
    (hrefers : ∀ r ∈ c.references, ∃ k, p.get? r.1 = some k ∧ r.2 k = true) :
    p.Keeps (intern c) := by
  rw [Keeps]
  cases hindex : p.index[c]? with
  | some i =>
    rw [run_intern_of_some hindex]
    exact ⟨hp, Extends.refl p⟩
  | none =>
    rw [run_intern_of_none hindex]
    by_cases hfull : maxSize < p.size + (if c.isWide then 2 else 1)
    · rw [if_pos hfull]
      exact ⟨hp, Extends.refl p⟩
    · rw [if_neg hfull]
      have hroom := Nat.not_lt.1 hfull
      refine ⟨ordered_extended hp hc hindex (fun r hr => ?_) hroom, extends_extended c⟩
      obtain ⟨k, hk, hkind⟩ := hrefers r hr
      refine ⟨lt_of_get? ?_ hk, k, hk, hkind⟩
      rw [maxSize] at hroom
      split at hroom <;> omega

/-- An addition that fails leaves the rest undone. -/
theorem Keeps.bind {add : Add} {f : UInt16 → Add} (hadd : p.Keeps add)
    (hf : ∀ i q, q.Ordered → add.run.run p = (.ok i, q) → q.Keeps (f i)) :
    p.Keeps (add >>= f) := by
  rw [Keeps] at hadd ⊢
  rw [ExceptT.run_bind, StateT.run_bind]
  cases hrun : add.run.run p with
  | mk result q =>
    rw [hrun] at hadd
    cases result with
    | ok i =>
      obtain ⟨hr, hqr⟩ := hf i q hadd.1 hrun
      exact ⟨hr, hadd.2.trans hqr⟩
    | error e => exact hadd

theorem keeps_addUtf8 (hp : p.Ordered) (s : String) : p.Keeps (addUtf8 s) :=
  keeps_intern hp (by simp) fun r hr => absurd hr List.not_mem_nil

theorem keeps_addClass (hp : p.Ordered) (name : String) : p.Keeps (addClass name) := by
  refine (keeps_addUtf8 hp _).bind fun i q hq hrun => ?_
  obtain ⟨-, -, htext⟩ := spec_addUtf8 hp.sound hrun
  exact keeps_intern hq (by simp) (List.forall_mem_singleton.2 ⟨_, utf8?_eq_some.1 htext, rfl⟩)

theorem keeps_addString (hp : p.Ordered) (s : String) : p.Keeps (addString s) := by
  refine (keeps_addUtf8 hp _).bind fun i q hq hrun => ?_
  obtain ⟨-, -, htext⟩ := spec_addUtf8 hp.sound hrun
  exact keeps_intern hq (by simp) (List.forall_mem_singleton.2 ⟨_, utf8?_eq_some.1 htext, rfl⟩)

theorem keeps_addNameAndType (hp : p.Ordered) (name descriptor : String) :
    p.Keeps (addNameAndType name descriptor) := by
  refine (keeps_addUtf8 hp _).bind fun i q hq hrun =>
    (keeps_addUtf8 hq _).bind fun j r hr hrun' => ?_
  obtain ⟨-, -, hname⟩ := spec_addUtf8 hp.sound hrun
  obtain ⟨-, hext, hdescriptor⟩ := spec_addUtf8 hq.sound hrun'
  exact keeps_intern hr (by simp) (List.forall_mem_cons.2
    ⟨⟨_, hext _ _ (utf8?_eq_some.1 hname), rfl⟩,
      List.forall_mem_singleton.2 ⟨_, utf8?_eq_some.1 hdescriptor, rfl⟩⟩)

theorem keeps_addMember (hp : p.Ordered) {make : UInt16 → UInt16 → Constant}
    (hmake : ∀ o nat, make o nat ≠ .unusable ∧
      (make o nat).references = [(o, Constant.isClass), (nat, Constant.isNameAndType)])
    (owner name descriptor : String) : p.Keeps (addMember make owner name descriptor) := by
  refine (keeps_addClass hp _).bind fun o q hq hrun =>
    (keeps_addNameAndType hq _ _).bind fun nat r hr hrun' => ?_
  obtain ⟨-, -, howner⟩ := spec_addClass hp.sound hrun
  obtain ⟨-, hext, hnat⟩ := spec_addNameAndType hq.sound hrun'
  obtain ⟨n, howner, -⟩ := className?_eq_some.1 howner
  obtain ⟨n, d, hnat, -⟩ := nameAndType?_eq_some.1 hnat
  refine keeps_intern hr (hmake o nat).1 ?_
  rw [(hmake o nat).2]
  exact List.forall_mem_cons.2 ⟨⟨_, hext _ _ howner, rfl⟩,
    List.forall_mem_singleton.2 ⟨_, hnat, rfl⟩⟩

theorem Item.keeps_add (hp : p.Ordered) (item : Item) : p.Keeps item.add := by
  cases item with
  | utf8 s => exact keeps_addUtf8 hp s
  | integer | float | long | double =>
    exact keeps_intern hp (by simp) fun r hr => absurd hr List.not_mem_nil
  | classRef name => exact keeps_addClass hp name
  | string s => exact keeps_addString hp s
  | nameAndType name descriptor => exact keeps_addNameAndType hp name descriptor
  | field | method | interfaceMethod =>
    exact keeps_addMember hp (fun o nat => ⟨by simp, rfl⟩) _ _ _

/-- Runs of additions keep the order too. -/
theorem ordered_after (hp : p.Ordered) (items : List Item) :
    (p.after items).Ordered ∧ p.Extends (p.after items) := by
  induction items generalizing p with
  | nil => exact ⟨hp, Extends.refl p⟩
  | cons item items ih =>
    obtain ⟨hq, hpq⟩ := item.keeps_add hp
    obtain ⟨hr, hqr⟩ := ih hq
    exact ⟨hr, hpq.trans hqr⟩

/-! ### What an index stands for -/

/-- A member is at an index. -/
def HoldsMember (p : Pool) (make : UInt16 → UInt16 → Constant) (i : UInt16)
    (owner name descriptor : String) : Prop :=
  ∃ o nat, p.get? i = some (make o nat) ∧ p.className? o = some owner ∧
    p.nameAndType? nat = some (name, descriptor)

/-- An item is at an index. -/
def Holds (p : Pool) (i : UInt16) : Item → Prop
  | .utf8 s => p.get? i = some (.utf8 s)
  | .integer n => p.get? i = some (.integer n.toUInt32)
  | .float bits => p.get? i = some (.float bits)
  | .long n => p.get? i = some (.long n.toUInt64)
  | .double bits => p.get? i = some (.double bits)
  | .classRef name => p.className? i = some name
  | .string s => ∃ text, p.get? i = some (.string text) ∧ p.utf8? text = some s
  | .nameAndType name descriptor => p.nameAndType? i = some (name, descriptor)
  | .field owner name descriptor => p.HoldsMember .fieldRef i owner name descriptor
  | .method owner name descriptor => p.HoldsMember .methodRef i owner name descriptor
  | .interfaceMethod owner name descriptor =>
    p.HoldsMember .interfaceMethodRef i owner name descriptor

variable {item : Item}

theorem resolveMember?_eq_some {make : String → String → String → Item} {o nat : UInt16} :
    p.resolveMember? make o nat = some item ↔ ∃ owner name descriptor,
      p.className? o = some owner ∧ p.nameAndType? nat = some (name, descriptor) ∧
        item = make owner name descriptor := by
  rw [resolveMember?, Option.bind_eq_some_iff]
  constructor
  · rintro ⟨owner, howner, h⟩
    obtain ⟨⟨name, descriptor⟩, hnat, rfl⟩ := Option.map_eq_some_iff.1 h
    exact ⟨owner, name, descriptor, howner, hnat, rfl⟩
  · rintro ⟨owner, name, descriptor, howner, hnat, rfl⟩
    exact ⟨owner, howner, Option.map_eq_some_iff.2 ⟨_, hnat, rfl⟩⟩

/-- What is read at an index is held there. -/
theorem holds_of_resolve? (h : p.resolve? i = some item) : p.Holds i item := by
  rw [resolve?] at h
  split at h
  · cases h; assumption
  · rename_i n hget
    cases h
    rw [Holds, hget, UInt32.toUInt32_toInt32]
  · cases h; assumption
  · rename_i n hget
    cases h
    rw [Holds, hget, UInt64.toUInt64_toInt64]
  · cases h; assumption
  · rename_i name hget
    obtain ⟨s, hs, rfl⟩ := Option.map_eq_some_iff.1 h
    exact className?_eq_some.2 ⟨name, hget, hs⟩
  · rename_i text hget
    obtain ⟨s, hs, rfl⟩ := Option.map_eq_some_iff.1 h
    exact ⟨text, hget, hs⟩
  · obtain ⟨⟨name, descriptor⟩, hnat, rfl⟩ := Option.map_eq_some_iff.1 h
    exact hnat
  -- The three kinds of member.
  iterate 3
    · rename_i o nat hget
      obtain ⟨owner, name, descriptor, howner, hnat, rfl⟩ := resolveMember?_eq_some.1 h
      exact ⟨o, nat, hget, howner, hnat⟩
  · cases h
  · cases h

/-- What is held at an index can be read there. -/
theorem Holds.resolve? (h : p.Holds i item) : p.resolve? i = some item := by
  cases item with
  | utf8 | float | double =>
    rw [Holds] at h
    rw [resolve?, h]
  | integer | long =>
    rw [Holds] at h
    rw [resolve?, h]
    simp
  | classRef name =>
    obtain ⟨n, hget, hn⟩ := className?_eq_some.1 h
    rw [resolve?, hget]
    exact Option.map_eq_some_iff.2 ⟨name, hn, rfl⟩
  | string s =>
    obtain ⟨text, hget, htext⟩ := h
    rw [resolve?, hget]
    exact Option.map_eq_some_iff.2 ⟨s, htext, rfl⟩
  | nameAndType name descriptor =>
    obtain ⟨n, d, hget, -, -⟩ := nameAndType?_eq_some.1 h
    rw [resolve?, hget]
    exact Option.map_eq_some_iff.2 ⟨(name, descriptor), h, rfl⟩
  | field owner name descriptor | method owner name descriptor
  | interfaceMethod owner name descriptor =>
    obtain ⟨o, nat, hget, howner, hnat⟩ := h
    rw [resolve?, hget]
    exact resolveMember?_eq_some.2 ⟨owner, name, descriptor, howner, hnat, rfl⟩

theorem resolve?_eq_some_iff : p.resolve? i = some item ↔ p.Holds i item :=
  ⟨holds_of_resolve?, Holds.resolve?⟩

/-- What an index stands for, it stands for in every extension. -/
theorem Extends.holds (hpq : p.Extends q) (h : p.Holds i item) : q.Holds i item := by
  cases item with
  | utf8 | integer | float | long | double => exact hpq _ _ h
  | classRef => exact hpq.className? h
  | string s =>
    obtain ⟨text, hget, htext⟩ := h
    exact ⟨text, hpq _ _ hget, hpq.utf8? htext⟩
  | nameAndType => exact hpq.nameAndType? h
  | field | method | interfaceMethod =>
    obtain ⟨o, nat, hget, howner, hnat⟩ := h
    exact ⟨o, nat, hpq _ _ hget, hpq.className? howner, hpq.nameAndType? hnat⟩

/-! ### Additions that succeed -/

/-- An addition that succeeds answers an index for the item. -/
theorem Item.holds_of_run (hp : p.Ordered) (hrun : item.add.run.run p = (.ok i, q)) :
    q.Holds i item.normal := by
  cases item with
  | utf8 | integer | float | long | double =>
    exact (spec_intern hp.sound (by simp) (fun h => h.elim) hrun).2.2
  | classRef => exact (spec_addClass hp.sound hrun).2.2
  | string => exact (spec_addString hp.sound hrun).2.2
  | nameAndType => exact (spec_addNameAndType hp.sound hrun).2.2
  | field => exact (spec_addField hp.sound (fun h => h.elim) hrun).2.2
  | method => exact (spec_addMethod hp.sound (fun h => h.elim) hrun).2.2
  | interfaceMethod => exact (spec_addInterfaceMethod hp.sound (fun h => h.elim) hrun).2.2

/-- An addition finds what is there, and leaves the pool as it is. -/
def Finds (p : Pool) (add : Add) (i : UInt16) : Prop := add.run.run p = (.ok i, p)

theorem finds_intern (hp : p.Ordered) (hc : c ≠ .unusable) (h : p.get? i = some c) :
    p.Finds (intern c) i :=
  run_intern_of_some ((hp.index c i).2 ⟨h, hc⟩)

theorem Finds.bind {add : Add} {f : UInt16 → Add} (hadd : p.Finds add i) (hf : p.Finds (f i) j) :
    p.Finds (add >>= f) j := by
  rw [Finds, ExceptT.run_bind, StateT.run_bind, hadd]
  exact hf

theorem finds_addUtf8 (hp : p.Ordered) {s : String} (h : p.utf8? i = some s) :
    p.Finds (addUtf8 s) i :=
  finds_intern hp (by simp) (utf8?_eq_some.1 h)

theorem finds_addClass (hp : p.Ordered) {name : String}
    (h : p.className? i = some (Dotted.slashed name)) : p.Finds (addClass name) i := by
  obtain ⟨n, hget, hn⟩ := className?_eq_some.1 h
  exact (finds_addUtf8 hp hn).bind (finds_intern hp (by simp) hget)

theorem finds_addNameAndType (hp : p.Ordered) {name descriptor : String}
    (h : p.nameAndType? i = some (name, descriptor)) :
    p.Finds (addNameAndType name descriptor) i := by
  obtain ⟨n, d, hget, hn, hd⟩ := nameAndType?_eq_some.1 h
  exact (finds_addUtf8 hp hn).bind ((finds_addUtf8 hp hd).bind (finds_intern hp (by simp) hget))

theorem finds_addMember (hp : p.Ordered) {make : UInt16 → UInt16 → Constant}
    (hmake : ∀ o nat, make o nat ≠ .unusable) {owner name descriptor : String}
    (h : p.HasMember make i owner name descriptor) :
    p.Finds (addMember make owner name descriptor) i := by
  obtain ⟨o, nat, hget, howner, hnat⟩ := h
  exact (finds_addClass hp howner).bind
    ((finds_addNameAndType hp hnat).bind (finds_intern hp (hmake o nat) hget))

/-- An item that is there is found when it is added. -/
theorem Item.finds_add (hp : p.Ordered) (h : p.Holds i item.normal) : p.Finds item.add i := by
  cases item with
  | utf8 | integer | float | long | double => exact finds_intern hp (by simp) h
  | classRef => exact finds_addClass hp h
  | string s =>
    obtain ⟨text, hget, htext⟩ := h
    exact (finds_addUtf8 hp htext).bind (finds_intern hp (by simp) hget)
  | nameAndType => exact finds_addNameAndType hp h
  | field | method | interfaceMethod => exact finds_addMember hp (by simp) h

/-- The index that an addition answers stands for the item. -/
theorem Item.standsFor_of_run (hp : p.Ordered) (hrun : item.add.run.run p = (.ok i, q)) :
    q.StandsFor i item := by
  intro later
  have hq : q.Ordered := by
    have := (item.keeps_add hp).1
    rwa [hrun] at this
  obtain ⟨hr, hqr⟩ := ordered_after hq later
  have hitem := hqr.holds (holds_of_run hp hrun)
  refine ⟨resolve?_eq_some_iff.2 hitem, fun other => ?_⟩
  split
  · rename_i hsame
    exact finds_add hr (hsame ▸ hitem)
  · rename_i hdiffers
    intro hother
    -- The index cannot stand for both, as it still stands for the first.
    have hkept := (other.keeps_add hr).2.holds hitem
    have hnew := holds_of_run hr (Prod.ext hother rfl)
    rw [← resolve?_eq_some_iff] at hkept hnew
    exact hdiffers (Option.some.inj (hnew.symm.trans hkept))

/-- A pool to which items have been added, whether this has succeeded or not, is in order: its
    slots can be counted, and unusable entries are behind wide ones and nowhere else. Every index
    that it answers stands for its item. -/
theorem standsFor_ofItems (items : List Item) :
    (ofItems items).Ordered ∧
      (UInt16.ofNat ((ofItems items).size + 1)).toNat = (ofItems items).size + 1 ∧
      (∀ i, (ofItems items).get? (i + 1) = some .unusable ↔
        ((ofItems items).get? i).any Constant.isWide = true) ∧
      ∀ (item : Item) i q, item.add.run.run (ofItems items) = (.ok i, q) → q.StandsFor i item := by
  obtain ⟨hp, -⟩ := ordered_after ordered_empty items
  have hcount : (ofItems items).size + 1 < 65536 :=
    Nat.lt_of_le_of_lt (Nat.succ_le_succ hp.small) (by decide)
  exact ⟨hp, UInt16.toNat_ofNat_of_lt' hcount, hp.get?_succ,
    fun item i q hrun => item.standsFor_of_run hp hrun⟩

end Pool

end ComponentViews
