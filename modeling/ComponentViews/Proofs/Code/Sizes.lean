import ComponentViews.Proofs.Code.Emission
import Mathlib.Data.List.Nodup

/-!
# Sizes of emitted class files

Sizes are written into words, and not each of them is checked to fit. What is checked is the
constant pool and the code of a method; and as no interface and no field is listed twice, the
pool also bounds how many of these there are. So the lists and texts of an emitted class file
are written with their true sizes exactly if texts, methods, declared failures and handlers do
not grow too numerous (`Blueprint.isWritable_iff`).
-/

namespace ComponentViews

/-! ### Indices into the pool -/

namespace Pool

variable {p : Pool}

theorem mem_range_of_get? {i : UInt16} {c : Constant} (h : p.get? i = some c) :
    i.toNat ∈ List.range' 1 p.size := by
  rw [get?] at h
  split at h
  · cases h
  rename_i hne
  have hlt := (Array.getElem?_eq_some_iff.1 h).1
  have hpos : i.toNat ≠ 0 := fun hzero => hne (UInt16.toNat_inj.1 hzero)
  rw [List.mem_range'_1, size]
  omega

/-- There are no more entries than the pool has slots. -/
theorem length_le_of_nodup {is : List UInt16} (hnodup : is.Nodup)
    (his : ∀ i ∈ is, ∃ c, p.get? i = some c) : is.length ≤ p.size := by
  have hsubset : is.map UInt16.toNat ⊆ List.range' 1 p.size := fun n hn => by
    obtain ⟨i, hi, rfl⟩ := List.mem_map.1 hn
    obtain ⟨c, hc⟩ := his i hi
    exact mem_range_of_get? hc
  have hdistinct : (is.map UInt16.toNat).Nodup :=
    List.Nodup.map (fun _ _ => UInt16.toNat_inj.1) hnodup
  have hle := hdistinct.length_le_of_subset hsubset
  rwa [List.length_map, List.length_range'] at hle

end Pool

namespace Emit

variable {p q : Pool}

/-- The interfaces are different entries of the pool, which are not among those before. -/
theorem spec_interfaces {seen : List UInt16} {names : List String} {is : List UInt16}
    (hp : p.Sound False) (h : interfaces seen names p = .ok (is, q)) :
    q.Sound False ∧ p.Extends q ∧ is.Nodup ∧ ∀ i ∈ is, i ∉ seen ∧ ∃ c, q.get? i = some c := by
  induction names generalizing seen p is with
  | nil =>
    obtain ⟨rfl, rfl⟩ := pure_eq_ok h
    exact ⟨hp, Pool.Extends.refl _, List.nodup_nil, List.forall_mem_nil _⟩
  | cons name rest ih =>
    obtain ⟨i, p₁, hclass, h⟩ := bind_eq_ok h
    by_cases hseen : i ∈ seen
    · rw [if_pos hseen] at h
      obtain ⟨_, _, ⟨⟩, _⟩ := bind_eq_ok h
    rw [if_neg hseen] at h
    obtain ⟨others, p₂, hothers, h⟩ := bind_eq_ok h
    obtain ⟨rfl, rfl⟩ := pure_eq_ok h
    obtain ⟨hp₁, hext₁, hname⟩ := Pool.spec_addClass hp (run_of_constant hclass)
    obtain ⟨hp₂, hext₂, hnodup, hothers⟩ := ih hp₁ hothers
    obtain ⟨j, hget, -⟩ := Pool.className?_eq_some.1 hname
    refine ⟨hp₂, hext₁.trans hext₂, List.nodup_cons.2 ⟨fun hi => ?_, hnodup⟩,
      List.forall_mem_cons.2 ⟨⟨hseen, _, hext₂ _ _ hget⟩, fun k hk => ?_⟩⟩
    · exact (hothers i hi).1 List.mem_cons_self
    · exact ⟨fun hk' => (hothers k hk).1 (List.mem_cons_of_mem _ hk'), (hothers k hk).2⟩

/-- The fields have different names, which are not among those before. -/
theorem spec_fields {seen : List String} {fs : List Field} {members : List Member}
    (hp : p.Sound False) (h : fields seen fs p = .ok (members, q)) :
    q.Sound False ∧ p.Extends q ∧ (members.map (·.name)).Nodup ∧
      ∀ m ∈ members, ∃ name ∉ seen, q.utf8? m.name = some name := by
  induction fs generalizing seen p members with
  | nil =>
    obtain ⟨rfl, rfl⟩ := pure_eq_ok h
    exact ⟨hp, Pool.Extends.refl _, List.nodup_nil, List.forall_mem_nil _⟩
  | cons f rest ih =>
    rw [fields] at h
    by_cases hseen : f.name ∈ seen
    · rw [if_pos hseen] at h
      obtain ⟨_, _, ⟨⟩, _⟩ := bind_eq_ok h
    rw [if_neg hseen] at h
    obtain ⟨name, p₁, hname, h⟩ := bind_eq_ok h
    obtain ⟨descriptor, p₂, hdescriptor, h⟩ := bind_eq_ok h
    obtain ⟨others, p₃, hothers, h⟩ := bind_eq_ok h
    obtain ⟨rfl, rfl⟩ := pure_eq_ok h
    obtain ⟨hp₁, hext₁, hname⟩ := Pool.spec_addUtf8 hp (run_of_constant hname)
    obtain ⟨hp₂, hext₂, -⟩ := Pool.spec_addUtf8 hp₁ (run_of_constant hdescriptor)
    obtain ⟨hp₃, hext₃, hnodup, hothers⟩ := ih hp₂ hothers
    have hname := (hext₂.trans hext₃).utf8? hname
    refine ⟨hp₃, (hext₁.trans hext₂).trans hext₃, List.nodup_cons.2 ⟨fun hmem => ?_, hnodup⟩,
      List.forall_mem_cons.2 ⟨⟨_, hseen, hname⟩, fun m hm => ?_⟩⟩
    · -- An entry has one text, and that of the others is another one.
      obtain ⟨m, hm, heq⟩ := List.mem_map.1 hmem
      obtain ⟨text, htext, hget⟩ := hothers m hm
      rw [heq, hname, Option.some.injEq] at hget
      exact htext (hget ▸ List.mem_cons_self)
    · obtain ⟨text, htext, hget⟩ := hothers m hm
      exact ⟨text, fun hmem => htext (List.mem_cons_of_mem _ hmem), hget⟩

end Emit

namespace Blueprint

variable {b : Blueprint} {major : UInt16} {cf : ClassFile} {codes : List (Option CodeAttribute)}

/-- The pool bounds the numbers of interfaces and fields. -/
theorem length_le_size (h : b.classFile major = .ok cf) :
    cf.interfaces.length ≤ cf.pool.size ∧ cf.fields.length ≤ cf.pool.size := by
  obtain ⟨p₁, p₂, p₃, p₄, hthis, hsuper, hinterfaces, hfields, hmethods, -⟩ :=
    steps_of_classFile h
  obtain ⟨hp₁, -, -⟩ := Pool.spec_addClass Pool.sound_empty (Emit.run_of_constant hthis)
  obtain ⟨hp₂, -, -⟩ := Pool.spec_addClass hp₁ (Emit.run_of_constant hsuper)
  obtain ⟨hp₃, -, hdistinct, hlisted⟩ := Emit.spec_interfaces hp₂ hinterfaces
  obtain ⟨hp₄, hext₄, hnames, hnamed⟩ := Emit.spec_fields hp₃ hfields
  obtain ⟨-, hext₅, -⟩ := Method.spec_methods hp₄ hmethods
  refine ⟨Pool.length_le_of_nodup hdistinct fun i hi => ?_, ?_⟩
  · obtain ⟨c, hc⟩ := (hlisted i hi).2
    exact ⟨c, (hext₄.trans hext₅) _ _ hc⟩
  · rw [← List.length_map (·.name)]
    refine Pool.length_le_of_nodup hnames fun i hi => ?_
    obtain ⟨m, hm, rfl⟩ := List.mem_map.1 hi
    obtain ⟨name, -, hname⟩ := hnamed m hm
    exact ⟨_, Pool.utf8?_eq_some.1 (hext₅.utf8? hname)⟩

/-- What an emitted class file still needs to be written with its true sizes. -/
theorem isWritable_iff (h : b.classFile major = .ok cf) : b.IsWritable cf codes ↔
    (∀ k ∈ cf.pool.toList, k.FitsText) ∧ b.methods.length ≤ 65535 ∧
      (∀ m ∈ b.methods, m.throws.length ≤ 65535) ∧
        ∀ code ∈ codes, ∀ c ∈ code, c.table.length ≤ 65535 := by
  obtain ⟨hsound, -, -, entries, hmethods, hentries⟩ := spec_classFile h
  obtain ⟨hinterfaces, hfields⟩ := length_le_size h
  have hsmall := hsound.small
  have hcount : cf.methods.length = b.methods.length := by
    rw [hmethods, List.length_map, hentries.length_eq]
  rw [Pool.maxSize] at hsmall
  constructor
  · exact fun hw => ⟨hw.texts, hcount ▸ hw.methods, hw.throws, hw.tables⟩
  · rintro ⟨htexts, hfew, hthrows, htables⟩
    exact {
      texts := htexts
      interfaces := by omega
      fields := by omega
      methods := hcount ▸ hfew
      throws := hthrows
      tables := htables }

end Blueprint

end ComponentViews
