import ComponentViews.Code.Emission
import ComponentViews.Proofs.Code.Walk
import Mathlib.Data.List.Forall2

/-!
# Class files that have been emitted

The class file of a blueprint can be read back from its bytes, and with it the code of every
method, where its texts and lists are not too long to be written (`Blueprint.ofBytes_classFile`).
What has to be seen is that the pool that the class file ends up with is laid out in slots, and
that it still has the names under which the code was filed (`Method.IsEmitted`).
-/

namespace ComponentViews

/-! ### Lengths -/

/-- The length of a list whose items are all of one size. -/
theorem ClassFile.length_encodeList {α : Type} {encode : α → List UInt8} {n : Nat}
    (hn : ∀ a, (encode a).length = n) (l : List α) :
    (encodeList encode l).length = 2 + l.length * n := by
  have hflat : (l.flatMap encode).length = l.length * n := by
    rw [List.length_flatMap]
    simp only [hn, List.map_const', List.sum_replicate_nat]
  rw [encodeList, List.length_append, hflat, Word.length_bytes16]

/-! ### What lowering leaves -/

namespace CodeContext

/-- A step that ends with finished code leaves no more than code may have. -/
def Finishes (x : Lower Unit) : Prop :=
  ∀ d r d', x.run d = .ok (r, d') → d'.asm.code.size ≤ Assembly.maxSize

theorem Finishes.bind {α : Type} {x : Lower α} {f : α → Lower Unit} (hf : ∀ a, Finishes (f a)) :
    Finishes (x >>= f) := by
  intro d r d' h
  obtain ⟨a, s, -, h⟩ := exists_of_run_bind h
  exact hf a s r d' h

theorem Finishes.ite {p : Prop} [Decidable p] {x y : Lower Unit} (hx : Finishes x)
    (hy : Finishes y) : Finishes (if p then x else y) := by
  split
  · exact hx
  · exact hy

theorem finishes_finish : Finishes (Draft.assemble Assembly.finish) := by
  intro d r d' h
  simp only [Draft.assemble, StateT.run] at h
  split at h
  · rename_i hrun
    cases h
    exact Assembly.size_finish hrun
  · cases h

theorem finishes_wholeBody (c : CodeContext) : Finishes c.wholeBody := by
  have hreturn : Finishes (do
      Draft.emit (.plain Opcode.vreturn) 0
      Draft.assemble Assembly.finish) := .bind fun _ => finishes_finish
  exact .bind fun _ => .bind fun _ => .ite (.ite (.bind fun _ => hreturn) hreturn) finishes_finish

variable {c : CodeContext} {p q : Pool} {code : CodeAttribute}

/-- The draft that code is taken from. -/
theorem draft_of_lower (h : c.lower p = .ok (code, q)) :
    ∃ d, c.wholeBody.run ⟨{}, p, c.firstFree, []⟩ = .ok ((), d) ∧ d.pool = q ∧
      code = { maxStack := UInt16.ofNat d.asm.maxDepth
               maxLocals := UInt16.ofNat d.nextSlot
               code := d.asm.code.toList
               table := d.asm.table.toList } := by
  rw [lower] at h
  cases hrun : c.wholeBody.run ⟨{}, p, c.firstFree, []⟩ with
  | error fault => simp [hrun, bind, Except.bind] at h
  | ok r =>
    simp only [hrun, bind, Except.bind, pure, Except.pure, Except.ok.injEq, Prod.mk.injEq] at h
    exact ⟨r.2, rfl, h.2, h.1.symm⟩

theorem grows_lower (h : c.lower p = .ok (code, q)) : p.Grows q := by
  obtain ⟨d, hrun, rfl, -⟩ := draft_of_lower h
  exact (keepsPool_wholeBody c).ok _ _ _ hrun

/-- Lowering leaves code of a size that it may have, and no attributes of the code. -/
theorem length_lower (h : c.lower p = .ok (code, q)) :
    code.code.length ≤ 65535 ∧ code.attributes = [] := by
  obtain ⟨d, hrun, -, rfl⟩ := draft_of_lower h
  have hsize : d.asm.code.size ≤ 65535 := finishes_wholeBody c _ _ _ hrun
  exact ⟨by simpa using hsize, rfl⟩

/-- Code can be read back if its exception table can. -/
theorem fits_lower (h : c.lower p = .ok (code, q)) (htable : code.table.length ≤ 65535) :
    code.Fits := by
  obtain ⟨hsize, hattributes⟩ := length_lower h
  exact {
    code := Nat.lt_of_le_of_lt hsize (by decide)
    fewEntries := htable
    fewAttributes := by simp [hattributes]
    attributes := by simp [hattributes] }

/-- Code takes no more than an attribute can hold if its exception table does not. -/
theorem length_encode_lower (h : c.lower p = .ok (code, q)) (htable : code.table.length ≤ 65535) :
    code.encode.length < 2 ^ 32 := by
  obtain ⟨hsize, hattributes⟩ := length_lower h
  have hentry : ∀ e : ExceptionEntry, e.encode.length = 8 := fun e => rfl
  have hlength := ClassFile.length_encodeList hentry code.table
  have hnone : (ClassFile.encodeList Attribute.encode code.attributes).length = 2 := by
    rw [hattributes]
    rfl
  simp only [CodeAttribute.encode, List.length_append, Word.length_bytes16, Word.length_bytes32,
    hlength, hnone]
  omega

end CodeContext

/-! ### Steps of emission -/

namespace Emit

variable {α β : Type}

/-- Both steps succeed. -/
theorem bind_eq_ok {x : Emit α} {f : α → Emit β} {p q : Pool} {b : β}
    (h : (x >>= f) p = .ok (b, q)) : ∃ a r, x p = .ok (a, r) ∧ f a r = .ok (b, q) :=
  exists_of_run_bind h

theorem bind_of_ok {x : Emit α} {f : α → Emit β} {p q : Pool} {a : α} (h : x p = .ok (a, q)) :
    (x >>= f) p = f a q := by
  change (x p >>= fun r => f r.1 r.2) = _
  rw [h]
  rfl

theorem pure_eq_ok {p q : Pool} {a b : α} (h : (pure a : Emit α) p = .ok (b, q)) :
    a = b ∧ p = q := by
  cases h
  exact ⟨rfl, rfl⟩

/-- A step of emission keeps the pool, which is all its state. -/
abbrev Keeps (x : Emit α) : Prop := KeepsPool id x

theorem run_of_constant {overflow : EmissionFault} {add : Pool.Add} {p q : Pool} {i : UInt16}
    (h : constant overflow add p = .ok (i, q)) : add.run.run p = (.ok i, q) := by
  rw [constant] at h
  split at h
  · rename_i hrun
    cases h
    exact hrun
  · cases h

theorem constant_of_run {overflow : EmissionFault} {add : Pool.Add} {p q : Pool} {i : UInt16}
    (h : add.run.run p = (.ok i, q)) : constant overflow add p = .ok (i, q) := by
  rw [constant, h]

theorem keeps_constant {overflow : EmissionFault} {add : Pool.Add} (hadd : add.Adds) :
    Keeps (constant overflow add) where
  ok p i q h := hadd p i q (run_of_constant h)
  error _ _ _ := trivial

theorem keeps_interfaces (seen : List UInt16) (names : List String) :
    Keeps (interfaces seen names) := by
  induction names generalizing seen with
  | nil => exact .pure _
  | cons name rest ih =>
    have hrest : ∀ i, Keeps (do return i :: (← interfaces (i :: seen) rest)) :=
      fun i => (ih _).bind fun _ => .pure _
    exact (keeps_constant (Pool.adds_addClass name)).bind fun _ =>
      ((Relates.throw trivial).bind fun _ => hrest _).ite (hrest _)

theorem keeps_fields (seen : List String) (fs : List Field) : Keeps (fields seen fs) := by
  induction fs generalizing seen with
  | nil => exact .pure _
  | cons f rest ih =>
    have hrest : Keeps (do
        let name ← constant .poolOverflow (Pool.addUtf8 f.name)
        let descriptor ← constant .poolOverflow (Pool.addUtf8 f.type.descriptor)
        return { access := f.access, name, descriptor } :: (← fields (f.name :: seen) rest)) :=
      (keeps_constant (Pool.adds_addUtf8 _)).bind fun _ =>
        (keeps_constant (Pool.adds_addUtf8 _)).bind fun _ => (ih _).bind fun _ => .pure _
    exact ((Relates.throw trivial).bind fun _ => hrest).ite hrest

/-- Fields have no attributes. -/
theorem attributes_of_fields {seen : List String} {fs : List Field} {p q : Pool}
    {members : List Member} (h : fields seen fs p = .ok (members, q)) :
    ∀ m ∈ members, m.attributes = [] := by
  induction fs generalizing seen p members with
  | nil =>
    obtain ⟨rfl, -⟩ := pure_eq_ok h
    exact fun _ hm => absurd hm List.not_mem_nil
  | cons f rest ih =>
    rw [fields] at h
    by_cases hseen : f.name ∈ seen
    · rw [if_pos hseen] at h
      obtain ⟨_, _, ⟨⟩, _⟩ := bind_eq_ok h
    rw [if_neg hseen] at h
    obtain ⟨name, p₁, -, h⟩ := bind_eq_ok h
    obtain ⟨descriptor, p₂, -, h⟩ := bind_eq_ok h
    obtain ⟨others, p₃, hothers, h⟩ := bind_eq_ok h
    obtain ⟨rfl, rfl⟩ := pure_eq_ok h
    exact List.forall_mem_cons.2 ⟨rfl, ih hothers⟩

end Emit

namespace Method

/-- The code of a method: what lowering its body gives, with constants that are still in
    `pool`. -/
def IsCode (m : Method) (unit : String) (major : UInt16) (pool : Pool) :
    Option CodeAttribute → Prop
  | none => m.body = none
  | some code => ∃ body p q, m.body = some body ∧
      (⟨unit, m, body, 49 ≤ major⟩ : CodeContext).lower p = .ok (code, q) ∧ q.Extends pool

/-- The attributes under which code is filed. -/
def FilesCode (pool : Pool) (attributes : List Attribute) : Option CodeAttribute → Prop
  | none => attributes = []
  | some code => ∃ i, pool.utf8? i = some ClassFile.codeName ∧ attributes = [⟨i, code.encode⟩]

/-- The attributes under which a number of declared failures are filed. -/
def FilesFailures (pool : Pool) (attributes : List Attribute) (count : Nat) : Prop :=
  attributes = [] ∨ ∃ i classes, pool.utf8? i = some ClassFile.exceptionsName ∧
    classes.length = count ∧ attributes = [⟨i, ClassFile.encodeList Word.bytes16 classes⟩]

/-- A method has become a member with code. -/
structure IsEmitted (m : Method) (unit : String) (major : UInt16) (pool : Pool)
    (member : Member) (code : Option CodeAttribute) : Prop where
  isCode : m.IsCode unit major pool code
  attributes : ∃ files failures, member.attributes = files ++ failures ∧
    FilesCode pool files code ∧ FilesFailures pool failures m.throws.length

variable {m : Method} {unit : String} {major : UInt16} {p q r : Pool} {member : Member}
  {code : Option CodeAttribute} {attributes : List Attribute}

theorem IsCode.mono (h : m.IsCode unit major p code) (hext : p.Extends q) :
    m.IsCode unit major q code := by
  cases code with
  | none => exact h
  | some code =>
    obtain ⟨body, p₁, q₁, hbody, hlower, hq⟩ := h
    exact ⟨body, p₁, q₁, hbody, hlower, hq.trans hext⟩

theorem FilesCode.mono (h : FilesCode p attributes code) (hext : p.Extends q) :
    FilesCode q attributes code := by
  cases code with
  | none => exact h
  | some code =>
    obtain ⟨i, hi, hattributes⟩ := h
    exact ⟨i, hext.utf8? hi, hattributes⟩

theorem FilesFailures.mono {count : Nat} (h : FilesFailures p attributes count)
    (hext : p.Extends q) : FilesFailures q attributes count := by
  rcases h with h | ⟨i, classes, hi, hcount, h⟩
  · exact .inl h
  · exact .inr ⟨i, classes, hext.utf8? hi, hcount, h⟩

theorem IsEmitted.mono (h : m.IsEmitted unit major p member code) (hext : p.Extends q) :
    m.IsEmitted unit major q member code := by
  obtain ⟨files, failures, happend, hfiles, hfailures⟩ := h.attributes
  exact ⟨h.isCode.mono hext, files, failures, happend, hfiles.mono hext, hfailures.mono hext⟩

/-- The name of an attribute is in the pool. -/
theorem spec_constant {s : String} {i : UInt16} (hp : p.Sound False)
    (h : m.constant (Pool.addUtf8 s) p = .ok (i, q)) :
    q.Sound False ∧ p.Extends q ∧ q.utf8? i = some s :=
  Pool.spec_addUtf8 hp (Emit.run_of_constant h)

/-- Code is filed as what lowering gives. -/
theorem spec_codeAttributes (hp : p.Sound False)
    (h : m.codeAttributes unit major p = .ok (attributes, q)) :
    q.Sound False ∧ p.Extends q ∧
      ∃ code, m.IsCode unit major q code ∧ FilesCode q attributes code := by
  rw [codeAttributes] at h
  cases hbody : m.body with
  | none =>
    rw [hbody] at h
    obtain ⟨rfl, rfl⟩ := Emit.pure_eq_ok h
    exact ⟨hp, Pool.Extends.refl _, none, hbody, rfl⟩
  | some body =>
    rw [hbody] at h
    obtain ⟨built, p₁, hlower, h⟩ := Emit.bind_eq_ok h
    obtain ⟨i, p₂, hname, h⟩ := Emit.bind_eq_ok h
    obtain ⟨rfl, rfl⟩ := Emit.pure_eq_ok h
    have hlower := Except.mapError_eq_ok.1 hlower
    obtain ⟨hp₁, hext₁⟩ := CodeContext.grows_lower hlower hp
    obtain ⟨hp₂, hext₂, hi⟩ := spec_constant hp₁ hname
    exact ⟨hp₂, hext₁.trans hext₂, some built, ⟨body, p, p₁, hbody, hlower, hext₂⟩, i, hi, rfl⟩

theorem spec_thrownClasses {tys : List Ty} {classes : List UInt16} (hp : p.Sound False)
    (h : m.thrownClasses tys p = .ok (classes, q)) :
    q.Sound False ∧ p.Extends q ∧ classes.length = tys.length := by
  induction tys generalizing p classes with
  | nil =>
    obtain ⟨rfl, rfl⟩ := Emit.pure_eq_ok h
    exact ⟨hp, Pool.Extends.refl _, rfl⟩
  | cons ty rest ih =>
    obtain ⟨i, p₁, hclass, h⟩ := Emit.bind_eq_ok h
    obtain ⟨others, p₂, hothers, h⟩ := Emit.bind_eq_ok h
    obtain ⟨rfl, rfl⟩ := Emit.pure_eq_ok h
    obtain ⟨hp₁, hext₁, -⟩ := Pool.spec_addClass hp (Emit.run_of_constant hclass)
    obtain ⟨hp₂, hext₂, hlength⟩ := ih hp₁ hothers
    exact ⟨hp₂, hext₁.trans hext₂, congrArg (· + 1) hlength⟩

/-- Failures are filed behind the code, under a name of their own. -/
theorem spec_failureAttributes (hp : p.Sound False)
    (h : m.failureAttributes p = .ok (attributes, q)) :
    q.Sound False ∧ p.Extends q ∧ FilesFailures q attributes m.throws.length := by
  rw [failureAttributes] at h
  cases hthrows : m.throws.isEmpty with
  | true =>
    rw [hthrows] at h
    obtain ⟨rfl, rfl⟩ := Emit.pure_eq_ok h
    exact ⟨hp, Pool.Extends.refl _, .inl rfl⟩
  | false =>
    rw [hthrows] at h
    obtain ⟨classes, p₁, hclasses, h⟩ := Emit.bind_eq_ok h
    obtain ⟨i, p₂, hname, h⟩ := Emit.bind_eq_ok h
    obtain ⟨rfl, rfl⟩ := Emit.pure_eq_ok h
    obtain ⟨hp₁, hext₁, hlength⟩ := spec_thrownClasses hp hclasses
    obtain ⟨hp₂, hext₂, hi⟩ := spec_constant hp₁ hname
    exact ⟨hp₂, hext₁.trans hext₂, .inr ⟨i, classes, hi, hlength, rfl⟩⟩

/-- Each method becomes a member. -/
theorem spec_methods {seen : List String} {methods : List Method} {members : List Member}
    (hp : p.Sound False) (h : Emit.methods unit major seen methods p = .ok (members, q)) :
    q.Sound False ∧ p.Extends q ∧ ∃ entries : List (Member × Option CodeAttribute),
      members = entries.map (·.1) ∧
      List.Forall₂ (fun m e => m.IsEmitted unit major q e.1 e.2) methods entries := by
  induction methods generalizing seen p members with
  | nil =>
    obtain ⟨rfl, rfl⟩ := Emit.pure_eq_ok h
    exact ⟨hp, Pool.Extends.refl _, [], rfl, .nil⟩
  | cons m rest ih =>
    rw [Emit.methods] at h
    by_cases hseen : m.label ∈ seen
    · rw [if_pos hseen] at h
      obtain ⟨_, _, ⟨⟩, _⟩ := Emit.bind_eq_ok h
    rw [if_neg hseen] at h
    obtain ⟨name, p₁, hname, h⟩ := Emit.bind_eq_ok h
    obtain ⟨descriptor, p₂, hdescriptor, h⟩ := Emit.bind_eq_ok h
    obtain ⟨files, p₃, hfiles, h⟩ := Emit.bind_eq_ok h
    obtain ⟨failures, p₄, hfailures, h⟩ := Emit.bind_eq_ok h
    obtain ⟨others, p₅, hothers, h⟩ := Emit.bind_eq_ok h
    obtain ⟨rfl, rfl⟩ := Emit.pure_eq_ok h
    -- The pool is sound after each part and extends what it was before.
    obtain ⟨hp₁, hext₁, -⟩ := spec_constant hp hname
    obtain ⟨hp₂, hext₂, -⟩ := spec_constant hp₁ hdescriptor
    obtain ⟨hp₃, hext₃, code, hcode, hfiled⟩ := spec_codeAttributes hp₂ hfiles
    obtain ⟨hp₄, hext₄, hlisted⟩ := spec_failureAttributes hp₃ hfailures
    obtain ⟨hp₅, hext₅, entries, rfl, hentries⟩ := ih hp₄ hothers
    have hemitted : m.IsEmitted unit major p₄
        { access := m.access, name, descriptor, attributes := files ++ failures } code :=
      ⟨hcode.mono hext₄, files, failures, rfl, hfiled.mono hext₄, hlisted⟩
    exact ⟨hp₅, (((hext₁.trans hext₂).trans hext₃).trans hext₄).trans hext₅,
      (_, code) :: entries, rfl, .cons (hemitted.mono hext₅) hentries⟩

/-- Code of a method can be read back if its exception table can. -/
theorem IsCode.fits (h : m.IsCode unit major p code)
    (htable : ∀ c ∈ code, c.table.length ≤ 65535) :
    ∀ c ∈ code, c.Fits ∧ c.encode.length < 2 ^ 32 := by
  rintro c rfl
  obtain ⟨body, p₁, q₁, -, hlower, -⟩ := h
  exact ⟨CodeContext.fits_lower hlower (htable c rfl),
    CodeContext.length_encode_lower hlower (htable c rfl)⟩

/-- The attributes of an emitted method can be written. -/
theorem IsEmitted.fits (h : m.IsEmitted unit major p member code)
    (hcode : ∀ c ∈ code, c.encode.length < 2 ^ 32) (hthrows : m.throws.length ≤ 65535) :
    ClassFile.FitsMember member := by
  obtain ⟨files, failures, happend, hfiles, hfailures⟩ := h.attributes
  have hfew : files.length ≤ 1 ∧ ∀ a ∈ files, ClassFile.FitsAttribute a := by
    cases code with
    | none =>
      obtain rfl : files = [] := hfiles
      exact ⟨Nat.zero_le _, fun a ha => absurd ha List.not_mem_nil⟩
    | some built =>
      obtain ⟨i, -, rfl⟩ := hfiles
      exact ⟨Nat.le_refl _, List.forall_mem_singleton.2 (hcode built rfl)⟩
  have hlisted : failures.length ≤ 1 ∧ ∀ a ∈ failures, ClassFile.FitsAttribute a := by
    rcases hfailures with rfl | ⟨i, classes, -, hcount, rfl⟩
    · exact ⟨Nat.zero_le _, fun a ha => absurd ha List.not_mem_nil⟩
    · refine ⟨Nat.le_refl _, List.forall_mem_singleton.2 ?_⟩
      have hlength := ClassFile.length_encodeList Word.length_bytes16 classes
      simp only [ClassFile.FitsAttribute, hlength]
      omega
  constructor
  · rw [happend, List.length_append]
    omega
  · rw [happend]
    exact List.forall_mem_append.2 ⟨hfew.2, hlisted.2⟩

/-- Code is filed with its whole exception table, of which each entry takes eight bytes. -/
theorem IsEmitted.length_table_le {built : CodeAttribute}
    (h : m.IsEmitted unit major p member (some built)) :
    ∃ a ∈ member.attributes, built.table.length * 8 ≤ a.info.length := by
  obtain ⟨files, failures, happend, ⟨i, -, rfl⟩, -⟩ := h.attributes
  have hentry : ∀ e : ExceptionEntry, e.encode.length = 8 := fun e => rfl
  refine ⟨⟨i, built.encode⟩, happend ▸ List.mem_cons_self, ?_⟩
  simp only [CodeAttribute.encode, List.length_append, ClassFile.length_encodeList hentry]
  omega

/-- The code of an emitted method is found again. -/
theorem IsEmitted.code?_eq (h : m.IsEmitted unit major p member code)
    (hcode : ∀ c ∈ code, c.Fits) : member.code? p = code := by
  obtain ⟨files, failures, happend, hfiles, hfailures⟩ := h.attributes
  rw [Member.code?, Member.attribute?, happend]
  cases code with
  | some built =>
    obtain ⟨i, hi, rfl⟩ := hfiles
    have hfound : (p.utf8? i == some ClassFile.codeName) = true := by rw [hi]; decide
    rw [List.singleton_append, List.find?_cons, hfound]
    exact CodeAttribute.ofBytes?_encode (hcode built rfl)
  | none =>
    obtain rfl : files = [] := hfiles
    rcases hfailures with rfl | ⟨i, classes, hi, -, rfl⟩
    · rfl
    · have hother : (p.utf8? i == some ClassFile.codeName) = false := by rw [hi]; decide
      rw [List.nil_append, List.find?_cons, hother]
      rfl

end Method

namespace Blueprint

/-- The lists that go into a class file and its attributes have no more entries than their
    lengths can say, and its texts no more bytes. -/
structure IsWritable (b : Blueprint) (cf : ClassFile) (codes : List (Option CodeAttribute)) :
    Prop where
  texts : ∀ k ∈ cf.pool.toList, k.FitsText
  interfaces : cf.interfaces.length ≤ 65535
  fields : cf.fields.length ≤ 65535
  methods : cf.methods.length ≤ 65535
  throws : ∀ m ∈ b.methods, m.throws.length ≤ 65535
  tables : ∀ code ∈ codes, ∀ c ∈ code, c.table.length ≤ 65535

/-- The steps that a class file has been emitted in. -/
theorem steps_of_classFile {b : Blueprint} {major : UInt16} {cf : ClassFile}
    (h : b.classFile major = .ok cf) : ∃ p₁ p₂ p₃ p₄,
      Emit.constant .poolOverflow (Pool.addClass b.name) {} = .ok (cf.thisClass, p₁) ∧
      Emit.constant .poolOverflow (Pool.addClass b.ancestor) p₁ = .ok (cf.superClass, p₂) ∧
      Emit.interfaces [] b.interfaces p₂ = .ok (cf.interfaces, p₃) ∧
      Emit.fields [] b.fields p₃ = .ok (cf.fields, p₄) ∧
      Emit.methods b.name major [] b.methods p₄ = .ok (cf.methods, cf.pool) ∧
      cf.attributes = [] := by
  have hemit : ∃ q, b.emit major {} = .ok (cf, q) := by
    rw [classFile] at h
    cases hrun : (b.emit major).run {} with
    | error fault => simp [hrun, bind, Except.bind] at h
    | ok r =>
      simp only [hrun, bind, Except.bind, pure, Except.pure, Except.ok.injEq] at h
      exact ⟨r.2, h ▸ hrun⟩
  obtain ⟨q, hemit⟩ := hemit
  obtain ⟨thisClass, p₁, hthis, hemit⟩ := Emit.bind_eq_ok hemit
  obtain ⟨superClass, p₂, hsuper, hemit⟩ := Emit.bind_eq_ok hemit
  obtain ⟨interfaces, p₃, hinterfaces, hemit⟩ := Emit.bind_eq_ok hemit
  obtain ⟨fields, p₄, hfields, hemit⟩ := Emit.bind_eq_ok hemit
  obtain ⟨methods, p₅, hmethods, hemit⟩ := Emit.bind_eq_ok hemit
  obtain ⟨pool, p₆, hpool, hemit⟩ := Emit.bind_eq_ok hemit
  cases hpool
  obtain ⟨rfl, -⟩ := Emit.pure_eq_ok hemit
  exact ⟨p₁, p₂, p₃, p₄, hthis, hsuper, hinterfaces, hfields, hmethods, rfl⟩

/-- What is known of a class file that has been emitted. -/
theorem spec_classFile {b : Blueprint} {major : UInt16} {cf : ClassFile}
    (h : b.classFile major = .ok cf) :
    cf.pool.Sound False ∧ cf.attributes = [] ∧ (∀ f ∈ cf.fields, f.attributes = []) ∧
      ∃ entries : List (Member × Option CodeAttribute), cf.methods = entries.map (·.1) ∧
        List.Forall₂ (fun m e => m.IsEmitted b.name major cf.pool e.1 e.2) b.methods entries := by
  obtain ⟨p₁, p₂, p₃, p₄, hthis, hsuper, hinterfaces, hfields, hmethods, hattributes⟩ :=
    steps_of_classFile h
  have hgrows : ({} : Pool).Grows p₄ :=
    ((((Emit.keeps_constant (Pool.adds_addClass _)).ok _ _ _ hthis).trans
      ((Emit.keeps_constant (Pool.adds_addClass _)).ok _ _ _ hsuper)).trans
      ((Emit.keeps_interfaces _ _).ok _ _ _ hinterfaces)).trans
      ((Emit.keeps_fields _ _).ok _ _ _ hfields)
  obtain ⟨hsound, -, hentries⟩ := Method.spec_methods (hgrows Pool.sound_empty).1 hmethods
  exact ⟨hsound, hattributes, Emit.attributes_of_fields hfields, hentries⟩

/-- A class file that has been emitted can be written where its lists and texts can; then the code
    of its methods is found again. -/
theorem fits_classFile {b : Blueprint} {major : UInt16} {cf : ClassFile}
    (hcf : b.classFile major = .ok cf)
    {entries : List (Member × Option CodeAttribute)} (hmethods : cf.methods = entries.map (·.1))
    (hentries : List.Forall₂ (fun m e => m.IsEmitted b.name major cf.pool e.1 e.2) b.methods
      entries) (hw : b.IsWritable cf (entries.map (·.2))) :
    cf.Fits ∧ ∀ e ∈ entries, e.1.code? cf.pool = e.2 := by
  obtain ⟨hpool, hattributes, hfields, -⟩ := spec_classFile hcf
  have hmembers : ∀ e ∈ entries, ClassFile.FitsMember e.1 ∧ e.1.code? cf.pool = e.2 := by
    intro e he
    obtain ⟨i, hi, rfl⟩ := List.mem_iff_getElem.1 he
    have hi' : i < b.methods.length := hentries.length_eq ▸ hi
    have hemitted := hentries.get hi' hi
    have hcode := hemitted.isCode.fits (hw.tables _ (List.mem_map_of_mem he))
    exact ⟨hemitted.fits (fun c hc => (hcode c hc).2) (hw.throws _ (List.getElem_mem hi')),
      hemitted.code?_eq fun c hc => (hcode c hc).1⟩
  refine ⟨?_, fun e he => (hmembers e he).2⟩
  exact {
    pool := hpool.laidOut
    poolSize := hpool.small
    texts := hw.texts
    fewInterfaces := hw.interfaces
    fewFields := hw.fields
    fields := fun f hf => ⟨by simp [hfields f hf], by simp [hfields f hf]⟩
    fewMethods := hw.methods
    methods := by
      rw [hmethods]
      exact List.forall_mem_map.2 fun e he => (hmembers e he).1
    fewAttributes := by simp [hattributes]
    attributes := by simp [hattributes] }

/-- The class file is read back as it was emitted, with the same entry at each index of the
    pool, and the code of each method is what lowering its body gave; texts can be told from
    their bytes. -/
theorem ofBytes_classFile :
    (∀ s, ModifiedUtf8.decode? (ModifiedUtf8.encode s) = some s) ∧
    ∀ (b : Blueprint) (major : UInt16) (cf : ClassFile), b.classFile major = .ok cf →
      ∃ codes : List (Option CodeAttribute),
        List.Forall₂ (fun m code => m.IsCode b.name major cf.pool code) b.methods codes ∧
        (b.IsWritable cf codes → ∃ read, ClassFile.ofBytes cf.encode = .ok read ∧
          read = { cf with pool := read.pool } ∧
          (∀ i, read.pool.get? i = cf.pool.get? i) ∧ read.pool.toList = cf.pool.toList ∧
          List.Forall₂ (fun (member : Member) code => member.code? read.pool = code)
            read.methods codes) := by
  refine ⟨ModifiedUtf8.decode?_encode, fun b major cf h => ?_⟩
  obtain ⟨-, -, -, entries, hmethods, hentries⟩ := spec_classFile h
  refine ⟨entries.map (·.2), List.forall₂_map_right_iff.2 (hentries.imp fun _ _ he => he.isCode),
    fun hw => ?_⟩
  obtain ⟨hfits, hcodes⟩ := fits_classFile h hmethods hentries hw
  refine ⟨_, ClassFile.ofBytes_encode hfits, rfl, fun i => rfl, rfl, ?_⟩
  rw [hmethods]
  exact List.forall₂_map_left_iff.2 (List.forall₂_map_right_iff.2
    (List.forall₂_same.2 hcodes))

/-- A method that returns a constant. -/
def limit : Method where
  name := "limit"
  result := .ofPrimitive .long
  body := some { vars := [], block := [.ret (some (.const (.long 1)))] }

/-- Its code: `lconst_1`, `lreturn`. -/
def limitCode : CodeAttribute where
  maxStack := 2
  maxLocals := 1
  code := [0x0a, 0xad]

/-- A class with one method. -/
def counter : Blueprint where
  name := "acme.Counter"
  ancestor := "java.lang.Object"
  methods := [limit]

/-- The method needs no constants for its code. -/
theorem lower_limit {body : Body} (hbody : limit.body = some body) (isNew : Bool) (p : Pool) :
    (⟨"acme.Counter", limit, body, isNew⟩ : CodeContext).lower p = .ok (limitCode, p) := by
  cases hbody
  cases isNew <;> rfl

/-- The class file, given how the pool grows. -/
theorem classFile_counter_of_adds {p₁ p₂ p₃ p₄ p₅ : Pool}
    (hthis : (Pool.addClass "acme.Counter").run.run {} = (.ok 2, p₁))
    (hsuper : (Pool.addClass "java.lang.Object").run.run p₁ = (.ok 4, p₂))
    (hname : (Pool.addUtf8 "limit").run.run p₂ = (.ok 5, p₃))
    (hdescriptor : (Pool.addUtf8 "()J").run.run p₃ = (.ok 6, p₄))
    (hcode : (Pool.addUtf8 "Code").run.run p₄ = (.ok 7, p₅)) :
    counter.classFile 49 = .ok {
      major := 49, pool := p₅, access := counter.access, thisClass := 2, superClass := 4
      interfaces := [], fields := []
      methods := [⟨Modifiers.publicBit, 5, 6, [⟨7, limitCode.encode⟩]⟩] } := by
  have hfiles : limit.codeAttributes "acme.Counter" 49 p₄ =
      .ok ([⟨7, limitCode.encode⟩], p₅) := by
    refine (Emit.bind_of_ok (a := limitCode) (q := p₄) ?_).trans
      (Emit.bind_of_ok (Emit.constant_of_run hcode))
    exact congrArg (Except.mapError _) (lower_limit rfl _ p₄)
  have hmethods : Emit.methods "acme.Counter" 49 [] [limit] p₂ =
      .ok ([⟨Modifiers.publicBit, 5, 6, [⟨7, limitCode.encode⟩]⟩], p₅) := by
    refine (Emit.bind_of_ok (Emit.constant_of_run hname)).trans ?_
    refine (Emit.bind_of_ok (Emit.constant_of_run hdescriptor)).trans ?_
    exact Emit.bind_of_ok hfiles
  have hemit : (counter.emit 49).run {} = .ok ({
      major := 49, pool := p₅, access := counter.access, thisClass := 2, superClass := 4
      interfaces := [], fields := []
      methods := [⟨Modifiers.publicBit, 5, 6, [⟨7, limitCode.encode⟩]⟩] }, p₅) := by
    refine (Emit.bind_of_ok (Emit.constant_of_run hthis)).trans ?_
    refine (Emit.bind_of_ok (Emit.constant_of_run hsuper)).trans ?_
    refine (Emit.bind_of_ok (a := []) (q := p₂) rfl).trans ?_
    refine (Emit.bind_of_ok (a := []) (q := p₂) rfl).trans ?_
    exact Emit.bind_of_ok hmethods
  rw [classFile, hemit]
  rfl

theorem exists_classFile_counter : ∃ cf, counter.classFile 49 = .ok cf ∧
    (∀ k ∈ cf.pool.toList, k.FitsText) ∧ cf.interfaces = [] ∧ cf.fields = [] ∧
    cf.methods.length = 1 := by
  let p₁ : Pool := (({} : Pool).extended (.utf8 "acme/Counter")).extended (.classRef 1)
  let p₂ : Pool := (p₁.extended (.utf8 "java/lang/Object")).extended (.classRef 3)
  let p₃ : Pool := p₂.extended (.utf8 "limit")
  let p₄ : Pool := p₃.extended (.utf8 "()J")
  let p₅ : Pool := p₄.extended (.utf8 "Code")
  have hthis : (Pool.addClass "acme.Counter").run.run {} = (.ok 2, p₁) :=
    Pool.run_addClass_of_room (by simp) (by simp) (by decide)
  have hsuper : (Pool.addClass "java.lang.Object").run.run p₁ = (.ok 4, p₂) :=
    Pool.run_addClass_of_room (by simp [p₁, Pool.index_extended]; decide)
      (by simp [p₁, Pool.index_extended]; decide) (by decide)
  have hname : (Pool.addUtf8 "limit").run.run p₂ = (.ok 5, p₃) :=
    Pool.run_intern_of_room (by simp [p₁, p₂, Pool.index_extended]) (by decide)
  have hdescriptor : (Pool.addUtf8 "()J").run.run p₃ = (.ok 6, p₄) :=
    Pool.run_intern_of_room (by simp [p₁, p₂, p₃, Pool.index_extended]) (by decide)
  have hcode : (Pool.addUtf8 "Code").run.run p₄ = (.ok 7, p₅) :=
    Pool.run_intern_of_room (by simp [p₁, p₂, p₃, p₄, Pool.index_extended]) (by decide)
  have hlist : p₅.toList = [.utf8 "acme/Counter", .classRef 1, .utf8 "java/lang/Object",
      .classRef 3, .utf8 "limit", .utf8 "()J", .utf8 "Code"] := rfl
  refine ⟨_, classFile_counter_of_adds hthis hsuper hname hdescriptor hcode, ?_, rfl, rfl, rfl⟩
  rw [show ClassFile.pool _ = p₅ from rfl, hlist]
  simp only [List.forall_mem_cons, Constant.FitsText]
  exact ⟨by decide, trivial, by decide, trivial, by decide,
    by decide, by decide, fun k hk => absurd hk List.not_mem_nil⟩

/-- The class file is read back. -/
theorem ofBytes_classFile_counter :
    ∃ cf codes, counter.classFile 49 = .ok cf ∧
      List.Forall₂ (fun m code => m.IsCode counter.name 49 cf.pool code) counter.methods codes ∧
      counter.IsWritable cf codes ∧
      ∃ read, ClassFile.ofBytes cf.encode = .ok read ∧ read = { cf with pool := read.pool } ∧
        (∀ i, read.pool.get? i = cf.pool.get? i) ∧ read.pool.toList = cf.pool.toList ∧
        List.Forall₂ (fun (member : Member) code => member.code? read.pool = code)
          read.methods codes := by
  obtain ⟨cf, h, htexts, hinterfaces, hfields, hmethods⟩ := exists_classFile_counter
  obtain ⟨codes, hcodes, hread⟩ := ofBytes_classFile.2 counter 49 cf h
  have hwritable : counter.IsWritable cf codes := {
    texts := htexts
    interfaces := by simp [hinterfaces]
    fields := by simp [hfields]
    methods := by simp [hmethods]
    throws := by decide
    tables := by
      cases hcodes with
      | cons hcode hrest =>
        cases hrest
        rintro code hmem c rfl
        obtain ⟨body, p, q, hbody, hlower, -⟩ := List.mem_singleton.1 hmem ▸ hcode
        obtain ⟨rfl, -⟩ := Prod.mk.inj
          (Except.ok.inj (hlower.symm.trans (lower_limit hbody _ p)))
        exact Nat.zero_le _ }
  exact ⟨cf, codes, h, hcodes, hwritable, hread hwritable⟩

end Blueprint

end ComponentViews
