import ComponentViews.Proofs.Code.Emission
import ComponentViews.Proofs.Synthesis.Wrapper
import ComponentViews.Proofs.Verification.Lowering

/-!
# Emitted class files are accepted

Whether the class file of a blueprint can be emitted is decided by its members and its bodies.
Where no two members go by one name and every body is typed, a class file is emitted unless
something is too large (`Blueprint.classFile_cases`), and the verifier accepts it where its lists
and texts are not too long to be written (`Blueprint.IsWritten.ofVerifiedBytes`).
-/

namespace ComponentViews

/-! ### Steps of emission -/

namespace Emit

variable {α β : Type} {checked : Prop} {expected : EmissionFault → Prop} {p q : Pool}

/-- From a pool a step gives something of which `post` tells, with a pool that has become no
    worse, or ends with a fault that is expected. -/
def Gives (checked : Prop) (expected : EmissionFault → Prop) (x : Emit α) (p : Pool)
    (post : α → Pool → Prop) : Prop :=
  match x p with
  | .ok (a, q) => q.Sound checked ∧ p.Extends q ∧ post a q
  | .error fault => expected fault

theorem Gives.pure {a : α} {post : α → Pool → Prop} (hp : p.Sound checked) (h : post a p) :
    Gives checked expected (pure a) p post :=
  ⟨hp, Pool.Extends.refl p, h⟩

theorem Gives.bind {x : Emit α} {f : α → Emit β} {mid : α → Pool → Prop} {post : β → Pool → Prop}
    (hx : Gives checked expected x p mid)
    (hf : ∀ a q, q.Sound checked → p.Extends q → mid a q →
      Gives checked expected (f a) q post) :
    Gives checked expected (x >>= f) p post := by
  have hbind : (x >>= f) p = x p >>= fun r => f r.1 r.2 := rfl
  rw [Gives] at hx ⊢
  rw [hbind]
  cases hrun : x p with
  | error fault =>
    rw [hrun] at hx
    exact hx
  | ok r =>
    rw [hrun] at hx
    obtain ⟨hq, hext, hmid⟩ := hx
    have hf := hf r.1 r.2 hq hext hmid
    show match f r.1 r.2 with | .ok (b, s) => _ | .error fault => _
    rw [Gives] at hf
    cases hrun' : f r.1 r.2 with
    | error fault =>
      -- What is expected of the second step is expected of both.
      rw [hrun'] at hf
      exact hf
    | ok r' =>
      rw [hrun'] at hf
      exact ⟨hf.1, hext.trans hf.2.1, hf.2.2⟩

theorem gives_get (hp : p.Sound checked) :
    Gives checked expected get p fun pool q => pool = q :=
  ⟨hp, Pool.Extends.refl p, rfl⟩

theorem gives_constant {overflow : EmissionFault} {add : Pool.Add} {post : UInt16 → Pool → Prop}
    (hadd : ∀ i q, add.run.run p = (.ok i, q) → q.Sound checked ∧ p.Extends q ∧ post i q)
    (hover : expected overflow) : Gives checked expected (constant overflow add) p post := by
  rw [Gives, constant]
  split
  · rename_i hrun
    split at hrun
    · cases hrun
      exact hadd _ _ ‹_›
    · cases hrun
  · rename_i hrun
    split at hrun
    · cases hrun
    · cases hrun
      exact hover

theorem gives_utf8 {overflow : EmissionFault} {s : String} (hp : p.Sound checked)
    (hover : expected overflow) : Gives checked expected (constant overflow (Pool.addUtf8 s)) p
      fun i q => q.utf8? i = some s :=
  gives_constant (fun _ _ hrun => Pool.spec_addUtf8 hp hrun) hover

theorem gives_class {overflow : EmissionFault} {name : String} (hp : p.Sound checked)
    (hover : expected overflow) : Gives checked expected (constant overflow (Pool.addClass name)) p
      fun i q => q.className? i = some (Dotted.slashed name) :=
  gives_constant (fun _ _ hrun => Pool.spec_addClass hp hrun) hover

/-! ### Interfaces and fields -/

/-- Interfaces with names of their own, also apart from those seen, become classes. -/
theorem gives_interfaces (before : List String) {names : List String} {seen : List UInt16}
    (hp : p.Sound checked) (hover : expected .poolOverflow)
    (hseen : ∀ i ∈ seen, ∃ name ∈ before, p.className? i = some (Dotted.slashed name))
    (hnodup : ((before ++ names).map Dotted.slashed).Nodup) :
    Gives checked expected (interfaces seen names) p fun is q =>
      ∀ i ∈ is, ∃ name, q.className? i = some name := by
  induction names generalizing p before seen with
  | nil => exact .pure hp (List.forall_mem_nil _)
  | cons name rest ih =>
    refine (gives_class hp hover).bind fun i q hq hpq hi => ?_
    -- A place that has been seen holds a name that came before.
    have hnew : i ∉ seen := by
      intro hmem
      obtain ⟨other, hother, hname⟩ := hseen i hmem
      rw [hpq.className? hname, Option.some.injEq] at hi
      rw [List.map_append, List.map_cons, List.nodup_append] at hnodup
      exact hnodup.2.2 _ (List.mem_map_of_mem hother) _ List.mem_cons_self hi
    simp only [if_neg hnew]
    refine (ih (before ++ [name]) hq (fun j hj => ?_) (by simpa using hnodup)).bind
      fun is r hr hqr his => .pure hr (List.forall_mem_cons.2 ⟨⟨_, hqr.className? hi⟩, his⟩)
    rcases List.mem_cons.1 hj with rfl | hj
    · exact ⟨name, by simp, hi⟩
    · obtain ⟨other, hother, hname⟩ := hseen j hj
      exact ⟨other, List.mem_append_left _ hother, hpq.className? hname⟩

/-- What a field has become. -/
def IsField (q : Pool) (m : Member) : Prop :=
  (∃ name, q.utf8? m.name = some name) ∧ ∃ ty : Ty, ty.IsWritable ∧
    q.utf8? m.descriptor = some ty.descriptor

theorem IsField.mono {m : Member} (h : IsField p m) (hext : p.Extends q) : IsField q m := by
  obtain ⟨⟨name, hname⟩, ty, hty, hdescriptor⟩ := h
  exact ⟨⟨name, hext.utf8? hname⟩, ty, hty, hext.utf8? hdescriptor⟩

theorem gives_fields (seen : List String) {fs : List Field} (hp : p.Sound checked)
    (hover : expected .poolOverflow) (hnodup : (seen ++ fs.map (·.name)).Nodup)
    (hfs : ∀ f ∈ fs, f.type.IsWritable) :
    Gives checked expected (fields seen fs) p fun ms q => ∀ m ∈ ms, IsField q m := by
  induction fs generalizing p seen with
  | nil => exact .pure hp (List.forall_mem_nil _)
  | cons f rest ih =>
    obtain ⟨hf, hrest⟩ := List.forall_mem_cons.1 hfs
    have hnew : f.name ∉ seen := fun hmem => by
      rw [List.map_cons, List.nodup_append] at hnodup
      exact hnodup.2.2 _ hmem _ List.mem_cons_self rfl
    have hnodup : (f.name :: seen ++ rest.map (·.name)).Nodup := by
      rw [List.map_cons] at hnodup
      exact List.perm_middle.nodup_iff.1 hnodup
    rw [fields]
    simp only [if_neg hnew]
    refine (gives_utf8 hp hover).bind fun name q hq _ hname => ?_
    refine (gives_utf8 hq hover).bind fun descriptor r hr hqr hdescriptor => ?_
    refine (ih _ hr hnodup hrest).bind fun ms s hs hrs hms => .pure hs ?_
    refine List.forall_mem_cons.2 ⟨?_, hms⟩
    exact ⟨⟨_, (hqr.trans hrs).utf8? hname⟩, f.type, hf, hrs.utf8? hdescriptor⟩

end Emit

/-! ### Methods -/

namespace Method

/-- A method whose body can be turned into code. -/
structure IsEmittable (checked : Prop) (h : Hierarchy) (unit : String) (m : Method) : Prop where
  body : ∃ body, m.body = some body ∧ ∀ hasClassConstants,
    (CodeContext.mk unit m body hasClassConstants).TypedBlock True checked body.block
  vars : ∀ ty ∈ m.variableTypes, ty.isVoid = false
  params : ∀ ty ∈ m.params, ty.isVoid = false
  check : m.check h = .ok ()
  -- The verifier compares slots with those that a word could count.
  slots : checked → ∀ body ∈ m.body, ∀ hasClassConstants,
    (⟨unit, m, body, hasClassConstants⟩ : CodeContext).slotsNeeded ≤ 65535

/-- The attributes under which a number of declared failures are filed, each of them a class. -/
def FilesClasses (pool : Pool) (attributes : List Attribute) (count : Nat) : Prop :=
  attributes = [] ∨ ∃ i classes, pool.utf8? i = some ClassFile.exceptionsName ∧
    (∀ k ∈ classes, ∃ name, pool.className? k = some name) ∧ classes.length = count ∧
      attributes = [⟨i, ClassFile.encodeList Word.bytes16 classes⟩]

/-- A method has become a member with code that the verifier accepts. -/
structure IsWritten (checked : Prop) (m : Method) (unit : String) (major : UInt16) (pool : Pool)
    (member : Member) (code : CodeAttribute) : Prop where
  isCode : m.IsCode unit major pool (some code)
  access : member.access = m.access
  name : pool.utf8? member.name = some m.name
  descriptor : pool.utf8? member.descriptor = some m.descriptor
  files : ∃ i failures, pool.utf8? i = some ClassFile.codeName ∧
    member.attributes = ⟨i, code.encode⟩ :: failures ∧
      FilesClasses pool failures m.throws.length
  verified : checked → CodeAttribute.returnFor m.descriptor = Draft.returnOp m.result →
    ∀ q, pool.Extends q → code.verify q m.descriptor = .ok ()

variable {m : Method} {unit : String} {major : UInt16} {p q : Pool} {checked : Prop}
  {expected : EmissionFault → Prop} {member : Member} {code : CodeAttribute} {h : Hierarchy}

theorem FilesClasses.mono {attributes : List Attribute} {count : Nat}
    (h : FilesClasses p attributes count) (hext : p.Extends q) :
    FilesClasses q attributes count := by
  rcases h with h | ⟨i, classes, hi, hclasses, hcount, h⟩
  · exact .inl h
  · refine .inr ⟨i, classes, hext.utf8? hi, fun k hk => ?_, hcount, h⟩
    obtain ⟨name, hname⟩ := hclasses k hk
    exact ⟨name, hext.className? hname⟩

theorem IsWritten.mono (h : m.IsWritten checked unit major p member code) (hext : p.Extends q) :
    m.IsWritten checked unit major q member code := by
  obtain ⟨i, failures, hi, hattributes, hfailures⟩ := h.files
  exact {
    isCode := h.isCode.mono hext
    access := h.access
    name := hext.utf8? h.name
    descriptor := hext.utf8? h.descriptor
    files := ⟨i, failures, hext.utf8? hi, hattributes, hfailures.mono hext⟩
    verified := fun hchecked hreturn r hr => h.verified hchecked hreturn r (hext.trans hr) }

/-- What is at fault where a method cannot be written: the pool is full, or something in the
    body is too large. -/
def Explains (m : Method) (unit : String) (major : UInt16) (fault : EmissionFault) : Prop :=
  ∃ f body, fault = .method m.label (.lowering f) ∧ m.body = some body ∧
    (⟨unit, m, body, 49 ≤ major⟩ : CodeContext).IsTooLarge f

theorem gives_codeAttributes (hm : m.IsEmittable checked h unit) (hp : p.Sound checked)
    (hfault : ∀ fault, m.Explains unit major fault → expected fault) :
    Emit.Gives checked expected (m.codeAttributes unit major) p fun attributes q =>
      ∃ i, ∃ code : CodeAttribute, q.utf8? i = some ClassFile.codeName ∧
        attributes = [⟨i, code.encode⟩] ∧ m.IsCode unit major q (some code) ∧
        (checked → CodeAttribute.returnFor m.descriptor = Draft.returnOp m.result →
          ∀ r, q.Extends r → code.verify r m.descriptor = .ok ()) := by
  obtain ⟨body, hbody, htyped⟩ := hm.body
  rw [codeAttributes, hbody]
  let c : CodeContext := ⟨unit, m, body, 49 ≤ major⟩
  have hvalues : c.HasValues := ⟨hbody, hm.vars, hm.params⟩
  -- The pool goes on growing until the class is complete, so the code is accepted with any pool
  -- that extends the one it was lowered with.
  have hcode : Emit.Gives checked expected
      (fun pool => (c.lower pool).mapError fun fault => .method m.label (.lowering fault)) p
      fun (code : CodeAttribute) q => m.IsCode unit major q (some code) ∧
        (checked → CodeAttribute.returnFor m.descriptor = Draft.returnOp m.result →
          ∀ r, q.Extends r → code.verify r m.descriptor = .ok ()) := by
    rw [Emit.Gives]
    rcases CodeContext.lower_cases hvalues hm.check (htyped _) hp with
      ⟨d, s, hlower, hfinished⟩ | ⟨f, hlower, hlarge⟩
    · obtain ⟨-, hext⟩ := CodeContext.grows_lower hlower
        ⟨hp.small, hp.laidOut, False.elim, hp.index⟩
      rw [hlower]
      refine ⟨hfinished.pool ▸ s.drawn.pool, hext,
        ⟨body, p, d.pool, hbody, hlower, Pool.Extends.refl _⟩, fun hchecked hreturn r hr => ?_⟩
      exact hfinished.verify_eq_ok hchecked (hm.slots hchecked body hbody _) hr hreturn
    · rw [hlower]
      exact hfault _ ⟨f, body, rfl, hbody, hlarge⟩
  refine hcode.bind fun code q hq hpq hwritten => ?_
  obtain ⟨hcode, hverified⟩ := hwritten
  have hover : expected (.method m.label (.lowering .poolOverflow)) :=
    hfault _ ⟨.poolOverflow, body, rfl, hbody, trivial⟩
  refine (Emit.gives_utf8 hq hover).bind fun i r hr hqr hi => .pure hr ?_
  exact ⟨i, code, hi, rfl, hcode.mono hqr,
    fun hchecked hreturn t ht => hverified hchecked hreturn t (hqr.trans ht)⟩

theorem gives_thrownClasses {tys : List Ty} (hp : p.Sound checked)
    (hover : expected (.method m.label (.lowering .poolOverflow))) :
    Emit.Gives checked expected (m.thrownClasses tys) p fun classes q =>
      classes.length = tys.length ∧ ∀ k ∈ classes, ∃ name, q.className? k = some name := by
  induction tys generalizing p with
  | nil => exact .pure hp ⟨rfl, List.forall_mem_nil _⟩
  | cons ty rest ih =>
    refine (Emit.gives_class hp hover).bind fun i q hq _ hi => ?_
    refine (ih hq).bind fun classes r hr hqr hclasses => .pure hr ?_
    obtain ⟨hlength, hclasses⟩ := hclasses
    exact ⟨congrArg (· + 1) hlength, List.forall_mem_cons.2 ⟨⟨_, hqr.className? hi⟩, hclasses⟩⟩

theorem gives_failureAttributes (hp : p.Sound checked)
    (hover : expected (.method m.label (.lowering .poolOverflow))) :
    Emit.Gives checked expected m.failureAttributes p fun attributes q =>
      FilesClasses q attributes m.throws.length := by
  rw [failureAttributes]
  cases hthrows : m.throws.isEmpty with
  | true => exact .pure hp (.inl rfl)
  | false =>
    refine (gives_thrownClasses hp hover).bind fun classes q hq _ hclasses => ?_
    obtain ⟨hlength, hclasses⟩ := hclasses
    refine (Emit.gives_utf8 hq hover).bind fun i r hr hqr hi => .pure hr ?_
    refine .inr ⟨i, classes, hi, fun k hk => ?_, hlength, rfl⟩
    obtain ⟨name, hname⟩ := hclasses k hk
    exact ⟨name, hqr.className? hname⟩

/-- Methods with labels of their own become members. -/
theorem gives_methods (seen : List String) {methods : List Method} (hp : p.Sound checked)
    (hmethods : ∀ m ∈ methods, m.IsEmittable checked h unit)
    (hfault : ∀ m ∈ methods, ∀ fault, m.Explains unit major fault → expected fault)
    (hnodup : (seen ++ methods.map label).Nodup) :
    Emit.Gives checked expected (Emit.methods unit major seen methods) p fun members q =>
      ∃ entries : List (Member × CodeAttribute), members = entries.map (·.1) ∧
        List.Forall₂ (fun m e => m.IsWritten checked unit major q e.1 e.2) methods entries := by
  induction methods generalizing p seen with
  | nil => exact .pure hp ⟨[], rfl, .nil⟩
  | cons m rest ih =>
    obtain ⟨hm, hrest⟩ := List.forall_mem_cons.1 hmethods
    obtain ⟨hmfault, hrestfault⟩ := List.forall_mem_cons.1 hfault
    have hnew : m.label ∉ seen := fun hmem => by
      rw [List.map_cons, List.nodup_append] at hnodup
      exact hnodup.2.2 _ hmem _ List.mem_cons_self rfl
    have hnodup : (m.label :: seen ++ rest.map label).Nodup := by
      rw [List.map_cons] at hnodup
      exact List.perm_middle.nodup_iff.1 hnodup
    have hover : expected (.method m.label (.lowering .poolOverflow)) := by
      obtain ⟨body, hbody, -⟩ := hm.body
      exact hmfault _ ⟨.poolOverflow, body, rfl, hbody, trivial⟩
    rw [Emit.methods]
    simp only [if_neg hnew]
    -- What is found in the pool after one step is still found after all later ones.
    refine (Emit.gives_utf8 hp hover).bind fun name p₁ hp₁ _ hname => ?_
    refine (Emit.gives_utf8 hp₁ hover).bind fun descriptor p₂ hp₂ hext₂ hdescriptor => ?_
    refine (gives_codeAttributes hm hp₂ hmfault).bind fun files p₃ hp₃ hext₃ hfiles => ?_
    refine (gives_failureAttributes hp₃ hover).bind fun failures p₄ hp₄ hext₄ hfailures => ?_
    refine (ih _ hp₄ hrest hrestfault hnodup).bind fun others p₅ hp₅ hext₅ hothers => .pure hp₅ ?_
    obtain ⟨entries, rfl, hentries⟩ := hothers
    obtain ⟨i, code, hi, rfl, hcode, hverified⟩ := hfiles
    have hwritten : m.IsWritten checked unit major p₄
        { access := m.access, name, descriptor, attributes := [⟨i, code.encode⟩] ++ failures }
        code := {
      isCode := hcode.mono hext₄
      access := rfl
      name := ((hext₂.trans hext₃).trans hext₄).utf8? hname
      descriptor := (hext₃.trans hext₄).utf8? hdescriptor
      files := ⟨i, failures, hext₄.utf8? hi, rfl, hfailures⟩
      verified := fun hchecked hreturn r hr => hverified hchecked hreturn r (hext₄.trans hr) }
    exact ⟨(_, code) :: entries, rfl, .cons (hwritten.mono hext₅) hentries⟩

end Method

/-! ### Classes -/

namespace Blueprint

/-- No interface is listed twice, and no two fields or methods go by one name; methods by their
    names and descriptors. -/
structure HasDistinctMembers (b : Blueprint) : Prop where
  interfaces : (b.interfaces.map Dotted.slashed).Nodup
  fields : (b.fields.map (·.name)).Nodup
  methods : (b.methods.map Method.label).Nodup

/-- A blueprint that can be emitted. -/
structure IsEmittable (checked : Prop) (h : Hierarchy) (b : Blueprint) : Prop where
  distinct : b.HasDistinctMembers
  fields : ∀ f ∈ b.fields, f.type.IsWritable
  methods : ∀ m ∈ b.methods, m.IsEmittable checked h b.name

/-- What is at fault where a class file cannot be emitted: the pool is full, or something in a
    method is too large. -/
def Explains (b : Blueprint) (major : UInt16) (fault : EmissionFault) : Prop :=
  fault = .poolOverflow ∨ ∃ m ∈ b.methods, m.Explains b.name major fault

/-- A class file that the verifier accepts, if it can be written. -/
structure IsWritten (checked : Prop) (b : Blueprint) (major : UInt16) (cf : ClassFile) : Prop where
  version : cf.major = major
  sound : cf.pool.Sound checked
  thisClass : ∃ name, cf.pool.className? cf.thisClass = some name
  superClass : ∃ name, cf.pool.className? cf.superClass = some name
  interfaces : ∀ i ∈ cf.interfaces, ∃ name, cf.pool.className? i = some name
  fields : ∀ f ∈ cf.fields, Emit.IsField cf.pool f
  methods : ∃ entries : List (Member × CodeAttribute), cf.methods = entries.map (·.1) ∧
    List.Forall₂ (fun m e => m.IsWritten checked b.name major cf.pool e.1 e.2) b.methods entries

variable {b : Blueprint} {checked : Prop} {h : Hierarchy} {major : UInt16}

/-- A blueprint becomes a class file, unless something is too large. -/
theorem classFile_cases (hb : b.IsEmittable checked h) (major : UInt16) :
    (∃ cf, b.classFile major = .ok cf ∧ b.IsWritten checked major cf) ∨
      ∃ fault, b.classFile major = .error fault ∧ b.Explains major fault := by
  have hover : b.Explains major .poolOverflow := .inl rfl
  have hgives : Emit.Gives checked (b.Explains major) (b.emit major) {} fun cf q =>
      b.IsWritten checked major cf := by
    -- The parts are added one after the other, and the pool only grows on the way.
    rw [emit]
    refine (Emit.gives_class Pool.sound_empty hover).bind fun this p₁ hp₁ _ hthis => ?_
    refine (Emit.gives_class hp₁ hover).bind fun super p₂ hp₂ hext₂ hsuper => ?_
    refine (Emit.gives_interfaces [] hp₂ hover (List.forall_mem_nil _)
      hb.distinct.interfaces).bind fun interfaces p₃ hp₃ hext₃ hinterfaces => ?_
    refine (Emit.gives_fields [] hp₃ hover hb.distinct.fields hb.fields).bind
      fun fields p₄ hp₄ hext₄ hfields => ?_
    refine (Method.gives_methods [] hp₄ hb.methods
      (fun m hm fault hfault => .inr ⟨m, hm, hfault⟩) hb.distinct.methods).bind
      fun methods p₅ hp₅ hext₅ hmethods => ?_
    refine (Emit.gives_get hp₅).bind fun pool p₆ hp₆ hext₆ hpool => ?_
    subst hpool
    have hext : p₃.Extends pool := (hext₄.trans hext₅).trans hext₆
    obtain ⟨entries, rfl, hentries⟩ := hmethods
    refine .pure hp₆ ⟨rfl, hp₆, ⟨_, ((hext₂.trans hext₃).trans hext).className? hthis⟩,
      ⟨_, (hext₃.trans hext).className? hsuper⟩, fun i hi => ?_, fun f hf => ?_,
      entries, rfl, hentries.imp fun _ _ he => he.mono hext₆⟩
    · obtain ⟨name, hname⟩ := hinterfaces i hi
      exact ⟨name, hext.className? hname⟩
    · exact (hfields f hf).mono (hext₅.trans hext₆)
  rw [Emit.Gives] at hgives
  cases hrun : b.emit major {} with
  | error fault =>
    rw [hrun] at hgives
    refine .inr ⟨fault, ?_, hgives⟩
    show (b.emit major {} >>= fun r => Except.ok r.1) = _
    rw [hrun]
    rfl
  | ok r =>
    rw [hrun] at hgives
    refine .inl ⟨r.1, ?_, hgives.2.2⟩
    show (b.emit major {} >>= fun r => Except.ok r.1) = _
    rw [hrun]
    rfl

end Blueprint

/-! ### Verification -/

namespace Member

theorem wordsOf_flatMap (words : List UInt16) : wordsOf (words.flatMap Word.bytes16) = words := by
  induction words with
  | nil => rfl
  | cons w rest ih =>
    rw [List.flatMap_cons]
    exact congrArg₂ List.cons (Word.of16_bytes16 w) ih

end Member

namespace Method

variable {m : Method} {unit : String} {major : UInt16} {p : Pool} {checked : Prop}
  {member : Member} {code : CodeAttribute}

theorem IsWritten.isEmitted (h : m.IsWritten checked unit major p member code) :
    m.IsEmitted unit major p member (some code) := by
  obtain ⟨i, failures, hi, hattributes, hfailures⟩ := h.files
  refine ⟨h.isCode, [⟨i, code.encode⟩], failures, hattributes, ⟨i, hi, rfl⟩, ?_⟩
  rcases hfailures with hnone | ⟨j, classes, hj, -, hcount, hfailures⟩
  · exact .inl hnone
  · exact .inr ⟨j, classes, hj, hcount, hfailures⟩

/-- The failures that a member declares are classes. -/
theorem IsWritten.declaredFailures (h : m.IsWritten checked unit major p member code) :
    ∀ k ∈ member.declaredFailures p, ∃ name, p.className? k = some name := by
  obtain ⟨i, failures, hi, hattributes, hfailures⟩ := h.files
  have hcode : (p.utf8? i == some ClassFile.exceptionsName) = false := by rw [hi]; decide
  rw [Member.declaredFailures, Member.attribute?, hattributes, List.find?_cons, hcode]
  rcases hfailures with rfl | ⟨j, classes, hj, hclasses, -, rfl⟩
  · exact fun k hk => absurd hk List.not_mem_nil
  · have hname : (p.utf8? j == some ClassFile.exceptionsName) = true := by rw [hj]; decide
    simp only [List.find?_cons, hname]
    intro k hk
    have hdrop : (ClassFile.encodeList Word.bytes16 classes).drop 2 =
        classes.flatMap Word.bytes16 := rfl
    rw [hdrop, Member.wordsOf_flatMap] at hk
    exact hclasses k hk

/-- The verifier accepts a method that has become a member whose code it finds. -/
theorem IsWritten.verify_eq_ok (h : m.IsWritten True unit major p member code)
    (hcode : member.code? p = some code)
    (haccess : m.access &&& (Modifiers.abstractBit ||| Modifiers.nativeBit) = 0)
    (hreturn : CodeAttribute.returnFor m.descriptor = Draft.returnOp m.result) :
    member.verify p = .ok () := by
  have hutf8 : ∀ {i : UInt16} {s : String}, p.utf8? i = some s →
      Member.expectKind p i Constant.isUtf8 = .ok () := by
    intro i s hi
    rw [Member.expectKind, Pool.utf8?_eq_some.1 hi]
    rfl
  refine (Member.verify_eq_ok_iff hcode).2
    ⟨hutf8 h.name, hutf8 h.descriptor, fun k hk => ?_, ?_, ?_⟩
  · obtain ⟨name, hname⟩ := h.declaredFailures k hk
    obtain ⟨j, hj, -⟩ := Pool.className?_eq_some.1 hname
    rw [Member.expectKind, hj]
    rfl
  · rw [Member.isBodiless, h.access, haccess]
    rfl
  · rw [h.descriptor, Option.getD_some]
    exact h.verified trivial hreturn p (Pool.Extends.refl p)

end Method

namespace Blueprint

variable {b : Blueprint} {major : UInt16} {cf : ClassFile}

/-- A blueprint with methods that have bodies, and return what their descriptors say. -/
structure ReturnsResults (b : Blueprint) : Prop where
  access : ∀ m ∈ b.methods, m.access &&& (Modifiers.abstractBit ||| Modifiers.nativeBit) = 0
  returns : ∀ m ∈ b.methods,
    CodeAttribute.returnFor m.descriptor = Draft.returnOp m.result

/-- A class file that has been emitted is accepted where it can be written. -/
theorem IsWritten.ofVerifiedBytes (h : b.IsWritten True major cf)
    (hcf : b.classFile major = .ok cf) (hb : b.ReturnsResults)
    (hmajor : ClassFile.minMajor ≤ major ∧ major ≤ ClassFile.maxMajor)
    (hw : ∀ entries : List (Member × Option CodeAttribute), cf.methods = entries.map (·.1) →
      List.Forall₂ (fun m e => m.IsEmitted b.name major cf.pool e.1 e.2) b.methods entries →
        b.IsWritable cf (entries.map (·.2))) :
    ∃ read, ClassFile.ofVerifiedBytes cf.encode = .ok read := by
  obtain ⟨entries, hmethods, hentries⟩ := h.methods
  let emitted : List (Member × Option CodeAttribute) := entries.map fun e => (e.1, some e.2)
  have hemitted : List.Forall₂ (fun m e => m.IsEmitted b.name major cf.pool e.1 e.2) b.methods
      emitted :=
    List.forall₂_map_right_iff.2 (hentries.imp fun _ _ he => he.isEmitted)
  have hfiled : cf.methods = emitted.map (·.1) := by simp [emitted, hmethods]
  obtain ⟨hfits, hcodes⟩ := fits_classFile hcf hfiled hemitted (hw emitted hfiled hemitted)
  have hclass : ∀ {i : UInt16} {flaw : ClassFlaw}, (∃ name, cf.pool.className? i = some name) →
      ClassFile.verifyClass { cf with pool := cf.pool.unindexed } i flaw = .ok () := by
    rintro i flaw ⟨name, hname⟩
    obtain ⟨j, hj, -⟩ := Pool.className?_eq_some.1 hname
    rw [ClassFile.verifyClass, if_pos]
    show (cf.pool.get? i).any _ = true
    rw [hj]
    rfl
  have hverify : ClassFile.verify { cf with pool := cf.pool.unindexed } = .ok () := by
    refine ClassFile.verify_eq_ok_iff.2 ⟨?_, (h.sound.formed trivial).unindexed.verify_eq_ok,
      hclass h.thisClass, hclass h.superClass, fun i hi => hclass (h.interfaces i hi),
      fun f hf => ?_, fun m hm => ?_⟩
    · rw [h.version, Bool.and_eq_true, decide_eq_true_eq, decide_eq_true_eq]
      exact hmajor
    · obtain ⟨⟨name, hname⟩, ty, hty, hdescriptor⟩ := h.fields f hf
      have hname : cf.pool.unindexed.utf8? f.name = some name := hname
      have hdescriptor : cf.pool.unindexed.utf8? f.descriptor = some ty.descriptor := hdescriptor
      rw [ClassFile.verifyField, hname]
      simp only [hdescriptor]
      exact if_pos hty
    · have hm : m ∈ cf.methods := hm
      rw [hmethods] at hm
      obtain ⟨e, he, rfl⟩ := List.mem_map.1 hm
      obtain ⟨k, hk, rfl⟩ := List.mem_iff_getElem.1 he
      have hk' : k < b.methods.length := hentries.length_eq ▸ hk
      have hcode : entries[k].1.code? cf.pool.unindexed = some entries[k].2 :=
        hcodes (entries[k].1, some entries[k].2) (List.mem_map.2 ⟨entries[k], he, rfl⟩)
      -- The pool that has been read has the same entries.
      have hext : cf.pool.Extends cf.pool.unindexed := fun _ _ hget => hget
      exact ((hentries.get hk' hk).mono hext).verify_eq_ok hcode
        (hb.access _ (List.getElem_mem hk')) (hb.returns _ (List.getElem_mem hk'))
  refine ⟨{ cf with pool := cf.pool.unindexed }, ?_⟩
  rw [ClassFile.ofVerifiedBytes, ClassFile.ofBytes_encode hfits]
  show (do ClassFile.verify { cf with pool := cf.pool.unindexed }; pure _) = _
  rw [hverify]
  rfl

end Blueprint

end ComponentViews
