import ComponentViews.Proofs.Code.Bodies

/-!
# Discipline of finished code

In the finished code of a typed body, control comes only to offsets where lines begin, with the
depths of the stack that the sketch of the code has there (`Sketch.Finished.reaches_at`). So
each instruction has one depth, which is enough for what it takes and within the stack of the
method; and where the method needs no more slots than a word can count, loads and stores keep to
the slots that it is given (`CodeContext.lower_disciplined`).

Two things are in the way of more. Names can mislead, and a method that needs more slots is given
what the word happens to hold (`CodeContext.undisciplined_probes`).
-/

namespace ComponentViews

open Draft
open Lines (IsStart extent)

namespace Line

variable {place : Label → Nat} {pc : Nat} {l : Line}

/-! ### Instructions of lines -/

theorem effect?_resolve (p : Pool) : (l.resolve place pc).effect? p = l.blank.effect? p := by
  cases l <;> rfl

theorem lastSlot?_resolve : (l.resolve place pc).lastSlot? = l.blank.lastSlot? := by
  cases l <;> rfl

/-- A machine knows the instruction of a line that is not too large. -/
theorem isKnown_resolve
    (h : l.blank.isKnown = true ∨ ∃ otherwise cases, l.blank = .switch otherwise cases)
    (hsize : l.blank.size pc ≤ Assembly.maxSize) : (l.resolve place pc).isKnown = true := by
  cases l with
  | instr i =>
    rcases h with h | ⟨otherwise, cases, hi⟩
    · exact h
    · rw [show i = .switch otherwise cases from hi] at hsize ⊢
      rw [Line.blank, Instruction.size, Assembly.maxSize] at hsize
      exact decide_eq_true (by omega)
  | jump op label =>
    rcases h with h | ⟨otherwise, cases, hi⟩
    · exact h
    · cases hi
  | switch otherwise cases =>
    rw [Line.blank, Instruction.size, List.length_map, Assembly.maxSize] at hsize
    exact decide_eq_true (by rw [List.length_map]; omega)

end Line

/-! ### Control in finished code -/

namespace Sketch.Finished

variable {c : CodeContext} {checked : Prop} {room : Nat} {s : Sketch c checked room} {d : Draft}

/-- Where a line begins, its instruction is fetched. -/
theorem fetch?_eq (h : s.Finished d) {before after : List Line} {l : Line}
    (hlines : s.lines = before ++ l :: after) :
    Instruction.fetch? (CodeContext.codeOf d).code (extent before) =
      some (l.resolve (Assembly.placeOf s.labels) (extent before)) := by
  have hl : l ∈ s.lines := by
    rw [hlines]
    exact List.mem_append_right _ List.mem_cons_self
  have hle : extent before + l.blank.size (extent before) ≤ extent s.lines := by
    rw [← Lines.extent_append_singleton]
    exact Lines.extent_le_of_eq (hlines.trans (List.append_cons before l after))
  have hsmall := h.small
  have hknown : (l.resolve (Assembly.placeOf s.labels) (extent before)).isKnown = true :=
    Line.isKnown_resolve (s.drawn.drawn l hl).accepted.known (by omega)
  obtain ⟨front, back, hfront, hcode⟩ :=
    Lines.encodeAll_resolve (Assembly.placeOf s.labels) before l after
  have hcode : (CodeContext.codeOf d).code = _ := h.code.trans (hlines ▸ hcode)
  rw [hcode, ← hfront]
  rw [← hfront] at hknown
  exact Instruction.fetch?_encode hknown front back

/-- Lines that control goes on from have a line behind them. -/
theorem isStart_next (h : s.Finished d) {before after : List Line} {l : Line}
    (hlines : s.lines = before ++ l :: after) (hgoes : Opcode.isTerminal l.blank.opcode = false) :
    IsStart s.lines (extent (before ++ [l])) := by
  rcases after with _ | ⟨next, after⟩
  · obtain ⟨last, hlast, hterminal⟩ := s.drawn.ends h.dead
    rw [hlines, List.getLast?_concat, Option.some.injEq] at hlast
    rw [hlast, hterminal] at hgoes
    cases hgoes
  · rw [hlines, List.append_cons]
    exact Lines.isStart_extent _ next after

/-- Where a jump leads a line begins, with an empty stack. -/
theorem isStart_place (h : s.Finished d) {l : Line} (hl : l ∈ s.lines) {label : Label}
    (hlabel : label ∈ l.labels) :
    IsStart s.lines (Assembly.placeOf s.labels label) ∧
      s.depths (Assembly.placeOf s.labels label) = 0 := by
  obtain ⟨st, hst, hdepth⟩ := (s.drawn.drawn l hl).noted label hlabel
  have hdrawn := s.drawn.labels label.id st hst
  obtain ⟨pc, hpc⟩ := h.placed label.id (Array.getElem?_eq_some_iff.1 hst).1
  have hplace : Assembly.placeOf s.labels label = pc := by
    rw [Assembly.placeOf, hpc, Option.getD_some]
  rw [show s.labels[label.id]? = some st from hst, Option.bind_some] at hpc
  rw [hplace]
  refine ⟨(hdrawn.bound pc hpc).resolve_right fun hend => ?_, hdrawn.empty pc hpc hdepth⟩
  have halive := hdrawn.reached (hend ▸ hpc) hdepth
  rw [h.dead] at halive
  cases halive

/-- Code begins with a line, where the stack is empty. -/
theorem isStart_zero (h : s.Finished d) : IsStart s.lines 0 ∧ s.depths 0 = 0 := by
  have hpos := s.drawn.extent_pos h.dead
  refine ⟨(?_ : Lines.IsBound s.lines 0).isStart hpos, s.drawn.first⟩
  cases hlines : s.lines with
  | nil => exact Lines.isBound_extent []
  | cons l rest => exact .inl (Lines.isStart_extent [] l rest)

/-- The line behind one that control goes on from has the depth that the instruction leaves. -/
theorem reaches_next (h : s.Finished d) {before after : List Line} {l : Line} {takes pushes : Nat}
    (hlines : s.lines = before ++ l :: after)
    (heffect : (l.resolve (Assembly.placeOf s.labels) (extent before)).effect? d.pool =
      some (takes, pushes)) (hgoes : Opcode.isTerminal l.blank.opcode = false) :
    IsStart s.lines (extent (before ++ [l])) ∧
      (s.depths (extent before) : Int) - takes + pushes = s.depths (extent (before ++ [l])) := by
  rw [Line.effect?_resolve, h.pool] at heffect
  obtain ⟨takes', pushes', heffect', -, -, hmoves⟩ := s.drawn.moves before l after hlines
  rw [heffect, Option.some.injEq, Prod.mk.injEq] at heffect'
  obtain ⟨rfl, rfl⟩ := heffect'
  have hmoves := hmoves hgoes
  exact ⟨h.isStart_next hlines hgoes, by omega⟩

/-- Where the instruction of a line jumps to, another begins, and both leave the stack empty. -/
theorem reaches_jump (h : s.Finished d) {before after : List Line} {l : Line}
    {takes pushes target : Nat} (hlines : s.lines = before ++ l :: after)
    (heffect : (l.resolve (Assembly.placeOf s.labels) (extent before)).effect? d.pool =
      some (takes, pushes))
    (htarget : (target : Int) ∈
      (l.resolve (Assembly.placeOf s.labels) (extent before)).targets (extent before)) :
    IsStart s.lines target ∧
      (s.depths (extent before) : Int) - takes + pushes = s.depths target := by
  have hsmall := h.small
  rw [Assembly.maxSize] at hsmall
  have hl : l ∈ s.lines := by
    rw [hlines]
    exact List.mem_append_right _ List.mem_cons_self
  have hlt := (show IsStart s.lines (extent before) from ⟨before, l, after, hlines, rfl⟩).lt
  rw [Line.effect?_resolve, h.pool] at heffect
  obtain ⟨label, hlabel, heq⟩ := Assembly.targets_resolve (hlines ▸ h.reaches).reaches
    (fun label hlabel => Nat.le_trans (Nat.le_of_lt (h.isStart_place hl hlabel).1.lt) h.small)
    (by rw [Assembly.maxSize]; omega) (s.drawn.drawn l hl).leads htarget
  obtain rfl := Int.ofNat.inj heq
  obtain ⟨takes', pushes', heffect', -, hempty, -⟩ := s.drawn.moves before l after hlines
  rw [heffect, Option.some.injEq, Prod.mk.injEq] at heffect'
  obtain ⟨rfl, rfl⟩ := heffect'
  obtain ⟨hdepth, hnone⟩ := hempty (List.ne_nil_of_mem hlabel)
  obtain ⟨hplace, hlevel⟩ := h.isStart_place hl hlabel
  exact ⟨hplace, by omega⟩

/-- A handler begins with a line, where the failure is alone on the stack. -/
theorem isStart_handler (h : s.Finished d) {e : ExceptionEntry}
    (he : e ∈ (CodeContext.codeOf d).table) :
    IsStart s.lines e.handler.toNat ∧ s.depths e.handler.toNat = 1 := by
  have hsmall := h.small
  rw [Assembly.maxSize] at hsmall
  have he : e ∈ d.asm.table.toList := he
  rw [h.table] at he
  obtain ⟨range, -, -, handler, catchType, hhandler, -, rfl⟩ := s.drawn.table _ he
  have hlt := hhandler.1.lt
  have htoNat : (UInt16.ofNat handler).toNat = handler :=
    UInt16.toNat_ofNat_of_lt' (show handler < 65536 by omega)
  rw [htoNat]
  exact hhandler

/-- Control comes to the beginnings of lines, with the depths that they have. -/
theorem reaches_at (h : s.Finished d) {pc : Nat} {depth : Int}
    (hreaches : (CodeContext.codeOf d).Reaches d.pool pc depth) :
    IsStart s.lines pc ∧ depth = s.depths pc := by
  induction hreaches with
  | start => exact ⟨h.isStart_zero.1, by rw [h.isStart_zero.2]; rfl⟩
  | next _ hfetch heffect hgoes ih =>
    obtain ⟨⟨before, l, after, hlines, rfl⟩, rfl⟩ := ih
    rw [h.fetch?_eq hlines, Option.some.injEq] at hfetch
    subst hfetch
    rw [Line.opcode_resolve] at hgoes
    rw [Line.size_resolve, ← Lines.extent_append_singleton]
    exact h.reaches_next hlines heffect hgoes
  | jump _ hfetch heffect htarget ih =>
    obtain ⟨⟨before, l, after, hlines, rfl⟩, rfl⟩ := ih
    rw [h.fetch?_eq hlines, Option.some.injEq] at hfetch
    subst hfetch
    exact h.reaches_jump hlines heffect htarget
  | fail _ hentry _ _ _ =>
    exact ⟨(h.isStart_handler hentry).1, by rw [(h.isStart_handler hentry).2]; rfl⟩

/-- What is finished keeps to its stack. -/
theorem keepsStack (h : s.Finished d) : (CodeContext.codeOf d).KeepsStack d.pool where
  runs := fun pc depth hreaches => by
    obtain ⟨⟨before, l, after, hlines, rfl⟩, rfl⟩ := h.reaches_at hreaches
    obtain ⟨takes, pushes, heffect, htakes, -⟩ := s.drawn.moves before l after hlines
    exact ⟨_, takes, pushes, h.fetch?_eq hlines,
      by rw [Line.effect?_resolve, h.pool, heffect], by omega⟩
  level := fun pc depth depth' hreaches hreaches' => by
    rw [(h.reaches_at hreaches).2, (h.reaches_at hreaches').2]
  bounded := fun pc depth hreaches => by
    obtain ⟨hstart, rfl⟩ := h.reaches_at hreaches
    have hpeak := s.drawn.peak (by rw [show s.depths (extent s.lines) = 0 from h.depth]; omega)
      pc (.inl hstart)
    have hmax := s.drawn.small
    have htoNat : (UInt16.ofNat d.asm.maxDepth).toNat = s.asm.maxDepth := by
      rw [h.maxDepth]
      exact UInt16.toNat_ofNat_of_lt' (Nat.lt_succ_of_le hmax)
    exact ⟨Int.natCast_nonneg _, Int.ofNat_le.2 (Nat.le_trans hpeak (Nat.le_of_eq htoNat.symm))⟩

/-- What is finished keeps to the slots that have been given away. -/
theorem keepsSlots (h : s.Finished d) : (CodeContext.codeOf d).KeepsSlots d.pool s.slots := by
  intro pc depth i slot hreaches hfetch hslot
  obtain ⟨⟨before, l, after, hlines, rfl⟩, -⟩ := h.reaches_at hreaches
  have hl : l ∈ s.lines := by
    rw [hlines]
    exact List.mem_append_right _ List.mem_cons_self
  rw [h.fetch?_eq hlines, Option.some.injEq] at hfetch
  subst hfetch
  rw [Line.lastSlot?_resolve] at hslot
  exact (s.drawn.drawn l hl).accepted.locals slot hslot

/-- A method that needs no more slots than a word can count is given those that were given
    away. -/
theorem toNat_maxLocals (h : s.Finished d) (hfew : c.slotsNeeded ≤ 65535) :
    (CodeContext.codeOf d).maxLocals.toNat = s.slots := by
  have hneeded := h.needed
  have hcount : (CodeContext.codeOf d).maxLocals.toNat = d.nextSlot % 65536 := UInt16.toNat_ofNat'
  rw [hcount, h.counted, Nat.mod_mod, Nat.mod_eq_of_lt (by omega)]

theorem disciplined (h : s.Finished d) (hfew : c.slotsNeeded ≤ 65535) :
    (CodeContext.codeOf d).Disciplined d.pool where
  toKeepsStack := h.keepsStack
  slots := by
    rw [h.toNat_maxLocals hfew]
    exact h.keepsSlots

end Sketch.Finished

namespace CodeContext

variable {c : CodeContext} {h : Hierarchy}

/-- The body is turned into code unless something is too large. -/
def IsLowered (c : CodeContext) (p : Pool) : Prop :=
  (∃ code q, c.lower p = .ok (code, q)) ∨ ∃ fault, c.lower p = .error fault ∧ c.IsTooLarge fault

/-- A typed body in which names do not mislead is turned into code that keeps to its stack, and to
    its slots where the method needs no more of them than a word can count. -/
theorem lower_disciplined (hc : c.HasValues) (hcheck : c.method.check h = .ok ())
    (htyped : c.TypedBlock True False c.body.block) {p : Pool} (hp : p.Sound False) :
    c.IsLowered p ∧ ∀ code q, c.lower p = .ok (code, q) →
      code.KeepsStack q ∧ (c.slotsNeeded ≤ 65535 → code.Disciplined q) := by
  rcases lower_cases hc hcheck htyped hp with
    ⟨d, s, hlower, hfinished⟩ | ⟨fault, hlower, hfault⟩
  · refine ⟨.inl ⟨_, _, hlower⟩, fun code q hok => ?_⟩
    rw [hlower, Except.ok.injEq, Prod.mk.injEq] at hok
    obtain ⟨rfl, rfl⟩ := hok
    exact ⟨hfinished.keepsStack, hfinished.disciplined⟩
  · refine ⟨.inr ⟨fault, hlower, hfault⟩, fun code q hok => ?_⟩
    rw [hlower] at hok
    cases hok

/-- A body with a region, whose exit block runs before the return and with every failure. -/
def guarded : CodeContext where
  unit := "acme.Probe"
  method := .ofBody "run" [.ofPrimitive .long] (.ofPrimitive .long) guardedBody
  body := guardedBody
  hasClassConstants := true
where
  guardedBody : Body :=
    { vars := [⟨"sum", .ofPrimitive .long⟩, ⟨"failure", .object⟩]
      block :=
        [.region
          [.assign 0 (.arg 0),
            .cond (.isNull .this) [.ret (some (.var 0))] [],
            .setField ⟨"acme.Probe", "sum", .ofPrimitive .long⟩ .this (.var 0)]
          [⟨some "acme.Failure", 1, [.throw (.var 1)]⟩]
          (some ⟨none, [.eval (.new "acme.Probe" [.object] [.null])]⟩),
        .ret (some (.const (.long 7)))] }

theorem lower_disciplined_guarded : guarded.HasValues ∧
    (∀ h, guarded.method.check h = .ok ()) ∧ guarded.TypedBlock True False guarded.body.block ∧
      ({} : Pool).Sound False ∧ guarded.slotsNeeded ≤ 65535 ∧
        ∃ code q, guarded.lower {} = .ok (code, q) ∧ code.Disciplined q := by
  have hvalues : guarded.HasValues := ⟨rfl, by decide, by decide⟩
  have hcheck : ∀ h, guarded.method.check h = .ok () := fun h => rfl
  have hinstance : (Ty.named "acme.Probe").isReference = true := by decide
  have hthis : guarded.Typed True False .this ∧ guarded.IsReference .this :=
    ⟨fun _ => hinstance, rfl⟩
  have hnew : guarded.Typed True False (.new "acme.Probe" [.object] [.null]) :=
    ⟨fun _ => ⟨hinstance, by decide⟩, ⟨nofun, trivial⟩, rfl, nofun⟩
  have hsum : guarded.Typed True False (.var 0) ∧
      guarded.kindOf? (.var 0) = (Ty.ofPrimitive .long).slotKind? := ⟨trivial, rfl⟩
  have htyped : guarded.TypedBlock True False guarded.body.block :=
    ⟨⟨⟨⟨trivial, rfl⟩, ⟨hthis, ⟨hsum, trivial⟩, trivial⟩, ⟨hthis, hsum, nofun⟩, trivial⟩,
      ⟨⟨⟨trivial, rfl⟩, trivial⟩, trivial⟩, hnew, trivial⟩, ⟨nofun, rfl⟩, trivial⟩
  have hfew : guarded.slotsNeeded ≤ 65535 := by decide
  obtain ⟨⟨code, q⟩, hcode, -⟩ : ∃ r, guarded.lower {} = .ok r ∧ True := by decide +kernel
  exact ⟨hvalues, hcheck, htyped, Pool.sound_empty, hfew, code, q, hcode,
    ((lower_disciplined hvalues (hcheck ⟨[]⟩) htyped Pool.sound_empty).2 code q hcode).2 hfew⟩

/-! ### Bodies that are not disciplined -/

/-- The body is turned into code unless something is too large, and its code keeps to its stack
    and its slots. -/
def IsDisciplined (c : CodeContext) (p : Pool) : Prop :=
  c.IsLowered p ∧ ∀ code q, c.lower p = .ok (code, q) → code.Disciplined q

/-- A method with nothing but a statement, in a class of the given name. -/
def probe (unit : String) (st : Stmt) : CodeContext where
  unit := unit
  method := .ofBody "run" [] .void (.ofBlock [st])
  body := .ofBlock [st]
  hasClassConstants := true

/-- A call with null for its one argument. Its descriptor tells of three. -/
def misread : Stmt :=
  .eval (.invokeStatic "acme.Known" "store" [.named "acme.A;ILacme.B"] .void [.null])

theorem not_isDisciplined_of_underflow {p : Pool} {depth : Nat} {delta : Int}
    (hlower : c.lower p = .error (.assembly (.stackUnderflow depth delta)))
    (hpeak : c.peakOfBlock c.body.block ≤ 65535) : ¬ c.IsDisciplined p := by
  rintro ⟨⟨code, q, hok⟩ | ⟨fault, herror, hlarge⟩, -⟩
  · rw [hlower] at hok
    cases hok
  · rw [hlower, Except.error.injEq] at herror
    subst herror
    exact Nat.not_le.2 hlarge hpeak

/-- The instance of a class called `long` takes one place on the stack, but is dropped like a
    number that takes two. -/
theorem lower_probe_new : (probe "acme.Probe" (.eval (.new "long" [] []))).lower {} =
    .error (.assembly (.stackUnderflow 1 (-2))) := rfl

theorem not_isDisciplined_misread : ¬ (probe "acme.Probe" misread).IsDisciplined {} := by
  let call := Instruction.word Opcode.invokestatic 6
  obtain ⟨code, q, hlower, hcode, heffect⟩ : ∃ code q,
      (probe "acme.Probe" misread).lower {} = .ok (code, q) ∧
        code.code = [Opcode.aconstNull, Opcode.invokestatic, 0, 6, Opcode.vreturn] ∧
          call.effect? q = some (3, 0) :=
    ⟨_, _, rfl, rfl, rfl⟩
  have hnull : Instruction.fetch? code.code 0 = some (.plain Opcode.aconstNull) := by
    rw [hcode]
    rfl
  have hcall : Instruction.fetch? code.code 1 = some call := by
    rw [hcode]
    rfl
  rintro ⟨-, hdisciplined⟩
  obtain ⟨i, takes, pushes, hfetch, htakes, hle⟩ :=
    (hdisciplined code q hlower).runs _ _ (.next .start hnull rfl rfl)
  rw [show Instruction.fetch? code.code (0 + _) = some call from hcall,
    Option.some.injEq] at hfetch
  rw [← hfetch, heffect, Option.some.injEq, Prod.mk.injEq] at htakes
  rw [← htakes.1] at hle
  exact absurd hle (by decide)

/-- More variables than a word can count slots for, of which the first is set. -/
def crowded : CodeContext where
  unit := "acme.Probe"
  method := { Method.ofBody "run" [] .void crowdedBody with access := Modifiers.staticBit }
  body := crowdedBody
  hasClassConstants := true
where
  crowdedBody : Body :=
    { vars := List.replicate 32768 ⟨"n", .ofPrimitive .long⟩
      block := [.assign 0 (.const (.long 0))] }

theorem variableTypes_crowded :
    crowded.method.variableTypes = List.replicate 32768 (.ofPrimitive .long) :=
  List.map_replicate

theorem fixedSlots_crowded : crowded.fixedSlots = 65536 := by
  have hargs : crowded.firstArg + slotsOf crowded.method.params = 0 := by decide
  have hvars : widths crowded.method.variableTypes = 65536 := by
    rw [variableTypes_crowded, widths, List.map_replicate, List.sum_replicate_nat,
      show width (.ofPrimitive .long) = 2 by decide]
  rw [fixedSlots, hargs, hvars]

/-- The word that counts slots holds zero again. -/
theorem firstFree_crowded : crowded.firstFree = 0 := by rw [firstFree_eq, fixedSlots_crowded]

theorem variableSlot_crowded : crowded.variableSlot 0 = pure (.ofPrimitive .long, 0) := by
  rw [variableSlot, variableTypes_crowded]
  rfl

/-- The method is given no slots at all, and stores into the first two. -/
theorem lower_crowded : ∃ code q, crowded.lower {} = .ok (code, q) ∧ code.maxLocals = 0 ∧
    code.code = [Opcode.lconst0, Opcode.lstore0, Opcode.vreturn] := by
  obtain ⟨d, hrun, hslots, hcode⟩ : ∃ d, crowded.wholeBody ⟨{}, {}, 0, []⟩ = .ok ((), d) ∧
      d.nextSlot = 0 ∧
        d.asm.code.toList = [Opcode.lconst0, Opcode.lstore0, Opcode.vreturn] := by
    apply Exists.intro
    apply And.intro
    case left =>
      apply bind_of_ok
      case hx =>
        apply bind_of_ok rfl
        apply bind_of_ok
        case hx =>
          rw [stmt, variableSlot_crowded]
          rfl
        case hf => rfl
      case hf => rfl
    case right => exact ⟨rfl, rfl⟩
  have hrun : crowded.wholeBody ⟨{}, {}, crowded.firstFree, []⟩ = .ok ((), d) := by
    rw [firstFree_crowded]
    exact hrun
  exact ⟨_, _, lower_of_ok hrun, by rw [codeOf, hslots]; rfl, hcode⟩

theorem not_isDisciplined_crowded : ¬ crowded.IsDisciplined {} := by
  obtain ⟨code, q, hlower, hlocals, hcode⟩ := lower_crowded
  have hconst : Instruction.fetch? code.code 0 = some (.plain Opcode.lconst0) := by
    rw [hcode]
    rfl
  have hstore : Instruction.fetch? code.code 1 = some (.plain Opcode.lstore0) := by
    rw [hcode]
    rfl
  rintro ⟨-, hdisciplined⟩
  have hslots := (hdisciplined code q hlower).slots _ _ _ _ (.next .start hconst rfl rfl) hstore rfl
  rw [hlocals] at hslots
  exact absurd hslots (by decide)

/-- A body is typed, but for its names, and its code is not disciplined. -/
def Undisciplined (c : CodeContext) : Prop :=
  c.HasValues ∧ (∀ h, c.method.check h = .ok ()) ∧ c.TypedBlock False False c.body.block ∧
    ¬ c.IsDisciplined {}

theorem undisciplined_crowded : crowded.Undisciplined := by
  have hvars : ∀ ty ∈ crowded.method.variableTypes, ty.isVoid = false := by
    rw [variableTypes_crowded]
    intro ty hty
    rw [List.eq_of_mem_replicate hty]
    rfl
  have hset : ∀ h, ∀ st ∈ crowded.body.block, (crowded.scope h).checkStmt st = .ok () := by
    intro h st hst
    rw [List.mem_singleton.1 hst]
    refine (Scope.checkStmt_assign _).2 ⟨?_, rfl⟩
    show 0 < (List.replicate 32768 _).length
    rw [List.length_replicate]
    decide
  exact ⟨⟨rfl, hvars, nofun⟩, fun h => (Method.check_iff rfl).2 ⟨hset h, .inl rfl⟩,
    ⟨⟨nofun, rfl⟩, trivial⟩, not_isDisciplined_crowded⟩

/-- Names can mislead: an instance of a class called `long`, be it `this` or a new one, is taken
    for a number, and the name of a parameter's class can go on with other parameters. And a word
    cannot count the slots of 32768 long variables. -/
theorem undisciplined_probes : (probe "long" (.eval .this)).Undisciplined ∧
    (probe "acme.Probe" (.eval (.new "long" [] []))).Undisciplined ∧
      (probe "acme.Probe" misread).Undisciplined ∧ crowded.Undisciplined := by
  have hvalues : ∀ unit st, (probe unit st).HasValues := fun unit st => ⟨rfl, nofun, nofun⟩
  have hthis : (probe "long" (.eval .this)).lower {} =
      .error (.assembly (.stackUnderflow 1 (-2))) := rfl
  refine ⟨⟨hvalues _ _, fun _ => rfl, ⟨nofun, trivial⟩, ?_⟩,
    ⟨hvalues _ _, fun _ => rfl, ⟨⟨nofun, trivial, rfl, nofun⟩, trivial⟩, ?_⟩,
    ⟨hvalues _ _, fun _ => rfl, ⟨⟨rfl, ⟨nofun, trivial⟩, rfl, nofun, nofun⟩, trivial⟩,
      not_isDisciplined_misread⟩, undisciplined_crowded⟩
  · exact not_isDisciplined_of_underflow hthis (by decide)
  · exact not_isDisciplined_of_underflow lower_probe_new (by decide)

end CodeContext

end ComponentViews
