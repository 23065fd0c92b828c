import ComponentViews.Proofs.Code.Sketch

/-!
# Steps on sketches

A step of turning a body into code either goes from one sketch to another, and takes no more
than `need` slots, or fails because some size is too large (`Yields`): the code or the pool
grows too large, or the stack is too deep to be followed, and then its bound `room` is. What a
step does is told by how the two sketches are related: the second is a later one
(`Sketch.Later`), and what it adds is `Straight` code, which leaves everything but the code, the
pool, the slots and the depth of the stack alone, or code that `Flows` around labels, which it
may place and note.
-/

namespace ComponentViews

open Lines (IsStart IsBound IsHandler extent)

namespace LoweringFault

/-- Whether a body cannot be turned into code for its size alone. -/
def isLimit : LoweringFault → Bool
  | poolOverflow => true
  | assembly fault => fault.isLimit
  | _ => false

/-- Whether the depth that is followed falls below zero. -/
def isUnderflow : LoweringFault → Bool
  | assembly (.stackUnderflow _ _) => true
  | _ => false

end LoweringFault

/-- A draft with the lines that its code consists of, the depths of the stack at their ends, and
    the number of slots that have been given away. -/
structure Sketch (c : CodeContext) (checked : Prop) (room : Nat) where
  lines : List Line
  depths : Nat → Nat
  slots : Nat
  draft : Draft
  drawn : Drawn c checked room lines depths slots draft

variable {c : CodeContext} {checked : Prop} {room : Nat} {α β : Type}

namespace Sketch

/-- The code that has been written. -/
abbrev asm (s : Sketch c checked room) : Assembly := s.draft.asm

/-- The labels that the code jumps to. -/
abbrev labels (s : Sketch c checked room) : Array LabelState := s.draft.asm.labels

/-- The depth of the stack behind the code. -/
def depth (s : Sketch c checked room) : Nat := s.depths (extent s.lines)

variable {s t u : Sketch c checked room}

theorem depth_le (s : Sketch c checked room) : s.depth ≤ room := s.drawn.within

theorem asm_depth (s : Sketch c checked room) : s.asm.depth = s.depth % 65536 := s.drawn.wraps

/-- A depth that fits into a word is followed. -/
theorem asm_depth_eq (h : s.depth ≤ 65535) : s.asm.depth = s.depth := by
  rw [asm_depth, Nat.mod_eq_of_lt (by omega)]

/-! ### Relations between sketches -/

/-- What has been drawn stays. -/
structure Later (s t : Sketch c checked room) : Prop where
  lines : ∃ more, t.lines = s.lines ++ more
  depths : Lines.Agree s.lines s.depths t.depths
  pool : s.draft.pool.Extends t.draft.pool
  slots : s.slots ≤ t.slots

theorem Later.of_eq (hlines : t.lines = s.lines) (hdepths : t.depths = s.depths)
    (hpool : s.draft.pool.Extends t.draft.pool) (hslots : s.slots ≤ t.slots) :
    Later s t :=
  ⟨⟨[], by rw [hlines, List.append_nil]⟩, fun _ _ => by rw [hdepths], hpool, hslots⟩

theorem Later.refl (s : Sketch c checked room) : Later s s :=
  .of_eq rfl rfl (Pool.Extends.refl _) (Nat.le_refl _)

theorem Later.trans (hst : Later s t) (htu : Later t u) : Later s u := by
  obtain ⟨more, hmore⟩ := hst.lines
  obtain ⟨rest, hrest⟩ := htu.lines
  refine ⟨⟨more ++ rest, by rw [hrest, hmore, List.append_assoc]⟩, fun pc hpc => ?_,
    hst.pool.trans htu.pool, Nat.le_trans hst.slots htu.slots⟩
  have hle : extent s.lines ≤ extent t.lines := by
    rw [hmore]
    exact Lines.extent_mono
  rw [htu.depths pc (Nat.lt_of_lt_of_le hpc hle), hst.depths pc hpc]

theorem Later.isBound (h : Later s t) {pc : Nat} (hpc : IsBound s.lines pc) :
    IsBound t.lines pc := by
  obtain ⟨more, hmore⟩ := h.lines
  rw [hmore]
  exact hpc.mono

theorem Later.isHandler (h : Later s t) {pc : Nat} (hpc : IsHandler s.lines s.depths pc) :
    IsHandler t.lines t.depths pc := by
  obtain ⟨more, hmore⟩ := h.lines
  rw [hmore]
  exact hpc.mono h.depths

theorem Later.range (h : Later s t) {r : CodeRange} (hr : r.IsDrawn s.lines) :
    r.IsDrawn t.lines :=
  ⟨h.isBound hr.1, h.isBound hr.2⟩

/-- Straight code is added: only the depth of the stack changes. -/
structure Straight (s t : Sketch c checked room) : Prop extends Later s t where
  labels : t.labels = s.labels
  gaps : t.draft.gaps = s.draft.gaps
  alive : t.asm.alive = s.asm.alive

theorem Straight.refl (s : Sketch c checked room) : Straight s s := ⟨Later.refl s, rfl, rfl, rfl⟩

theorem Straight.trans (hst : Straight s t) (htu : Straight t u) : Straight s u :=
  ⟨hst.toLater.trans htu.toLater, htu.labels.trans hst.labels, htu.gaps.trans hst.gaps,
    htu.alive.trans hst.alive⟩

/-- Code with jumps is added. -/
structure Flows (noted placed left : Nat → Prop) (s t : Sketch c checked room) : Prop
    extends Later s t where
  labels : LabelsFlow noted placed left s.labels t.labels

/-- No labels. -/
abbrev nowhere : Nat → Prop := fun _ => False

/-- Code is added whose jumps stay within it. -/
abbrev Passes (s t : Sketch c checked room) : Prop := Flows nowhere nowhere nowhere s t

theorem Flows.refl {noted placed left : Nat → Prop} (s : Sketch c checked room) :
    Flows noted placed left s s :=
  ⟨Later.refl s, LabelsFlow.refl _⟩

theorem Flows.trans {noted placed left : Nat → Prop} (hst : Flows noted placed left s t)
    (htu : Flows noted placed left t u) : Flows noted placed left s u :=
  ⟨hst.toLater.trans htu.toLater, hst.labels.trans htu.labels⟩

theorem Flows.mono {noted placed left noted' placed' left' : Nat → Prop}
    (h : Flows noted placed left s t) (hn : ∀ k, k < s.labels.size → noted k → noted' k)
    (hp : ∀ k, k < s.labels.size → placed k → placed' k)
    (hl : ∀ k, s.labels.size ≤ k → left k → left' k) : Flows noted' placed' left' s t :=
  ⟨h.toLater, h.labels.mono hn hp hl⟩

theorem Passes.flows {noted placed left : Nat → Prop} (h : Passes s t) :
    Flows noted placed left s t :=
  h.mono (fun _ _ => False.elim) (fun _ _ => False.elim) (fun _ _ => False.elim)

/-- Code is added together with labels of its own, of which some are left without a place. -/
abbrev Adds (left : Nat → Prop) (s t : Sketch c checked room) : Prop :=
  Flows (fun k => s.labels.size ≤ k) (fun k => s.labels.size ≤ k) left s t

theorem Adds.andThen {left noted placed left' : Nat → Prop} (h : Adds left s t)
    (h' : Flows noted placed left' t u) (hn : ∀ k, noted k → s.labels.size ≤ k)
    (hp : ∀ k, placed k → s.labels.size ≤ k) (hl : ∀ k, left' k → left k) : Adds left s u :=
  Flows.trans h (h'.mono (fun k _ => hn k) (fun k _ => hp k) fun k _ => hl k)

theorem Adds.passing {left : Nat → Prop} (h : Adds left s t) (h' : Passes t u) :
    Adds left s u :=
  h.andThen h' (fun _ => False.elim) (fun _ => False.elim) fun _ => False.elim

/-- A label has its place. -/
abbrev IsPlaced (s : Sketch c checked room) (k : Nat) : Prop :=
  ∃ pc, s.labels[k]?.bind (·.pc) = some pc

theorem Flows.isPlaced {noted placed left : Nat → Prop} (h : Flows noted placed left s t)
    {k : Nat} (hk : IsPlaced s k) : IsPlaced t k := by
  obtain ⟨pc, hpc⟩ := hk
  obtain ⟨st, hst, hpc⟩ := Option.bind_eq_some_iff.1 hpc
  obtain ⟨st', hst', -, -, hkeeps⟩ := h.labels.stays k st hst
  exact ⟨pc, by rw [hst', Option.bind_some, hkeeps pc hpc]⟩

/-- Once all its labels have their places, code stands for itself. -/
theorem Adds.passes {left : Nat → Prop} (h : Adds left s t) (hleft : ∀ k, left k → IsPlaced t k) :
    Passes s t where
  toLater := h.toLater
  labels := by
    refine (h.labels.settle fun k st _ hk hst hnone => ?_).mono
      (fun k hlt hk => absurd hlt (Nat.not_lt.2 hk)) (fun k hlt hk => absurd hlt (Nat.not_lt.2 hk))
      fun _ _ h => h
    obtain ⟨pc, hpc⟩ := hleft k hk
    rw [hst, Option.bind_some, hnone] at hpc
    cases hpc

theorem Straight.passes (h : Straight s t) : Passes s t :=
  ⟨h.toLater, by rw [h.labels]; exact LabelsFlow.refl _⟩

end Sketch

/-! ### Runs of steps -/

namespace Draft

theorem bind_of_ok {x : Lower α} {f : α → Lower β} {d e : Draft} {a : α}
    {r : Except LoweringFault (β × Draft)} (hx : x d = .ok (a, e)) (hf : f a e = r) :
    (x >>= f) d = r := by
  show (x d >>= fun s => f s.1 s.2) = r
  rw [hx]
  exact hf

theorem bind_of_error {x : Lower α} {f : α → Lower β} {d : Draft} {fault : LoweringFault}
    (hx : x d = .error fault) : (x >>= f) d = .error fault := by
  show (x d >>= fun s => f s.1 s.2) = _
  rw [hx]
  rfl

theorem addConstant_of_ok {add : Pool.Add} {d : Draft} {i : UInt16} {q : Pool}
    (hadd : add.run.run d.pool = (.ok i, q)) :
    addConstant add d = .ok (i, { d with pool := q }) := by
  show addConstant add ⟨d.asm, d.pool, d.nextSlot, d.gaps⟩ = _
  rw [addConstant, hadd]

theorem addConstant_of_error {add : Pool.Add} {d : Draft} {e : Pool.Overflow} {q : Pool}
    (hadd : add.run.run d.pool = (.error e, q)) : addConstant add d = .error .poolOverflow := by
  show addConstant add ⟨d.asm, d.pool, d.nextSlot, d.gaps⟩ = _
  rw [addConstant, hadd]

theorem assemble_of_runs {step : Assemble α} {d : Draft} {a : Assembly} {r : α}
    (hruns : Assembly.Runs step d.asm r a) : assemble step d = .ok (r, { d with asm := a }) := by
  show assemble step ⟨d.asm, d.pool, d.nextSlot, d.gaps⟩ = _
  rw [assemble, show step.run.run d.asm = (.ok r, a) from hruns]

theorem assemble_of_fails {step : Assemble α} {d : Draft} {fault : AssemblyFault}
    (hfails : Assembly.Fails step d.asm fault) : assemble step d = .error (.assembly fault) := by
  show assemble step ⟨d.asm, d.pool, d.nextSlot, d.gaps⟩ = _
  have hfails : (step.run.run d.asm).1 = .error fault := hfails
  rw [assemble]
  split
  · rename_i hrun
    rw [hrun] at hfails
    cases hfails
  · rename_i hrun
    rw [hrun] at hfails
    cases hfails
    rfl

end Draft

/-! ### Outcomes of steps -/

open Sketch

/-- The fault is that something is too large. -/
def LoweringFault.IsExcused (room : Nat) (fault : LoweringFault) : Prop :=
  fault.isLimit = true ∨ (fault.isUnderflow = true ∧ 65535 < room)

/-- A step ends in a draft with a property, or it fails because something is too large. -/
def Results (x : Lower α) (s : Sketch c checked room) (R : α → Draft → Prop) : Prop :=
  match x s.draft with
  | .ok (a, d) => R a d
  | .error fault => fault.IsExcused room

/-- A step ends in a sketch with a property and takes no more than `need` slots. -/
def Yields (need : Nat) (x : Lower α) (s : Sketch c checked room)
    (Q : α → Sketch c checked room → Prop) : Prop :=
  Results x s fun a d => ∃ t : Sketch c checked room, t.draft = d ∧
    t.slots ≤ s.slots + need ∧ Q a t

namespace Results

variable {x : Lower α} {s : Sketch c checked room}

theorem of_ok {a : α} {d : Draft} {R : α → Draft → Prop} (hrun : x s.draft = .ok (a, d))
    (hR : R a d) : Results x s R := by
  rw [Results, hrun]
  exact hR

theorem of_error {fault : LoweringFault} {R : α → Draft → Prop}
    (hrun : x s.draft = .error fault) (hfault : fault.IsExcused room) : Results x s R := by
  rw [Results, hrun]
  exact hfault

theorem mono {R R' : α → Draft → Prop} (h : Results x s R) (hR : ∀ a d, R a d → R' a d) :
    Results x s R' := by
  rw [Results] at h ⊢
  split at h
  · exact hR _ _ h
  · exact h

end Results

namespace Yields

variable {m n : Nat} {x : Lower α} {s : Sketch c checked room}
  {P Q : α → Sketch c checked room → Prop}

theorem of_ok {a : α} {t : Sketch c checked room} (hrun : x s.draft = .ok (a, t.draft))
    (hslots : t.slots ≤ s.slots + n) (hQ : Q a t) : Yields n x s Q :=
  Results.of_ok hrun ⟨t, rfl, hslots, hQ⟩

theorem of_error {fault : LoweringFault} (hrun : x s.draft = .error fault)
    (hfault : fault.IsExcused room) : Yields n x s Q :=
  Results.of_error hrun hfault

theorem pure {a : α} (hQ : Q a s) : Yields n (pure a) s Q :=
  of_ok rfl (Nat.le_add_right _ _) hQ

theorem mono (h : Yields n x s P) (hle : n ≤ m) (hPQ : ∀ a t, P a t → Q a t) :
    Yields m x s Q :=
  Results.mono h fun a _ ⟨t, hd, hslots, hP⟩ => ⟨t, hd, by omega, hPQ a t hP⟩

theorem weaken (h : Yields n x s P) (hPQ : ∀ a t, P a t → Q a t) : Yields n x s Q :=
  h.mono (Nat.le_refl n) hPQ

theorem free (h : Yields 0 x s P) : Yields n x s P := h.mono (Nat.zero_le n) fun _ _ h => h

/-- What follows goes on from the sketch. -/
theorem results {f : α → Lower β} {R : β → Draft → Prop} (h : Yields m x s P)
    (hf : ∀ a t, P a t → t.slots ≤ s.slots + m → Results (f a) t R) :
    Results (x >>= f) s R := by
  rw [Yields, Results] at h
  split at h
  · rename_i a d hrun
    obtain ⟨t, rfl, hslots, hP⟩ := h
    have hnext := hf a t hP hslots
    rw [Results] at hnext ⊢
    rw [Draft.bind_of_ok hrun rfl]
    exact hnext
  · rename_i fault hrun
    rw [Results, Draft.bind_of_error hrun]
    exact h

theorem bind {f : α → Lower β} {R : β → Sketch c checked room → Prop} (h : Yields m x s P)
    (hf : ∀ a t, P a t → Yields n (f a) t R) : Yields (m + n) (x >>= f) s R :=
  h.results fun a t hP hslots => Results.mono (hf a t hP)
    fun _ _ ⟨u, hu, hslots', hR⟩ => ⟨u, hu, by omega, hR⟩

/-- A step that takes no slots comes first. -/
theorem andThen {f : α → Lower β} {R : β → Sketch c checked room → Prop} (h : Yields 0 x s P)
    (hf : ∀ a t, P a t → Yields n (f a) t R) : Yields n (x >>= f) s R :=
  (h.bind hf).mono (Nat.le_of_eq (Nat.zero_add n)) fun _ _ h => h

end Yields

/-- What adds straight code behind straight code adds straight code to the whole. -/
theorem Sketch.Straight.yields {n depth : Nat} {x : Lower α} {s t : Sketch c checked room}
    (hst : Straight s t) (h : Yields n x t fun _ u => Straight t u ∧ u.depth = depth) :
    Yields n x t fun _ u => Straight s u ∧ u.depth = depth :=
  h.weaken fun _ _ hu => ⟨hst.trans hu.1, hu.2⟩

/-! ### Single steps -/

namespace Draft

variable {s : Sketch c checked room} {n : Nat} {Q : Unit → Sketch c checked room → Prop}

theorem results_assemble {step : Assemble α} {a : Assembly} {r : α} {R : α → Draft → Prop}
    (hruns : Assembly.Runs step s.asm r a) (hR : R r { s.draft with asm := a }) :
    Results (assemble step) s R :=
  Results.of_ok (assemble_of_runs hruns) hR

theorem results_assemble_fails {step : Assemble α} {fault : AssemblyFault}
    {R : α → Draft → Prop} (hfails : Assembly.Fails step s.asm fault)
    (hexcuse : (LoweringFault.assembly fault).IsExcused room) : Results (assemble step) s R :=
  Results.of_error (assemble_of_fails hfails) hexcuse

theorem yields_assemble {step : Assemble α} {a : Assembly} {r : α} {lines : List Line}
    {depths : Nat → Nat} {Q : α → Sketch c checked room → Prop}
    (hruns : Assembly.Runs step s.asm r a)
    (hdrawn : Drawn c checked room lines depths s.slots { s.draft with asm := a })
    (hQ : Q r ⟨lines, depths, _, _, hdrawn⟩) : Yields n (assemble step) s Q :=
  results_assemble hruns ⟨⟨lines, depths, _, _, hdrawn⟩, rfl, Nat.le_add_right _ _, hQ⟩

theorem yields_pc : Yields n pc s fun a t => t = s ∧ a = extent s.lines :=
  Yields.of_ok rfl (Nat.le_add_right _ _) ⟨rfl, s.drawn.pc_eq⟩

theorem yields_isAlive : Yields n isAlive s fun a t => t = s ∧ a = s.asm.alive :=
  Yields.of_ok rfl (Nat.le_add_right _ _) ⟨rfl, rfl⟩

/-- Nothing is noted by an instruction that does not jump. -/
theorem noted_instr (i : Instruction) : Assembly.Noted s.labels s.labels fun k =>
    ∃ label ∈ (Line.instr i).labels, k = label.id :=
  (Assembly.Noted.refl _).congr fun k => by simp [Line.labels]

variable {i : Instruction} {delta : Int} {takes pushes : Nat}

/-- An instruction succeeds, or the stack is too deep to be followed. -/
theorem yields_emit_of_drawn {lines : List Line} (next : Nat) (depths : Nat → Nat)
    (hnext : (s.depth : Int) + delta = next)
    (hdrawn : (next ≤ 65535 → s.depth ≤ 65535) → Drawn c checked room lines depths s.slots
      { s.draft with asm := s.asm.behind i (next % 65536) })
    (hQ : ∀ h,
      Q () ⟨lines, depths, s.slots, { s.draft with asm := s.asm.behind i (next % 65536) }, h⟩) :
    Yields n (emit i delta) s Q := by
  have hwithin := s.depth_le
  rcases Assembly.emits (i := i) s.asm_depth hnext with ⟨hruns, hfollowed⟩ | ⟨hfails, hdeep⟩
  · exact yields_assemble hruns (hdrawn hfollowed) (hQ _)
  · exact results_assemble_fails hfails (.inr ⟨rfl, by omega⟩)

/-- An instruction that control goes on from. -/
theorem yields_emit_line {below : Nat} (halive : s.asm.alive = true)
    (heffect : i.effect? s.draft.pool = some (takes, pushes))
    (hdelta : (takes : Int) + delta = pushes) (hbelow : s.depth = below + takes)
    (hroom : below + pushes ≤ room) (hi : Accepts c checked s.draft.pool s.slots i)
    (hleads : ∀ pc, i.targets pc = []) (hgoes : Opcode.isTerminal i.opcode = false) :
    Yields n (emit i delta) s fun _ t =>
      Straight s t ∧ t.depth = below + pushes ∧ t.lines = s.lines ++ [.instr i] ∧
        t.depths (extent s.lines) = s.depth := by
  have hlt : extent s.lines < extent (s.lines ++ [.instr i]) :=
    (Lines.isStart_extent s.lines (.instr i) []).lt
  have hmoves : (Line.instr i).Moves s.draft.pool s.depth (below + pushes) :=
    ⟨takes, pushes, heffect, by omega, fun h => absurd rfl h, fun _ => by omega⟩
  refine yields_emit_of_drawn (below + pushes)
    (Function.update s.depths (extent (s.lines ++ [.instr i])) (below + pushes))
    (by omega) (fun hfollowed => ?_) fun h => ⟨⟨⟨⟨_, rfl⟩, fun pc hpc =>
      Function.update_of_ne (by omega) .., Pool.Extends.refl _, Nat.le_refl _⟩, ?_, rfl, ?_⟩,
      Function.update_self .., rfl, Function.update_of_ne (by omega) ..⟩
  · rw [Assembly.behind, if_neg (by rw [hgoes]; simp)]
    refine s.drawn.line (l := .instr i) (Assembly.toList_appendBytes ..) (List.append_nil _).symm
      (noted_instr i) (fun _ h => absurd h List.not_mem_nil) rfl ?_ hi
      (fun j hj pc => by cases hj; exact hleads pc) hmoves hroom
      ⟨rfl, Nat.le_max_left .., Nat.le_max_right .., fun h => Nat.max_le.2 ⟨h, by omega⟩,
        hfollowed⟩
    rw [show (Line.instr i).blank.opcode = i.opcode from rfl, hgoes]
    exact halive
  · show (s.asm.behind i _).labels = s.asm.labels
    rw [Assembly.behind, if_neg (by rw [hgoes]; simp)]
    rfl
  · show (s.asm.behind i _).alive = s.asm.alive
    rw [Assembly.behind, if_neg (by rw [hgoes]; simp)]
    rfl

theorem yields_emit {below : Nat} (halive : s.asm.alive = true)
    (heffect : i.effect? s.draft.pool = some (takes, pushes))
    (hdelta : (takes : Int) + delta = pushes) (hbelow : s.depth = below + takes)
    (hroom : below + pushes ≤ room) (hi : Accepts c checked s.draft.pool s.slots i)
    (hleads : ∀ pc, i.targets pc = []) (hgoes : Opcode.isTerminal i.opcode = false) :
    Yields n (emit i delta) s fun _ t => Straight s t ∧ t.depth = below + pushes :=
  (yields_emit_line halive heffect hdelta hbelow hroom hi hleads hgoes).weaken
    fun _ _ h => ⟨h.1, h.2.1⟩

/-- An instruction that control does not go on from takes all that is on the stack. -/
theorem yields_emit_terminal (heffect : i.effect? s.draft.pool = some (takes, 0))
    (hdelta : (takes : Int) + delta = 0) (hdepth : s.depth = takes)
    (hi : Accepts c checked s.draft.pool s.slots i)
    (hleads : ∀ pc, i.targets pc = []) (hends : Opcode.isTerminal i.opcode = true) :
    Yields n (emit i delta) s fun _ t => Passes s t ∧ t.depth = 0 ∧ t.asm.alive = false := by
  have hlt : extent s.lines < extent (s.lines ++ [.instr i]) :=
    (Lines.isStart_extent s.lines (.instr i) []).lt
  have hmoves : (Line.instr i).Moves s.draft.pool s.depth 0 :=
    ⟨takes, 0, heffect, by omega, fun h => absurd rfl h, fun h => by
      rw [show (Line.instr i).blank.opcode = i.opcode from rfl, hends] at h
      cases h⟩
  refine yields_emit_of_drawn 0 (Function.update s.depths (extent (s.lines ++ [.instr i])) 0)
    (by omega) (fun hfollowed => ?_) fun h => ⟨⟨⟨⟨_, rfl⟩, fun pc hpc =>
      Function.update_of_ne (by omega) .., Pool.Extends.refl _, Nat.le_refl _⟩, ?_⟩,
      Function.update_self .., ?_⟩
  · rw [Assembly.behind, if_pos hends]
    refine s.drawn.line (l := .instr i) (Assembly.toList_appendBytes ..) (List.append_nil _).symm
      (noted_instr i) (fun _ h => absurd h List.not_mem_nil) rfl ?_ hi
      (fun j hj pc => by cases hj; exact hleads pc) hmoves (Nat.zero_le _)
      ⟨rfl, Nat.le_max_left .., Nat.zero_le _, fun h => Nat.max_le.2 ⟨h, by omega⟩, hfollowed⟩
    rw [show (Line.instr i).blank.opcode = i.opcode from rfl, hends]
    rfl
  · show LabelsFlow _ _ _ s.asm.labels (s.asm.behind i _).labels
    rw [Assembly.behind, if_pos hends]
    exact LabelsFlow.refl _
  · show (s.asm.behind i _).alive = false
    rw [Assembly.behind, if_pos hends]

theorem yields_addConstant {add : Pool.Add} {F : UInt16 → Pool → Prop}
    (hadd : ∀ i q, add.run.run s.draft.pool = (.ok i, q) →
      q.Sound checked ∧ s.draft.pool.Extends q ∧ F i q) :
    Yields n (addConstant add) s fun i t =>
      Straight s t ∧ t.depth = s.depth ∧ F i t.draft.pool := by
  cases hpool : add.run.run s.draft.pool with
  | mk result q =>
    cases result with
    | ok i =>
      obtain ⟨hsound, hext, hfact⟩ := hadd i q hpool
      have hdrawn :=
        s.drawn.frame { s.draft with pool := q } rfl hsound hext (Nat.le_refl _) s.drawn.counted
          s.drawn.gaps
      exact Yields.of_ok (t := ⟨s.lines, s.depths, _, _, hdrawn⟩) (addConstant_of_ok hpool)
        (Nat.le_add_right _ _) ⟨⟨.of_eq rfl rfl hext (Nat.le_refl _), rfl, rfl, rfl⟩, rfl, hfact⟩
    | error e =>
      exact Yields.of_error (addConstant_of_error hpool)
        (.inl (show LoweringFault.poolOverflow.isLimit = true from rfl))

/-! ### Labels -/

/-- A new label is to get its place yet. -/
theorem yields_newLabel :
    Yields n newLabel s fun label t =>
      Adds (fun k => k = label.id) s t ∧ s.labels.size ≤ label.id ∧
        Awaits t.labels label none ∧ t.depth = s.depth ∧ t.asm.alive = s.asm.alive := by
  have hruns : Assembly.Runs Assembly.newLabel s.asm ⟨s.asm.labels.size⟩
      { s.asm with labels := s.asm.labels.push {} } := rfl
  exact yields_assemble hruns s.drawn.label
    ⟨⟨.of_eq rfl rfl (Pool.Extends.refl _) (Nat.le_refl _), LabelsFlow.push⟩, Nat.le_refl _,
      ⟨{}, Array.getElem?_push_size, rfl, rfl⟩, rfl, rfl⟩

/-- The line of a jump needs nothing but its label. -/
theorem accepts_jump {p : Pool} {slots : Nat} {op : UInt8} (hop : Opcode.isJump op = true) :
    Accepts c checked p slots (.jump op 0) := by
  have hcases : op = Opcode.ifeq ∨ op = Opcode.ifne ∨ op = Opcode.ifAcmpeq ∨
      op = Opcode.ifAcmpne ∨ op = Opcode.goto ∨ op = Opcode.ifnull ∨ op = Opcode.ifnonnull := by
    simpa only [Opcode.isJump, Bool.or_eq_true, beq_iff_eq, or_assoc] using hop
  constructor
  · rcases hcases with rfl | rfl | rfl | rfl | rfl | rfl | rfl <;> exact .inl rfl
  · intro _
    rcases hcases with rfl | rfl | rfl | rfl | rfl | rfl | rfl <;> exact .inl rfl
  · exact fun e he => absurd he (by simp [Instruction.constant?])
  · exact fun slot hslot => absurd hslot (by simp [Instruction.lastSlot?, Instruction.highestSlot?])
  · intro hreturn
    rcases hcases with rfl | rfl | rfl | rfl | rfl | rfl | rfl <;> exact absurd hreturn (by decide)

/-- A line with jumps leaves the stack empty. -/
theorem deepens_behindLine {l : Line} {labels : Array LabelState} (hsmall : s.depth ≤ 65535) :
    Assembly.Deepens s.asm (s.asm.behindLine l labels) s.depth 0 :=
  ⟨rfl, Nat.le_max_left .., Nat.zero_le _, fun h => Nat.max_le.2 ⟨h, Nat.zero_le _⟩,
    fun _ => hsmall⟩

/-- A line with jumps, of which nothing is left on the stack. -/
theorem yields_behindLine {step : Assemble Unit} {l : Line} {labels : Array LabelState}
    (hruns : Assembly.Runs step s.asm () (s.asm.behindLine l labels))
    (hnoted : Assembly.Noted s.labels labels fun k => ∃ label ∈ l.labels, k = label.id)
    (hopen : ∀ label ∈ l.labels, IsOpen s.labels label) (halive : s.asm.alive = true)
    (hi : Accepts c checked s.draft.pool s.slots l.blank)
    (hleads : ∀ i, l = .instr i → ∀ pc, i.targets pc = [])
    (heffect : l.blank.effect? s.draft.pool = some (takes, 0)) (hdepth : s.depth = takes)
    (hsmall : takes ≤ 65535) :
    Yields n (assemble step) s fun _ t =>
      Flows (fun k => ∃ label ∈ l.labels, k = label.id) nowhere nowhere s t ∧ t.depth = 0 ∧
        t.asm.alive = (!Opcode.isTerminal l.blank.opcode) ∧ t.labels = labels := by
  have hlt : extent s.lines < extent (s.lines ++ [l]) := (Lines.isStart_extent s.lines l []).lt
  have hterminal : (s.asm.behindLine l labels).alive = !Opcode.isTerminal l.blank.opcode := by
    show (s.asm.alive && _) = _
    rw [halive, Bool.true_and]
  exact yields_assemble hruns
    (s.drawn.line (Assembly.toList_appendBytes ..) Array.toList_append hnoted hopen rfl hterminal
      hi hleads ⟨takes, 0, heffect, Nat.le_of_eq hdepth.symm, fun _ => ⟨hdepth, rfl⟩,
        fun _ => by rw [Nat.zero_add]; exact hdepth.symm⟩
      (Nat.zero_le _) (deepens_behindLine (by omega)))
    ⟨⟨⟨⟨_, rfl⟩, fun pc hpc => Function.update_of_ne (by omega) .., Pool.Extends.refl _,
      Nat.le_refl _⟩, hnoted.flow⟩, Function.update_self .., hterminal, rfl⟩

/-- A jump with nothing left on the stack. -/
theorem yields_branch {op : UInt8} {label : Label} (hop : Opcode.isJump op = true)
    (halive : s.asm.alive = true) (heffect : Opcode.jumpEffect op = (takes, 0))
    (hdelta : (takes : Int) + delta = 0) (hdepth : s.depth = takes)
    (hopen : IsOpen s.labels label) :
    Yields n (branch op label delta) s fun _ t =>
      Flows (fun k => k = label.id) nowhere nowhere s t ∧ t.depth = 0 ∧
        t.asm.alive = (op != Opcode.goto) ∧ Awaits t.labels label (some 0) := by
  have hsmall : takes ≤ 65535 := by
    rw [Opcode.jumpEffect] at heffect
    split at heffect
    · cases heffect
      omega
    · split at heffect <;> cases heffect <;> omega
  have hasm : s.asm.depth = takes := by rw [asm_depth_eq (by omega), hdepth]
  obtain ⟨labels, hruns, hnoted⟩ :=
    Assembly.runs_branch hop (by rw [hasm]; exact hdelta) (s.drawn.canJump hopen)
  refine (yields_behindLine hruns (hnoted.congr fun k => by simp [Line.labels]) ?_ halive
    (accepts_jump hop) (fun _ h => by cases h) (congrArg some heffect) hdepth hsmall).weaken ?_
  · intro k hk
    rw [Line.labels, List.mem_singleton] at hk
    rw [hk]
    exact hopen
  · rintro - t ⟨hst, ht, halive, hlabels⟩
    refine ⟨hst.mono (fun k _ hk => ?_) (fun _ _ => id) fun _ _ => id, ht, ?_, ?_⟩
    · simpa [Line.labels] using hk
    · rw [halive, show (Line.jump op label).blank.opcode = op from rfl,
        Opcode.isTerminal_of_isJump hop, bne]
    · rw [hlabels]
      exact hnoted.awaits hopen rfl

/-- A switch takes its key and leads to its labels. -/
theorem yields_switch {otherwise : Label} {cases : List (Int32 × Label)}
    (halive : s.asm.alive = true) (hdepth : s.depth = 1) (hotherwise : IsOpen s.labels otherwise)
    (hcases : ∀ e ∈ cases, IsOpen s.labels e.2) :
    Yields n (assemble (Assembly.switch otherwise cases)) s fun _ t =>
      Flows (fun k => k = otherwise.id ∨ ∃ e ∈ cases, k = e.2.id) nowhere nowhere s t ∧
        t.depth = 0 ∧ t.asm.alive = false ∧ Awaits t.labels otherwise (some 0) ∧
          ∀ e ∈ cases, Awaits t.labels e.2 (some 0) := by
  have hasm : s.asm.depth = 1 := by rw [asm_depth_eq (by omega), hdepth]
  obtain ⟨labels, hruns, hnoted⟩ := Assembly.runs_switch hasm (s.drawn.canJump hotherwise)
    fun e he => s.drawn.canJump (hcases e he)
  let l := Line.switch otherwise (Assembly.sortedCases cases)
  -- The cases are sorted on the way, which leaves their labels the same.
  have hlabels : ∀ k, (k = otherwise.id ∨ ∃ e ∈ cases, k = e.2.id) ↔
      ∃ label ∈ l.labels, k = label.id := by
    intro k
    show _ ↔ ∃ label ∈ otherwise :: (Assembly.sortedCases cases).map Prod.snd, k = label.id
    rw [List.exists_mem_cons_iff]
    refine or_congr Iff.rfl ⟨fun ⟨e, he, hk⟩ => ?_, fun ⟨label, hlabel, hk⟩ => ?_⟩
    · exact ⟨e.2, List.mem_map_of_mem (List.mem_mergeSort.2 he), hk⟩
    · obtain ⟨e, he, rfl⟩ := List.mem_map.1 hlabel
      exact ⟨e, List.mem_mergeSort.1 he, hk⟩
  have hopen : ∀ label ∈ l.labels, IsOpen s.labels label := by
    intro label hlabel
    rcases List.mem_cons.1 hlabel with rfl | hlabel
    · exact hotherwise
    · obtain ⟨e, he, rfl⟩ := List.mem_map.1 hlabel
      exact hcases e (List.mem_mergeSort.1 he)
  have haccepts : Accepts c checked s.draft.pool s.slots l.blank :=
    { known := .inr ⟨_, _, rfl⟩
      listed := fun _ => .inr ⟨_, _, rfl⟩
      constant := fun e he => by cases he
      locals := fun slot hslot => by cases hslot
      returns := fun h => by cases h }
  have hleads : ∀ i, l = .instr i → ∀ pc, i.targets pc = [] := fun i h => Line.noConfusion h
  refine (yields_behindLine (l := l) hruns (hnoted.congr hlabels) hopen halive haccepts hleads
    rfl hdepth (by omega)).weaken ?_
  rintro - t ⟨hst, ht, hdead, rfl⟩
  exact ⟨hst.mono (fun k _ hk => (hlabels k).2 hk) (fun _ _ => id) fun _ _ => id, ht, hdead,
    hnoted.awaits hotherwise (.inl rfl),
    fun e he => hnoted.awaits (hcases e he) (.inr ⟨e, he, rfl⟩)⟩

/-- Behind a label control goes on if it did before, or if a jump comes to it. -/
theorem yields_place {label : Label} {depth : Option Nat} (hdepth : s.depth = 0)
    (hawaits : Awaits s.labels label depth) :
    Yields n (place label) s fun _ t =>
      Flows nowhere (fun k => k = label.id) nowhere s t ∧ t.depth = 0 ∧
        t.asm.alive = (s.asm.alive || depth.isSome) ∧ IsPlaced t label.id := by
  obtain ⟨st, hst, hpc, rfl⟩ := hawaits
  have hlt := (Array.getElem?_eq_some_iff.1 hst).1
  have hasm : s.asm.depth = 0 := by rw [asm_depth_eq (by omega), hdepth]
  refine yields_assemble (Assembly.runs_place hasm hst (s.drawn.labels _ st hst).level)
    (s.drawn.place hdepth hst)
    ⟨⟨.of_eq rfl rfl (Pool.Extends.refl _) (Nat.le_refl _), ?_⟩, hdepth, rfl, s.asm.pc, ?_⟩
  · refine ⟨Nat.le_of_eq (Array.size_setIfInBounds ..).symm, fun k st' hst' => ?_,
      fun k st' hk hst' _ => ?_⟩
    · show ∃ st'', (s.labels.setIfInBounds label.id _)[k]? = some st'' ∧ _
      -- The label itself has its place now; no other one is touched.
      by_cases hsame : label.id = k
      · subst hsame
        rw [hst, Option.some.injEq] at hst'
        subst hst'
        exact ⟨_, Array.getElem?_setIfInBounds_self_of_lt hlt, fun _ => rfl,
          fun h => absurd rfl h, fun pc h => absurd (hpc.symm.trans h) (by simp)⟩
      · exact ⟨st', by rw [Array.getElem?_setIfInBounds_ne hsame, hst'], fun _ => rfl,
          fun _ => rfl, fun _ h => h⟩
    · have hlt' := (Array.getElem?_eq_some_iff.1 hst').1
      have hsize : (s.asm.behindLabel label st).labels.size = s.labels.size :=
        Array.size_setIfInBounds ..
      have hlt' : k < (s.asm.behindLabel label st).labels.size := hlt'
      omega
  · show ((s.labels.setIfInBounds label.id _)[label.id]?).bind _ = _
    rw [Array.getElem?_setIfInBounds_self_of_lt hlt]
    rfl

/-- A handler begins behind code that control does not go on from. -/
theorem yields_enterHandler (hdead : s.asm.alive = false) (hdepth : s.depth = 0)
    (hroom : 1 ≤ room) :
    Yields n (assemble (Assembly.enterHandler 1)) s fun _ t =>
      Passes s t ∧ t.depth = 1 ∧ t.asm.alive = true ∧ t.lines = s.lines :=
  yields_assemble (Assembly.runs_enterHandler s.asm) (s.drawn.handler hdead hdepth hroom)
    ⟨⟨⟨⟨[], (List.append_nil _).symm⟩, fun _ hpc => Function.update_of_ne (Nat.ne_of_lt hpc) ..,
      Pool.Extends.refl _, Nat.le_refl _⟩, LabelsFlow.refl _⟩, Function.update_self .., rfl, rfl⟩

/-! ### Slots -/

/-- The slots of a value lie within those that have been given away. -/
structure IsTaken (s : Sketch c checked room) (ty : Ty) (slot : Nat) : Prop where
  value : ty.isVoid = false
  -- Instructions name slots by words; a value of two slots can reach beyond the last of them.
  word : slot < 65536
  taken : slot + ty.slots ≤ s.slots

/-- A slot is taken for a value of a type. -/
theorem yields_newSlot {ty : Ty} (hvalue : ty.isVoid = false) :
    Yields (CodeContext.width ty) (newSlot ty) s fun slot t =>
      Straight s t ∧ t.depth = s.depth ∧ IsTaken t ty slot ∧ t.lines = s.lines := by
  have hcounted := s.drawn.counted
  have hwidth : ty.slots ≤ CodeContext.width ty := Nat.le_max_left _ _
  let next := slotBehind s.draft.nextSlot (CodeContext.width ty)
  have hnext : next = (s.slots + CodeContext.width ty) % 65536 := by
    rw [← slotBehind_mod, ← hcounted]
  have hdrawn := s.drawn.frame { s.draft with nextSlot := next } rfl s.drawn.pool
    (Pool.Extends.refl _) (Nat.le_add_right _ _) hnext s.drawn.gaps
  exact Yields.of_ok (t := ⟨s.lines, s.depths, _, _, hdrawn⟩) rfl (Nat.le_refl _)
    ⟨⟨.of_eq rfl rfl (Pool.Extends.refl _) (Nat.le_add_right _ _), rfl, rfl, rfl⟩, rfl,
      ⟨hvalue, by omega, show s.draft.nextSlot + _ ≤ s.slots + _ by omega⟩, rfl⟩

/-! ### Regions -/

/-- Only the gaps of regions change. -/
structure Regroups (s t : Sketch c checked room) : Prop where
  lines : t.lines = s.lines
  depths : t.depths = s.depths
  asm : t.asm = s.asm
  pool : t.draft.pool = s.draft.pool
  slots : t.slots = s.slots

theorem Regroups.depth {s t : Sketch c checked room} (h : Regroups s t) : t.depth = s.depth := by
  rw [Sketch.depth, h.depths, h.lines, Sketch.depth]

theorem Regroups.passes {s t : Sketch c checked room} (h : Regroups s t) : Passes s t where
  toLater := .of_eq h.lines h.depths (by rw [h.pool]; exact Pool.Extends.refl _)
    (Nat.le_of_eq h.slots.symm)
  labels := by
    rw [show t.labels = s.labels from congrArg Assembly.labels h.asm]
    exact LabelsFlow.refl _

/-- Steps that only change the gaps. -/
theorem yields_regroup {x : Lower α} (a : α) (gaps : List (List CodeRange))
    (hrun : x s.draft = .ok (a, { s.draft with gaps }))
    (hgaps : ∀ gs ∈ gaps, ∀ r ∈ gs, r.IsDrawn s.lines) :
    Yields n x s fun a' t => a' = a ∧ Regroups s t :=
  have hdrawn :=
    s.drawn.frame { s.draft with gaps } rfl s.drawn.pool (Pool.Extends.refl _) (Nat.le_refl _)
      s.drawn.counted hgaps
  Yields.of_ok (t := ⟨s.lines, s.depths, _, _, hdrawn⟩) hrun (Nat.le_add_right _ _)
    ⟨rfl, rfl, rfl, rfl, rfl, rfl⟩

theorem yields_enterRegion {gaps : List CodeRange} (hgaps : ∀ r ∈ gaps, r.IsDrawn s.lines) :
    Yields n (enterRegion gaps) s fun _ t => Regroups s t := by
  refine (yields_regroup () (gaps :: s.draft.gaps) rfl ?_).weaken fun _ _ h => h.2
  intro gs hgs
  rcases List.mem_cons.1 hgs with rfl | hgs
  · exact hgaps
  · exact s.drawn.gaps gs hgs

theorem yields_leaveRegions {k : Nat} :
    Yields n (leaveRegions k) s fun gaps t =>
      Regroups s t ∧ ∀ gs ∈ gaps, ∀ r ∈ gs, r.IsDrawn s.lines := by
  refine (yields_regroup (s.draft.gaps.take k) (s.draft.gaps.drop k) rfl
    fun gs hgs => s.drawn.gaps gs (List.mem_of_mem_drop hgs)).weaken ?_
  rintro gaps t ⟨rfl, h⟩
  exact ⟨h, fun gs hgs => s.drawn.gaps gs (List.mem_of_mem_take hgs)⟩

theorem yields_leaveRegion :
    Yields n leaveRegion s fun gaps t => Regroups s t ∧ ∀ r ∈ gaps, r.IsDrawn s.lines := by
  refine (yields_leaveRegions (n := 0)).andThen ?_
  rintro gaps t ⟨h, hgaps⟩
  refine Yields.pure ⟨h, fun r hr => ?_⟩
  obtain ⟨gs, hgs, hr⟩ := List.mem_flatten.1 hr
  exact hgaps gs hgs r hr

theorem yields_reenterRegions {inner : List (List CodeRange)} {gap : CodeRange}
    (hinner : ∀ gs ∈ inner, ∀ r ∈ gs, r.IsDrawn s.lines) (hgap : gap.IsDrawn s.lines) :
    Yields n (reenterRegions inner gap) s fun _ t => Regroups s t := by
  refine (yields_regroup () (inner.map (gap :: ·) ++ s.draft.gaps) rfl ?_).weaken
    fun _ _ h => h.2
  intro gs hgs r hr
  rcases List.mem_append.1 hgs with hgs | hgs
  · obtain ⟨old, hold, rfl⟩ := List.mem_map.1 hgs
    rcases List.mem_cons.1 hr with rfl | hr
    · exact hgap
    · exact hinner old hold r hr
  · exact s.drawn.gaps gs hgs r hr

/-! ### Handlers -/

theorem yields_addCatches {ranges : List CodeRange} {handler : Nat} {catchType : UInt16}
    (hranges : ∀ r ∈ ranges, r.IsDrawn s.lines) (hhandler : IsHandler s.lines s.depths handler)
    (hclass : catchType = 0 ∨ (s.draft.pool.get? catchType).any Constant.isClass = true) :
    Yields n (addCatches ranges handler catchType) s fun _ t =>
      Straight s t ∧ t.lines = s.lines ∧ t.depths = s.depths := by
  induction ranges generalizing s with
  | nil => exact Yields.pure ⟨Straight.refl s, rfl, rfl⟩
  | cons r ranges ih =>
    have hruns : Assembly.Runs
      (modify (Assembly.addCatch r.start r.stop handler catchType)) s.asm () _ := rfl
    have hdrawn := s.drawn.catches (hranges r List.mem_cons_self) hhandler hclass
    have hfirst : Yields 0 (assemble
        (modify (Assembly.addCatch r.start r.stop handler catchType))) s fun _ t =>
          Straight s t ∧ t.lines = s.lines ∧ t.depths = s.depths ∧
            t.draft.pool = s.draft.pool := by
      refine yields_assemble hruns hdrawn ⟨⟨.of_eq rfl rfl (Pool.Extends.refl _) (Nat.le_refl _),
        ?_, rfl, ?_⟩, rfl, rfl, rfl⟩
      all_goals
        simp only [Assembly.addCatch]
        split <;> rfl
    refine hfirst.andThen ?_
    rintro - t ⟨hst, hlines, hdepths, hpool⟩
    refine (ih (s := t) (fun r' hr' => hlines ▸ hranges r' (List.mem_cons_of_mem _ hr'))
      (by rw [hlines, hdepths]; exact hhandler) (hpool ▸ hclass)).weaken ?_
    rintro - u ⟨htu, hlines', hdepths'⟩
    exact ⟨hst.trans htu, hlines'.trans hlines, hdepths'.trans hdepths⟩

end Draft

end ComponentViews
