import ComponentViews.Proofs.Code.Assembly

/-!
# Directives

Code is assembled by *directives*, one after another. What a directive appends to the code are
*pieces*: bytes, and the offsets of labels, which stay blank until the code is finished
(`Directive.Spells`). A directive that fails leaves the first of its pieces, and others may follow
it.

The steps of which directives consist either keep the code or append a piece to it, with a fixup if
the piece is an offset (`Assembly.Grown`). What a directive leaves then follows step by step
(`Directive.extended_after`), and what a list of them leaves follows directive by directive
(`Assembly.exists_lays`).
-/

namespace ComponentViews

open Instruction (switchPadding)

/-! ### Pieces -/

/-- A piece of code. -/
inductive Piece where
  | bytes (bytes : List UInt8)
  /-- How far it is to a label from the directive that the piece belongs to. -/
  | offset (isWide : Bool) (label : Label)

namespace Piece

/-- A number with its sign in four bytes or in two, high byte first. -/
def operand (isWide : Bool) (n : Int) : List UInt8 :=
  if isWide then Word.bytes32 (Int32.ofInt n).toUInt32 else Word.bytes16 (Int16.ofInt n).toUInt16

/-- The bytes of a piece, where the distances to labels are given. -/
def spell (distance : Label → Int) : Piece → List UInt8
  | bytes bs => bs
  | offset isWide label => operand isWide (distance label)

/-- The bytes of pieces, where the distances to labels are given. -/
def spellAll (distance : Label → Int) (pieces : List Piece) : List UInt8 :=
  pieces.flatMap (spell distance)

/-- The bytes of pieces with their offsets blank. -/
def blank (pieces : List Piece) : List UInt8 := spellAll (fun _ => 0) pieces

/-- What is to be filled in for pieces of a directive at `jumpPc`, from `pc` on. -/
def fixups (jumpPc : Nat) : (pc : Nat) → List Piece → List Fixup
  | _, [] => []
  | pc, bytes bs :: rest => fixups jumpPc (pc + bs.length) rest
  | pc, offset isWide label :: rest =>
    ⟨jumpPc, pc, isWide, label⟩ :: fixups jumpPc (pc + if isWide then 4 else 2) rest

theorem length_operand (isWide : Bool) (n : Int) :
    (operand isWide n).length = if isWide then 4 else 2 := by
  cases isWide <;> rfl

theorem operand_zero (isWide : Bool) :
    operand isWide 0 = List.replicate (if isWide then 4 else 2) 0 := by
  cases isWide <;> decide

theorem length_spell (distance distance' : Label → Int) (piece : Piece) :
    (piece.spell distance).length = (piece.spell distance').length := by
  cases piece with
  | bytes => rfl
  | offset => simp only [spell, length_operand]

theorem length_spellAll (distance distance' : Label → Int) (pieces : List Piece) :
    (spellAll distance pieces).length = (spellAll distance' pieces).length := by
  simp only [spellAll, List.length_flatMap]
  exact congrArg List.sum (List.map_congr_left fun piece _ => length_spell distance distance' piece)

theorem blank_append (pieces more : List Piece) :
    blank (pieces ++ more) = blank pieces ++ blank more :=
  List.flatMap_append

theorem blank_offset (isWide : Bool) (label : Label) (rest : List Piece) :
    blank (offset isWide label :: rest) =
      List.replicate (if isWide then 4 else 2) 0 ++ blank rest := by
  rw [blank, spellAll, List.flatMap_cons, spell, operand_zero]
  rfl

theorem fixups_append (jumpPc pc : Nat) (pieces more : List Piece) :
    fixups jumpPc pc (pieces ++ more) =
      fixups jumpPc pc pieces ++ fixups jumpPc (pc + (blank pieces).length) more := by
  induction pieces generalizing pc with
  | nil => rfl
  | cons piece pieces ih =>
    cases piece with
    | bytes bs =>
      rw [List.cons_append, fixups, ih, fixups, Nat.add_assoc]
      simp [blank, spellAll, spell]
    | offset isWide label =>
      rw [List.cons_append, fixups, ih, fixups, Nat.add_assoc]
      simp [blank, spellAll, spell, length_operand]

end Piece

/-! ### Directives -/

/-- A directive to assemble code. -/
inductive Directive where
  /-- An instruction with its effect on the stack. -/
  | instruction (i : Instruction) (delta : Int)
  /-- A load or store of a slot, in the shortest form. -/
  | access (op shortOp : UInt8) (slot : Nat) (delta : Int)
  | branch (op : UInt8) (label : Label) (delta : Int)
  | switch (otherwise : Label) (cases : List (Int32 × Label))
  | newLabel
  | place (label : Label)
  /-- The start of a handler. -/
  | enterHandler (depth : Nat)
  /-- A handler for a range of code. -/
  | addCatch (start stop handler : Nat) (catchType : UInt16)
  /-- The next instruction cannot be reached. -/
  | markUnreachable

namespace Directive

/-- The step of assembling that a directive asks for. -/
def run : Directive → Assemble Unit
  | instruction i delta => Assembly.emit i delta
  | access op shortOp slot delta => Assembly.emit (Assembly.localAccess op shortOp slot) delta
  | branch op label delta => Assembly.branch op label delta
  | switch otherwise cases => Assembly.switch otherwise cases
  | newLabel => do let _ ← Assembly.newLabel
  | place label => Assembly.place label
  | enterHandler depth => Assembly.enterHandler depth
  | addCatch start stop handler catchType =>
    modify (Assembly.addCatch start stop handler catchType)
  | markUnreachable => modify Assembly.markUnreachable

/-- The assembly behind a directive, whether it succeeds or not. -/
def after (d : Directive) (a : Assembly) : Assembly := (d.run.run.run a).2

/-- Whether a directive can be carried out. -/
def succeeds (d : Directive) (a : Assembly) : Bool := (d.run.run.run a).1.isOk

/-- Whether a directive appends anything to the code. -/
def appends : Directive → Bool
  | instruction .. | access .. | branch .. | switch .. => true
  | _ => false

/-- What a directive at `pc` appends to the code. The operands of a switch begin at a multiple of
    four, and its cases go in the order of their keys. -/
inductive Spells (pc : Nat) : Directive → List Piece → Prop where
  | instruction {i : Instruction} {delta : Int} :
      Spells pc (instruction i delta) [.bytes (i.encode pc)]
  | access {op shortOp : UInt8} {slot : Nat} {delta : Int} :
      Spells pc (access op shortOp slot delta)
        [.bytes ((Assembly.localAccess op shortOp slot).encode pc)]
  | branch {op : UInt8} {label : Label} {delta : Int} :
      Spells pc (branch op label delta) [.bytes [op], .offset false label]
  | switch {otherwise : Label} {cases sorted : List (Int32 × Label)} {padding : Nat} :
      padding < 4 → (pc + 1 + padding) % 4 = 0 → sorted.Perm cases →
      sorted.Pairwise (fun e next => e.1 ≤ next.1) →
      Spells pc (switch otherwise cases)
        (.bytes (Opcode.lookupswitch :: List.replicate padding 0) :: .offset true otherwise ::
          .bytes (Word.bytes32 (UInt32.ofNat cases.length)) ::
          sorted.flatMap fun e => [.bytes (Word.bytes32 e.1.toUInt32), .offset true e.2])
  | silent {d : Directive} : d.appends = false → Spells pc d []

end Directive

/-- What a directive has appended to the code. -/
structure Laid where
  directive : Directive
  /-- Where it begins. -/
  pc : Nat
  pieces : List Piece
  succeeded : Bool

namespace Laid

/-- The place that a label has got from a directive. -/
def placed (e : Laid) (label : Label) : Option Nat :=
  match e.directive with
  | .place other => if other = label ∧ e.succeeded = true then some e.pc else none
  | _ => none

/-- Where a label has been placed for the last time. -/
def place? : List Laid → Label → Option Nat
  | [], _ => none
  | e :: rest, label => (place? rest label).or (e.placed label)

/-- The bytes of directives with their offsets blank. -/
def blank (laid : List Laid) : List UInt8 := laid.flatMap fun e => Piece.blank e.pieces

/-- What is to be filled in for directives of which the first stands at `pc`. -/
def fixups : (pc : Nat) → List Laid → List Fixup
  | _, [] => []
  | pc, e :: rest =>
    Piece.fixups e.pc pc e.pieces ++ fixups (pc + (Piece.blank e.pieces).length) rest

end Laid

/-- What directives append to the code from an assembly on. One that fails leaves the first of its
    pieces. -/
inductive Lays : Assembly → List Directive → List Laid → Prop where
  | nil {a : Assembly} : Lays a [] []
  | cons {a : Assembly} {d : Directive} {ds : List Directive} {pieces whole : List Piece}
      {laid : List Laid} : d.Spells a.pc whole → pieces <+: whole →
      (d.succeeds a = true → pieces = whole) →
      (d.after a).code.toList = a.code.toList ++ Piece.blank pieces → Lays (d.after a) ds laid →
      Lays a (d :: ds) (⟨d, a.pc, pieces, d.succeeds a⟩ :: laid)

namespace Assembly

/-- The assembly behind directives. -/
def follow (a : Assembly) (ds : List Directive) : Assembly := ds.foldl (fun a d => d.after a) a

/-- Where a label is placed. -/
def place? (a : Assembly) (label : Label) : Option Nat := a.labels[label.id]?.bind (·.pc)

/-! ### Steps -/

/-- Bytes and fixups have been appended, and labels have been placed. -/
structure Extended (a b : Assembly) (bytes : List UInt8) (fixups : List Fixup)
    (placed : Label → Option Nat) : Prop where
  code : b.code.toList = a.code.toList ++ bytes
  fixups : b.fixups.toList = a.fixups.toList ++ fixups
  places : ∀ label, b.place? label = (placed label).or (a.place? label)

/-- Pieces of a directive at `jumpPc` have been appended to the code. -/
abbrev Grown (a b : Assembly) (jumpPc : Nat) (pieces : List Piece) : Prop :=
  Extended a b (Piece.blank pieces) (Piece.fixups jumpPc a.pc pieces) fun _ => none

section

variable {α β : Type} {a b c : Assembly} {jumpPc : Nat} {pieces more : List Piece}

theorem Extended.of_eq {placed : Label → Option Nat} (hcode : b.code = a.code)
    (hfixups : b.fixups = a.fixups)
    (hplaces : ∀ label, b.place? label = (placed label).or (a.place? label)) :
    Extended a b [] [] placed where
  code := by rw [hcode, List.append_nil]
  fixups := by rw [hfixups, List.append_nil]
  places := hplaces

theorem Extended.refl (a : Assembly) : Extended a a [] [] fun _ => none :=
  .of_eq rfl rfl fun _ => rfl

theorem Extended.congr {bytes : List UInt8} {fixups : List Fixup}
    {placed placed' : Label → Option Nat} (h : Extended a b bytes fixups placed)
    (hplaced : ∀ label, placed label = placed' label) : Extended a b bytes fixups placed' where
  code := h.code
  fixups := h.fixups
  places := fun label => hplaced label ▸ h.places label

theorem Extended.pc_eq {bytes : List UInt8} {fixups : List Fixup} {placed : Label → Option Nat}
    (h : Extended a b bytes fixups placed) : b.pc = a.pc + bytes.length := by
  rw [Assembly.pc_eq, h.code, List.length_append, Assembly.pc_eq]

theorem Extended.trans {bytes bytes' : List UInt8} {fixups fixups' : List Fixup}
    {placed placed' : Label → Option Nat} (h : Extended a b bytes fixups placed)
    (h' : Extended b c bytes' fixups' placed') :
    Extended a c (bytes ++ bytes') (fixups ++ fixups')
      fun label => (placed' label).or (placed label) where
  code := by rw [h'.code, h.code, List.append_assoc]
  fixups := by rw [h'.fixups, h.fixups, List.append_assoc]
  places := fun label => by rw [h'.places, h.places, Option.or_assoc]

theorem Grown.trans (h : Grown a b jumpPc pieces) (h' : Grown b c jumpPc more) :
    Grown a c jumpPc (pieces ++ more) := by
  rw [Grown, Piece.blank_append, Piece.fixups_append, ← h.pc_eq]
  exact Extended.trans h h'

/-- From an assembly on, a step appends pieces, or the first of them where it fails. -/
def Appends (step : Assemble α) (a : Assembly) (jumpPc : Nat) (pieces : List Piece) : Prop :=
  ∃ laid, laid <+: pieces ∧ ((step.run.run a).1.isOk = true → laid = pieces) ∧
    Grown a (step.run.run a).2 jumpPc laid

theorem run_bind_of_runs {step : Assemble α} {f : α → Assemble β} {r : α} (h : Runs step a r b) :
    (step >>= f).run.run a = (f r).run.run b := by
  rw [ExceptT.run_bind, StateT.run_bind, show step.run.run a = (.ok r, b) from h]
  rfl

theorem Appends.of_grown {step : Assemble α} (h : Grown a (step.run.run a).2 jumpPc pieces) :
    Appends step a jumpPc pieces :=
  ⟨pieces, List.prefix_rfl, fun _ => rfl, h⟩

/-- What has been appended first comes before what the rest appends. -/
theorem Grown.appends {step : Assemble α} (h : Grown a b jumpPc pieces) {r : α}
    (hruns : Runs step a r b) {f : α → Assemble β} (hnext : Appends (f r) b jumpPc more) :
    Appends (step >>= f) a jumpPc (pieces ++ more) := by
  obtain ⟨laid, hlaid, hwhole, hgrown⟩ := hnext
  rw [Appends, run_bind_of_runs hruns]
  exact ⟨pieces ++ laid, (List.prefix_append_right_inj pieces).2 hlaid,
    fun hok => by rw [hwhole hok], Grown.trans h hgrown⟩

theorem Appends.bind {step : Assemble α} {f : α → Assemble β} (h : Appends step a jumpPc pieces)
    (hf : ∀ r b, Appends (f r) b jumpPc more) :
    Appends (step >>= f) a jumpPc (pieces ++ more) := by
  obtain ⟨laid, hlaid, hwhole, hgrown⟩ := h
  cases hrun : step.run.run a with
  | mk result b =>
    rw [hrun] at hwhole hgrown
    cases result with
    | ok r =>
      obtain rfl := hwhole rfl
      exact hgrown.appends hrun (hf r b)
    | error fault =>
      -- What has been appended until the step failed is kept.
      have hfails : (step >>= f).run.run a = (.error fault, b) := by
        rw [ExceptT.run_bind, StateT.run_bind, hrun]
        rfl
      rw [Appends, hfails]
      exact ⟨laid, hlaid.trans (List.prefix_append _ _), fun hok => (Bool.false_ne_true hok).elim,
        hgrown⟩

theorem Appends.cons {step : Assemble α} {f : α → Assemble β} {piece : Piece}
    (h : Appends step a jumpPc [piece]) (hf : ∀ r b, Appends (f r) b jumpPc more) :
    Appends (step >>= f) a jumpPc (piece :: more) :=
  h.bind hf

/-- A step that appends nothing goes before one that does. -/
theorem Appends.before {step : Assemble α} {f : α → Assemble β} (h : Appends step a jumpPc [])
    (hf : ∀ r b, Appends (f r) b jumpPc more) : Appends (step >>= f) a jumpPc more :=
  h.bind hf

theorem appends_get (f : Assembly → Assemble α) (h : Appends (f a) a jumpPc pieces) :
    Appends (get >>= f) a jumpPc pieces := by
  have hget : Runs get a a a := rfl
  have hgrown : Grown a a jumpPc [] := Extended.refl a
  exact hgrown.appends hget h

theorem appends_pure (r : α) : Appends (pure r) a jumpPc [] := .of_grown (Extended.refl a)

theorem appends_kill : Appends kill a jumpPc [] := .of_grown (.of_eq rfl rfl fun _ => rfl)

theorem appends_adjust (delta : Int) : Appends (adjust delta) a jumpPc [] := by
  refine appends_get _ ?_
  by_cases hdown : (a.depth : Int) + delta < 0
  · rw [if_pos hdown]
    exact .of_grown (Extended.refl a)
  · rw [if_neg hdown]
    exact .of_grown (.of_eq rfl rfl fun _ => rfl)

/-- Where labels are placed when the state of one has changed. -/
theorem bind_pc_setIfInBounds {labels : Array LabelState} {label other : Label}
    {state state' : LabelState} (hstate : labels[label.id]? = some state) :
    ((labels.setIfInBounds label.id state')[other.id]?.bind (·.pc)) =
      if label = other then state'.pc else labels[other.id]?.bind (·.pc) := by
  have hlt := (Array.getElem?_eq_some_iff.1 hstate).1
  by_cases hother : label = other
  · rw [if_pos hother, ← hother, Array.getElem?_setIfInBounds_self_of_lt hlt]
    rfl
  · have hid : label.id ≠ other.id := fun h => hother (by cases label; cases other; simp_all)
    rw [if_neg hother, Array.getElem?_setIfInBounds_ne hid]

/-- Of what is known of a label only its depth is noted. -/
theorem appends_noteDepth (label : Label) : Appends (noteDepth label) a jumpPc [] := by
  refine appends_get _ ?_
  cases hstate : a.labels[label.id]? with
  | none => exact .of_grown (Extended.refl a)
  | some state =>
    obtain ⟨pc, depth⟩ := state
    cases depth with
    | some depth =>
      by_cases hdepth : depth = a.depth
      · simp only [hdepth, ne_eq, not_true_eq_false, if_false]
        exact appends_pure ()
      · simp only [ne_eq, hdepth, not_false_eq_true, if_true]
        exact .of_grown (Extended.refl a)
    | none =>
      refine .of_grown (.of_eq rfl rfl fun other => ?_)
      refine (bind_pc_setIfInBounds hstate).trans ?_
      split
      · rename_i hother
        rw [← hother, place?, hstate]
        rfl
      · rfl

theorem appends_bytes (bs : List UInt8) :
    Appends (modify (·.appendBytes bs)) a jumpPc [.bytes bs] := by
  refine .of_grown ⟨?_, (List.append_nil _).symm, fun _ => rfl⟩
  show (a.appendBytes bs).code.toList = _
  rw [toList_appendBytes, Piece.blank, Piece.spellAll, List.flatMap_singleton, Piece.spell]

/-- An offset is noted as a fixup before its blank bytes are appended. -/
theorem appends_offset (pieces more : List Piece) {isWide : Bool} {label : Label}
    {bs : List UInt8} {next : Assemble α} (hblank : Piece.blank pieces = bs)
    (hfixups : Piece.fixups jumpPc a.pc pieces = [⟨jumpPc, a.pc, isWide, label⟩])
    (h : ∀ b, Appends next b jumpPc more) :
    Appends (do
        addFixup jumpPc isWide label
        modify (·.appendBytes bs)
        next) a jumpPc (pieces ++ more) := by
  let b : Assembly := { a with fixups := a.fixups.push ⟨jumpPc, a.pc, isWide, label⟩ }
  have hgrown : Grown a (b.appendBytes bs) jumpPc pieces := by
    refine ⟨?_, ?_, fun _ => rfl⟩
    · rw [toList_appendBytes, hblank]
    · show b.fixups.toList = _
      rw [hfixups, Array.toList_push]
  have hnoted : Runs (addFixup jumpPc isWide label) a () b := rfl
  have hfilled : Runs (modify (·.appendBytes bs)) b () (b.appendBytes bs) := rfl
  obtain ⟨laid, hlaid, hwhole, hrest⟩ := h (b.appendBytes bs)
  rw [Appends, run_bind_of_runs hnoted, run_bind_of_runs hfilled]
  exact ⟨pieces ++ laid, (List.prefix_append_right_inj _).2 hlaid, fun hok => by rw [hwhole hok],
    Grown.trans hgrown hrest⟩

/-! ### Jumps and switches -/

theorem appends_emit (i : Instruction) (delta : Int) :
    Appends (emit i delta) a jumpPc [.bytes (i.encode a.pc)] := by
  refine (appends_bytes _).cons fun _ b => ?_
  refine (appends_adjust delta).before fun _ c => ?_
  split
  · exact appends_kill
  · exact appends_pure ()

theorem appends_branch (op : UInt8) (label : Label) (delta : Int) :
    Appends (branch op label delta) a a.pc [.bytes [op], .offset false label] := by
  refine appends_get _ ?_
  refine (appends_bytes [op]).cons fun _ b => ?_
  refine (appends_adjust delta).before fun _ c => ?_
  refine (appends_noteDepth label).before fun _ d => ?_
  -- The offset counts from `a`, where the opcode is, and not from `d`.
  refine appends_offset [.offset false label] [] (Piece.blank_offset false label []) rfl
    fun e => ?_
  split
  · exact appends_kill
  · exact appends_pure ()

/-- The pieces of a case of a switch. -/
def casePieces (e : Int32 × Label) : List Piece :=
  [.bytes (Word.bytes32 e.1.toUInt32), .offset true e.2]

theorem appends_switchCases (jumpPc : Nat) (cases : List (Int32 × Label)) :
    Appends (switchCases jumpPc cases) a jumpPc (cases.flatMap casePieces) := by
  induction cases generalizing a with
  | nil => exact appends_pure ()
  | cons e cases ih =>
    refine (appends_bytes _).cons fun _ b => ?_
    refine (appends_noteDepth e.2).before fun _ c => ?_
    exact appends_offset [.offset true e.2] (cases.flatMap casePieces)
      (Piece.blank_offset true e.2 []) rfl fun d => ih

theorem appends_switch (otherwise : Label) (cases : List (Int32 × Label)) :
    Appends (switch otherwise cases) a a.pc
      (.bytes (Opcode.lookupswitch :: List.replicate (switchPadding a.pc) 0) ::
        .offset true otherwise :: .bytes (Word.bytes32 (UInt32.ofNat cases.length)) ::
          (sortedCases cases).flatMap casePieces) := by
  refine appends_get _ ?_
  refine (appends_bytes _).cons fun _ b => ?_
  refine (appends_adjust (-1)).before fun _ c => ?_
  refine (appends_noteDepth otherwise).before fun _ d => ?_
  refine appends_offset
    [.offset true otherwise, .bytes (Word.bytes32 (UInt32.ofNat cases.length))]
    ((sortedCases cases).flatMap casePieces) (Piece.blank_offset true otherwise _) rfl fun e => ?_
  rw [← List.append_nil ((sortedCases cases).flatMap casePieces)]
  exact (appends_switchCases a.pc (sortedCases cases)).bind fun _ f => appends_kill

/-! ### Labels and handlers -/

theorem grown_newLabel (a : Assembly) :
    Grown a { a with labels := a.labels.push {} } jumpPc [] := by
  refine .of_eq rfl rfl fun label => ?_
  rw [place?, place?, Array.getElem?_push]
  split
  · rename_i hlabel
    rw [hlabel, Array.getElem?_eq_none (Nat.le_refl _)]
    rfl
  · rfl

theorem appends_enterHandler (depth : Nat) : Appends (enterHandler depth) a jumpPc [] := by
  have hreset : Appends (modify fun a => { a with alive := true, depth := 0 }) a jumpPc [] :=
    .of_grown (.of_eq rfl rfl fun _ => rfl)
  exact hreset.before fun _ b => appends_adjust depth

theorem grown_addCatch (a : Assembly) (start stop handler : Nat) (catchType : UInt16) :
    Grown a (a.addCatch start stop handler catchType) jumpPc [] := by
  rw [addCatch]
  split
  · exact .of_eq rfl rfl fun _ => rfl
  · exact Extended.refl a

/-- A label that is there is placed here, and nothing else changes. -/
theorem place_cases (a : Assembly) (label : Label) :
    (∃ b, Runs (place label) a () b ∧
        Extended a b [] [] fun other => if label = other then some a.pc else none) ∨
      (place label).run.run a = (.error .unknownLabel, a) := by
  have hget : Runs get a a a := rfl
  have hplaces : ∀ {state state'}, a.labels[label.id]? = some state → state'.pc = some a.pc →
      ∀ other, (a.labels.setIfInBounds label.id state')[other.id]?.bind (·.pc) =
        (if label = other then some a.pc else none).or (a.place? other) := by
    intro state state' hstate hpc other
    rw [bind_pc_setIfInBounds hstate, hpc]
    split <;> rfl
  cases hstate : a.labels[label.id]? with
  | none =>
    refine .inr ?_
    rw [place, run_bind_of_runs hget]
    simp only [hstate]
    rfl
  | some state =>
    obtain ⟨pc, depth⟩ := state
    cases depth with
    | none =>
      refine .inl ⟨{ a with labels := a.labels.setIfInBounds label.id ⟨some a.pc, none⟩ }, ?_,
        .of_eq rfl rfl (hplaces hstate rfl)⟩
      refine Runs.bind hget ?_
      simp only [hstate]
      rfl
    | some depth =>
      refine .inl ⟨{ a with
        labels := a.labels.setIfInBounds label.id ⟨some a.pc, some depth⟩
        alive := true
        depth := if a.alive then a.depth else depth }, ?_, .of_eq rfl rfl (hplaces hstate rfl)⟩
      refine Runs.bind hget ?_
      simp only [hstate]
      rfl

end

end Assembly

namespace Directive

open Assembly

/-! ### Directives -/

/-- A directive other than one that places a label appends what it spells. -/
theorem appends_run (d : Directive) (a : Assembly) (hd : ∀ label, d ≠ .place label) :
    ∃ pieces, d.Spells a.pc pieces ∧ Appends d.run a a.pc pieces := by
  cases d with
  | instruction i delta => exact ⟨_, .instruction, appends_emit i delta⟩
  | access op shortOp slot delta => exact ⟨_, .access, appends_emit _ delta⟩
  | branch op label delta => exact ⟨_, .branch, appends_branch op label delta⟩
  | switch otherwise cases =>
    refine ⟨_, .switch ?_ ?_ ?_ ?_, appends_switch otherwise cases⟩
    · rw [switchPadding]
      omega
    · rw [switchPadding]
      omega
    · exact List.mergeSort_perm cases _
    · refine (List.pairwise_mergeSort ?_ ?_ cases).imp fun h => of_decide_eq_true h
      · intro e f g hef hfg
        exact decide_eq_true (Int32.le_trans (of_decide_eq_true hef) (of_decide_eq_true hfg))
      · intro e f
        simpa using Int32.le_total e.1 f.1
  | newLabel => exact ⟨[], .silent rfl, .of_grown (grown_newLabel a)⟩
  | place label => exact absurd rfl (hd label)
  | enterHandler depth => exact ⟨[], .silent rfl, appends_enterHandler depth⟩
  | addCatch start stop handler catchType =>
    exact ⟨[], .silent rfl, .of_grown (grown_addCatch a start stop handler catchType)⟩
  | markUnreachable =>
    exact ⟨[], .silent rfl, .of_grown (.of_eq rfl rfl fun _ => rfl)⟩

/-- What a directive leaves: its pieces, or the first of them where it fails, and the place of a
    label if it places one. -/
theorem extended_after (d : Directive) (a : Assembly) :
    ∃ pieces whole, d.Spells a.pc whole ∧ pieces <+: whole ∧
      (d.succeeds a = true → pieces = whole) ∧
      Extended a (d.after a) (Piece.blank pieces) (Piece.fixups a.pc a.pc pieces)
        (Laid.placed ⟨d, a.pc, pieces, d.succeeds a⟩) := by
  -- A directive that places a label appends nothing, and the others place none.
  by_cases hplace : ∃ label, d = .place label
  · obtain ⟨label, rfl⟩ := hplace
    refine ⟨[], [], .silent rfl, List.prefix_rfl, fun _ => rfl, ?_⟩
    rcases place_cases a label with ⟨b, hruns, hextended⟩ | hfails
    · have hresult : (Directive.place label).run.run.run a = (.ok (), b) := hruns
      rw [after, succeeds, hresult]
      refine hextended.congr fun other => ?_
      simp [Laid.placed, Except.isOk, Except.toBool]
    · have hresult : (Directive.place label).run.run.run a = (.error .unknownLabel, a) := hfails
      rw [after, succeeds, hresult]
      refine (Extended.refl a).congr fun other => ?_
      simp [Laid.placed, Except.isOk, Except.toBool]
  · obtain ⟨whole, hspells, pieces, hprefix, hwhole, hgrown⟩ :=
      appends_run d a fun label hd => hplace ⟨label, hd⟩
    refine ⟨pieces, whole, hspells, hprefix, hwhole, Extended.congr hgrown fun label => ?_⟩
    cases d with
    | place other => exact absurd ⟨other, rfl⟩ hplace
    | _ => rfl

end Directive

namespace Assembly

/-- What directives leave from an assembly on. -/
theorem exists_lays (a : Assembly) (ds : List Directive) :
    ∃ laid, Lays a ds laid ∧
      Extended a (a.follow ds) (Laid.blank laid) (Laid.fixups a.pc laid) (Laid.place? laid) := by
  induction ds generalizing a with
  | nil => exact ⟨[], .nil, Extended.refl a⟩
  | cons d ds ih =>
    obtain ⟨pieces, whole, hspells, hprefix, hwhole, hextended⟩ := d.extended_after a
    -- The rest goes on from the assembly behind the first, which may have failed.
    obtain ⟨laid, hlays, hrest⟩ := ih (d.after a)
    refine ⟨_, .cons hspells hprefix hwhole hextended.code hlays, ?_⟩
    rw [Laid.fixups, ← hextended.pc_eq]
    exact hextended.trans hrest

end Assembly

end ComponentViews
