import ComponentViews.Proofs.Code.Regions

/-!
# Code of whole bodies

By induction on its statements, the code of a typed body completes: it ends where its blocks
do, and takes no more slots than it demands (`CodeContext.completes_block`). What is finished in
the end is the code of a sketch (`Sketch.Finished`); the only faults on the way are that
something is too large (`CodeContext.lower_cases`). That a method needs more slots than a word can
count (`CodeContext.slotsNeeded`) is not among them: the number that it is given is then too small.
-/

namespace ComponentViews

open Sketch Draft
open Lines (extent)

namespace CodeContext

variable {c : CodeContext} {checked : Prop} {room : Nat} {h : Hierarchy}
  {exits : List (Option ExitCode)} {needs : List (Option Nat)}

/-! ### Exit blocks around -/

theorem Covers.cons {exit : Option ExitCode} {copy : Option Nat} {exitEnds : Bool}
    (hexit : ExitIsSound c checked room exit copy exitEnds)
    (h : Covers c checked room exits needs) :
    Covers c checked room (exit :: exits) (copy :: needs) := by
  rcases hexit with ⟨rfl, rfl, -⟩ | ⟨e, k, rfl, rfl, he⟩
  · exact .plain h
  · exact .exit ⟨he.inFlight, he.fits, he.body.mono (Nat.le_refl _) nofun⟩ h

theorem demandOfInFlight_exitCode (exits : List (Option ExitCode)) (exit : Option ExitBlock) :
    demandOfInFlight (c.exitCode exits exit) = demandOfInFlight exit := by
  rcases exit with _ | ⟨_ | i, block⟩ <;> rw [exitCode] <;> rfl

/-! ### Statements that do not branch -/

theorem completes_assign (hc : c.HasValues) {i : Nat} {e : Expr}
    (htyped : c.TypedStmt True checked (.assign i e))
    (hcheck : (c.scope h).checkStmt (.assign i e) = .ok ()) (hroom : c.peak e ≤ room) :
    Completes c checked room 0 false (c.stmt exits (.assign i e)) := by
  intro s hdepth halive
  obtain ⟨hi, he⟩ := (Scope.checkStmt_assign _).1 hcheck
  rw [stmt]
  refine (yields_variableSlot hc
    (lt_of_checkVariable hc ((Scope.checkVariable_eq_ok _).2 hi))).andThen ?_
  rintro ⟨ty, slot⟩ s ⟨rfl, htype, htaken⟩
  have hslots : (c.typeOf e).slots = ty.slots := by
    rw [← show c.typeOf (.var i) = ty from htype]
    exact Ty.slots_congr htyped.2
  refine (yields_operand hc htyped.1 he hroom hdepth halive).andThen ?_
  rintro - t ⟨hst, ht⟩
  refine (yields_store (by rw [hst.alive, halive]) (htaken.later hst.toLater)
    (by rw [ht, hslots, Nat.zero_add])).weaken ?_
  rintro - u ⟨htu, hu⟩
  exact ⟨(hst.trans htu).passes, hu, fun h => absurd h Bool.false_ne_true⟩

theorem completes_setField (hc : c.HasValues) {f : FieldRef} {target value : Expr}
    (htyped : c.TypedStmt True checked (.setField f target value))
    (hcheck : (c.scope h).checkStmt (.setField f target value) = .ok ())
    (hroom : max (c.peak target) (1 + c.peak value) ≤ room) :
    Completes c checked room 0 false (c.stmt exits (.setField f target value)) := by
  intro s hdepth halive
  obtain ⟨⟨htarget, href⟩, ⟨hvalue, hkind⟩, hwritable⟩ := htyped
  obtain ⟨htargetCheck, hvalueCheck⟩ := (Scope.checkStmt_setField _).1 hcheck
  rw [stmt]
  refine (yields_operand hc htarget htargetCheck (by omega) hdepth halive).andThen ?_
  rintro - t ⟨hst, ht⟩
  rw [slots_of_isReference href] at ht
  have htalive : t.asm.alive = true := by rw [hst.alive, halive]
  refine (yields_expr hc value hvalue hvalueCheck htalive (by omega)).andThen ?_
  rintro - u ⟨htu, hu⟩
  rw [ht, show (c.typeOf value).slots = f.type.slots from Ty.slots_congr hkind] at hu
  have heffect : Opcode.memberEffect? Opcode.putfield f.type.descriptor.toList =
      some (1 + f.type.slots, 0) :=
    congrArg (fun slots => some (1 + slots, 0)) (Ty.slots_descriptor f.type)
  refine (yields_addAndEmit names_putfield (supplies_field hwritable rfl heffect)
    (by rw [htu.alive, htalive]) (by omega) (hu.trans (Nat.zero_add _).symm)
    (Nat.zero_le _)).weaken ?_
  rintro - v ⟨huv, hv⟩
  exact ⟨((hst.trans htu).trans huv).passes, hv, fun h => absurd h Bool.false_ne_true⟩

theorem completes_eval (hc : c.HasValues) {e : Expr} (he : c.Typed True checked e)
    (hcheck : (c.scope h).checkExpr e = .ok ()) (hroom : c.peak e ≤ room) :
    Completes c checked room 0 false (c.stmt exits (.eval e)) := by
  intro s hdepth halive
  rw [stmt]
  refine (yields_operand hc he hcheck hroom hdepth halive).andThen ?_
  rintro - t ⟨hst, ht⟩
  have htalive : t.asm.alive = true := by rw [hst.alive, halive]
  have hslots := Ty.slots_le_two (c.typeOf e)
  have hdrop : ∀ {op : UInt8} {slots : Nat} {delta : Int}, t.depth = slots →
      Opcode.plainEffect? op = some (slots, 0) → (slots : Int) + delta = 0 →
        (Instruction.plain op).isListed = true → (Instruction.plain op).lastSlot? = none →
          Opcode.isReturn op = false → Opcode.isTerminal op = false →
            Yields 0 (emit (.plain op) delta) t fun _ u =>
              Passes s u ∧ u.depth = 0 ∧ (false = true → u.asm.alive = false) := by
    intro op slots delta hdepth heffect hdelta hlisted hslot hreturn hgoes
    refine (yields_emit (i := .plain _) htalive heffect hdelta
      (hdepth.trans (Nat.zero_add _).symm) (Nat.zero_le _)
      (.plain (Instruction.isKnown_of_isListed hlisted) (fun _ => hlisted) rfl hslot hreturn)
      (fun _ => rfl) hgoes).weaken ?_
    rintro - u ⟨htu, hu⟩
    exact ⟨(hst.trans htu).passes, hu, fun h => absurd h Bool.false_ne_true⟩
  -- What is left on the stack is dropped, with one instruction for either size.
  obtain hn | hn | hn : (c.typeOf e).slots = 0 ∨ (c.typeOf e).slots = 1 ∨
      (c.typeOf e).slots = 2 := by omega
  all_goals rw [hn] at ht ⊢
  · exact Yields.pure ⟨hst.passes, ht, fun h => absurd h Bool.false_ne_true⟩
  · exact hdrop ht rfl rfl rfl rfl rfl rfl
  · exact hdrop ht rfl rfl rfl rfl rfl rfl

theorem completes_throw (hc : c.HasValues) {e : Expr} (he : c.Typed True checked e)
    (href : c.IsReference e) (hcheck : (c.scope h).checkExpr e = .ok ())
    (hroom : c.peak e ≤ room) :
    Completes c checked room 0 true (c.stmt exits (.throw e)) := by
  intro s hdepth halive
  rw [stmt]
  refine (yields_operand hc he hcheck hroom hdepth halive).andThen ?_
  rintro - t ⟨hst, ht⟩
  rw [slots_of_isReference href] at ht
  refine (yields_athrow ht).weaken ?_
  rintro - u ⟨htu, hu, hdead⟩
  exact ⟨hst.passes.trans htu, hu, fun _ => hdead⟩

/-! ### All statements -/

/-- What cannot be reached is left out. -/
theorem yields_block_dead {s : Sketch c checked room} {n : Nat} (hdead : s.asm.alive = false)
    (b : Block) : Yields n (c.block exits b) s fun _ t => t = s := by
  cases b with
  | nil =>
    rw [block]
    exact Yields.pure rfl
  | cons st rest =>
    rw [block]
    refine yields_isAlive.andThen ?_
    rintro alive s ⟨rfl, rfl⟩
    rw [hdead, if_neg Bool.false_ne_true]
    exact Yields.pure rfl

theorem ends_of_blockEnds {st : Stmt} {rest : Block} (h : blockEnds (st :: rest) = true) :
    st.ends = true ∨ blockEnds rest = true := by
  cases rest with
  | nil => exact .inl h
  | cons => exact .inr h

mutual

theorem completes_stmt (hc : c.HasValues) : ∀ (st : Stmt) {exits : List (Option ExitCode)}
    {needs : List (Option Nat)}, Covers c checked room exits needs →
      c.TypedStmt True checked st → (c.scope h).checkStmt st = .ok () → c.peakOfStmt st ≤ room →
        Completes c checked room (c.demand needs st) st.ends (c.stmt exits st)
  | .assign i e, exits, needs, _, htyped, hcheck, hroom => by
    rw [peakOfStmt] at hroom
    exact completes_assign hc htyped hcheck hroom
  | .setField f target value, exits, needs, _, htyped, hcheck, hroom => by
    rw [peakOfStmt] at hroom
    exact completes_setField hc htyped hcheck hroom
  | .eval e, exits, needs, _, htyped, hcheck, hroom => by
    rw [peakOfStmt] at hroom
    exact completes_eval hc htyped ((Scope.checkStmt_eval _).1 hcheck) hroom
  | .cond cond yes no, exits, needs, hexits, htyped, hcheck, hroom => by
    obtain ⟨hcond, hyes, hno⟩ := htyped
    obtain ⟨hcondCheck, hyesCheck, hnoCheck⟩ := (Scope.checkStmt_cond _).1 hcheck
    rw [peakOfStmt] at hroom
    have hyes := completes_block hc yes hexits hyes hyesCheck (by omega)
    have hno := completes_block hc no hexits hno hnoCheck (by omega)
    rw [demand, Stmt.ends, stmt]
    cases no with
    | nil =>
      rw [demandOfBlock, blockEnds, Bool.and_false]
      exact completes_choiceNone hc hcond hcondCheck (by omega) hyes
    | cons => exact completes_choiceSome hc hcond hcondCheck (by omega) hyes hno
  | .switch key cases otherwise, exits, needs, hexits, htyped, hcheck, hroom => by
    obtain ⟨⟨hkey, hkind⟩, hcases, hotherwise⟩ := htyped
    obtain ⟨hkeyCheck, -, hcasesCheck, hotherwiseCheck⟩ := (Scope.checkStmt_switch _).1 hcheck
    rw [peakOfStmt] at hroom
    rw [demand, Stmt.ends, stmt]
    exact completes_switch hc hkey hkind hkeyCheck (by omega)
      (completes_cases hc cases hexits hcases hcasesCheck (by omega))
      (completes_block hc otherwise hexits hotherwise hotherwiseCheck (by omega))
  | .throw e, exits, needs, _, htyped, hcheck, hroom => by
    rw [peakOfStmt] at hroom
    exact completes_throw hc htyped.1 htyped.2 ((Scope.checkStmt_throw _).1 hcheck) hroom
  | .ret none, exits, needs, hexits, _, hcheck, _ => by
    rw [demand, Stmt.ends, stmt]
    exact completes_returnNone hc hexits ((Scope.checkStmt_ret_none _).1 hcheck)
  | .ret (some e), exits, needs, hexits, htyped, hcheck, hroom => by
    obtain ⟨hvoid, he⟩ := (Scope.checkStmt_ret_some _).1 hcheck
    rw [peakOfStmt] at hroom
    rw [demand, Stmt.ends, stmt]
    exact completes_returnSome hc hexits htyped.1 he hroom htyped.2 hvoid
  | .region body handlers exit, exits, needs, hexits, htyped, hcheck, hroom => by
    obtain ⟨hbody, hhandlers, hexit⟩ := htyped
    obtain ⟨-, hbodyCheck, hhandlersCheck, hexitCheck⟩ := (Scope.checkStmt_region _).1 hcheck
    have hhandlersCheck := ((Scope.checkHandlers_eq_ok _).1 hhandlersCheck).1
    rw [peakOfStmt] at hroom
    have hexit := completes_exit hc exit hexits hexit hexitCheck (by omega) (by omega)
    -- What leaves the region from within runs its exit block before those around it.
    have hinner := hexits.cons hexit
    rw [demand, Stmt.ends, stmt, ← demandOfInFlight_exitCode (c := c) exits]
    exact completes_region hc (by omega)
      (completes_block hc body hinner hbody hbodyCheck (by omega))
      (completes_handlers hc handlers hinner hhandlers hhandlersCheck (by omega)) hexit

/-- The code of a typed block. -/
theorem completes_block (hc : c.HasValues) : ∀ (b : Block) {exits : List (Option ExitCode)}
    {needs : List (Option Nat)}, Covers c checked room exits needs →
      c.TypedBlock True checked b → (∀ st ∈ b, (c.scope h).checkStmt st = .ok ()) →
        c.peakOfBlock b ≤ room →
          Completes c checked room (c.demandOfBlock needs b) (blockEnds b) (c.block exits b)
  | [], exits, needs, _, _, _, _ => fun s hdepth _ => by
    rw [block]
    exact Yields.pure ⟨Flows.refl s, hdepth, fun hends => by rw [blockEnds] at hends; cases hends⟩
  | st :: rest, exits, needs, hexits, htyped, hcheck, hroom => fun s hdepth halive => by
    rw [peakOfBlock] at hroom
    rw [demandOfBlock, block]
    refine yields_isAlive.andThen ?_
    rintro alive s ⟨rfl, rfl⟩
    rw [halive, if_pos rfl]
    refine (completes_stmt hc st hexits htyped.1 (hcheck st List.mem_cons_self) (by omega) s
      hdepth halive).bind ?_
    rintro - t ⟨hst, ht, hdead⟩
    -- Behind a statement that control does not go on from, nothing is written.
    cases htalive : t.asm.alive with
    | false =>
      refine (yields_block_dead htalive rest).weaken ?_
      rintro - u rfl
      exact ⟨hst, ht, fun _ => htalive⟩
    | true =>
      refine (completes_block hc rest hexits htyped.2
        (fun st' hst' => hcheck st' (List.mem_cons_of_mem _ hst')) (by omega) t ht
        htalive).weaken ?_
      rintro - u ⟨htu, hu, hudead⟩
      refine ⟨hst.trans htu, hu, fun hends => ?_⟩
      rcases ends_of_blockEnds hends with hends | hends
      · rw [hdead hends] at htalive
        cases htalive
      · exact hudead hends

theorem completes_cases (hc : c.HasValues) : ∀ (cases : List (Int32 × Block))
    {exits : List (Option ExitCode)} {needs : List (Option Nat)},
      Covers c checked room exits needs → c.TypedCases True checked cases →
        (∀ e ∈ cases, ∀ st ∈ e.2, (c.scope h).checkStmt st = .ok ()) →
          c.peakOfCases cases ≤ room →
            CasesComplete c checked room (c.switchCases exits cases)
              (c.demandOfCases needs cases) (casesEnd cases)
  | [], exits, needs, _, _, _, _ => by
    rw [switchCases, demandOfCases, casesEnd]
    exact .nil
  | (key, block) :: rest, exits, needs, hexits, htyped, hcheck, hroom => by
    rw [peakOfCases] at hroom
    rw [switchCases, demandOfCases, casesEnd]
    exact .cons
      (completes_block hc block hexits htyped.1 (hcheck _ List.mem_cons_self) (by omega))
      (completes_cases hc rest hexits htyped.2
        (fun e he => hcheck e (List.mem_cons_of_mem _ he)) (by omega))

theorem completes_handlers (hc : c.HasValues) : ∀ (handlers : List Handler)
    {exits : List (Option ExitCode)} {needs : List (Option Nat)} {copy : Nat},
      Covers c checked room exits needs → c.TypedHandlers True checked handlers →
        (∀ x ∈ handlers, x.binding < (c.scope h).vars ∧
          ∀ st ∈ x.body, (c.scope h).checkStmt st = .ok ()) →
          c.peakOfHandlers handlers ≤ room →
            HandlersComplete c checked room copy (c.handlerCodes exits handlers)
              (c.demandOfHandlers needs copy handlers) (handlersEnd handlers)
  | [], exits, needs, copy, _, _, _, _ => by
    rw [handlerCodes, demandOfHandlers, handlersEnd]
    exact .nil
  | ⟨caught, binding, block⟩ :: rest, exits, needs, copy, hexits, htyped, hcheck, hroom => by
    obtain ⟨hbinding, hblock⟩ := hcheck _ List.mem_cons_self
    rw [peakOfHandlers] at hroom
    rw [handlerCodes, demandOfHandlers, handlersEnd]
    exact .cons (lt_of_checkVariable hc ((Scope.checkVariable_eq_ok _).2 hbinding))
      (completes_block hc block hexits htyped.1 hblock (by omega))
      (completes_handlers hc rest hexits htyped.2
        (fun x hx => hcheck x (List.mem_cons_of_mem _ hx)) (by omega))

theorem completes_exit (hc : c.HasValues) : ∀ (exit : Option ExitBlock)
    {exits : List (Option ExitCode)} {needs : List (Option Nat)},
      Covers c checked room exits needs → c.TypedExit True checked exit →
        (c.scope h).checkExit exit = .ok () → 1 ≤ room → c.peakOfExit exit ≤ room →
          ExitIsSound c checked room (c.exitCode exits exit) (c.demandOfExit needs exit)
            (exitEnds exit)
  | none, exits, needs, _, _, _, _, _ => by
    rw [exitCode, demandOfExit, exitEnds]
    exact .inl ⟨rfl, rfl, rfl⟩
  | some ⟨inFlight, block⟩, exits, needs, hexits, htyped, hcheck, hfits, hroom => by
    obtain ⟨hinFlight, hblock⟩ := (Scope.checkExit_some _).1 hcheck
    rw [peakOfExit] at hroom
    rw [exitCode, demandOfExit, exitEnds]
    exact .inr ⟨_, _, rfl, rfl,
      fun i hi => lt_of_checkVariable hc ((Scope.checkVariable_eq_ok _).2 (hinFlight i hi)),
      hfits, completes_block hc block hexits htyped hblock hroom⟩

end

end CodeContext

/-! ### Finished code -/

/-- The slots that a method needs: those of the object, the arguments and the variables, and those
    of what waits while exit blocks run. -/
def CodeContext.slotsNeeded (c : CodeContext) : Nat :=
  c.fixedSlots + c.demandOfBlock [] c.body.block

/-- What is finished is the code of a sketch that control does not go on from, with the offsets
    of its jumps filled in. -/
structure Sketch.Finished {c : CodeContext} {checked : Prop} {room : Nat}
    (s : Sketch c checked room) (d : Draft) : Prop where
  dead : s.asm.alive = false
  depth : s.depth = 0
  placed : ∀ k, k < s.labels.size → IsPlaced s k
  code : d.asm.code.toList =
    Listing.encodeAll 0 (Lines.resolve (Assembly.placeOf s.labels) 0 s.lines)
  reaches : Assembly.ReachesAll (Assembly.placeOf s.labels) 0 s.lines
  small : extent s.lines ≤ Assembly.maxSize
  maxDepth : d.asm.maxDepth = s.asm.maxDepth
  table : d.asm.table = s.asm.table
  pool : d.pool = s.draft.pool
  counted : d.nextSlot = s.slots % 65536
  needed : s.slots ≤ c.slotsNeeded

namespace CodeContext

variable {c : CodeContext} {checked : Prop} {room : Nat} {h : Hierarchy}
  {s : Sketch c checked room}

/-- Code is finished unless it is too large. -/
theorem results_finish (hdead : s.asm.alive = false) (hdepth : s.depth = 0)
    (hplaced : ∀ k, k < s.labels.size → IsPlaced s k) (hneeded : s.slots ≤ c.slotsNeeded) :
    Results (assemble Assembly.finish) s fun _ d => s.Finished d := by
  have hlines : s.lines ≠ [] := fun hnil => by
    have hpos := s.drawn.extent_pos hdead
    rw [hnil] at hpos
    exact Nat.lt_irrefl 0 hpos
  rcases Assembly.finishes s.drawn.code s.drawn.fixups hlines fun l hl label hlabel => by
    obtain ⟨st, hst, -⟩ := (s.drawn.drawn l hl).noted label hlabel
    exact hplaced label.id (Array.getElem?_eq_some_iff.1 hst).1 with
    ⟨code, hruns, hcode, hreaches, hsmall⟩ | ⟨fault, hfails, hlimit⟩
  · exact results_assemble hruns
      ⟨hdead, hdepth, hplaced, hcode, hreaches, hsmall, rfl, rfl, rfl, s.drawn.counted, hneeded⟩
  · exact results_assemble_fails hfails (.inl hlimit)

/-- The code of a typed body is finished, unless something is too large. -/
theorem results_wholeBody (hc : c.HasValues) (hcheck : c.method.check h = .ok ())
    (htyped : c.TypedBlock True checked c.body.block) (hroom : c.peakOfBlock c.body.block ≤ room)
    (hlabels : s.labels = #[]) (hslots : s.slots = c.fixedSlots) (hdepth : s.depth = 0)
    (halive : s.asm.alive = true) :
    Results c.wholeBody s fun _ d => ∃ t : Sketch c checked room, t.Finished d := by
  obtain ⟨hblock, hends⟩ := (Method.check_iff hc.body).1 hcheck
  -- All labels were made by the code, which has given each its place.
  have hfinish : ∀ t : Sketch c checked room, Passes s t → t.slots ≤ c.slotsNeeded →
      t.depth = 0 → t.asm.alive = false →
        Results (assemble Assembly.finish) t
          fun _ d => ∃ t : Sketch c checked room, t.Finished d := by
    intro t hst hneeded ht hdead
    refine (results_finish hdead ht (fun k hk => ?_) hneeded).mono fun _ _ hd => ⟨t, hd⟩
    have hstate := Array.getElem?_eq_getElem hk
    cases hpc : t.labels[k].pc with
    | none =>
      exact (hst.labels.fresh k _ (by rw [hlabels]; exact Nat.zero_le k) hstate hpc).elim
    | some pc => exact ⟨pc, by rw [hstate, Option.bind_some, hpc]⟩
  rw [wholeBody]
  refine (completes_block hc c.body.block .nil htyped hblock hroom s hdepth halive).results ?_
  rintro - t ⟨hst, ht, hdead⟩ htaken
  have hneeded : t.slots ≤ c.slotsNeeded := by rw [slotsNeeded, ← hslots]; exact htaken
  refine Yields.results (m := 0) yields_isAlive ?_
  rintro alive t ⟨rfl, rfl⟩ -
  cases htalive : t.asm.alive with
  | false => exact hfinish t hst hneeded ht htalive
  | true =>
    have hvoid : c.method.result.isVoid = true := hends.resolve_right fun hends => by
      rw [hdead hends] at htalive
      cases htalive
    have hop : Opcode.vreturn = returnOp c.method.result := by rw [returnOp, hvoid, if_pos rfl]
    have hresult : c.method.result.slots = 0 := by rw [Ty.slots, hvoid, if_pos rfl]
    rw [if_pos rfl, hvoid, hop]
    refine Yields.results (m := 0)
      (yields_return (by rw [hresult]; rfl) (by rw [ht, hresult])) ?_
    rintro - u ⟨htu, hu, hudead⟩ hkept
    exact hfinish u (hst.trans htu) (Nat.le_trans hkept hneeded) hu hudead

/-- The code attribute of what has been drafted. -/
def codeOf (d : Draft) : CodeAttribute where
  maxStack := UInt16.ofNat d.asm.maxDepth
  maxLocals := UInt16.ofNat d.nextSlot
  code := d.asm.code.toList
  table := d.asm.table.toList

theorem lower_of_ok {p : Pool} {d : Draft}
    (hrun : c.wholeBody ⟨{}, p, c.firstFree, []⟩ = .ok ((), d)) :
    c.lower p = .ok (codeOf d, d.pool) := by
  show (c.wholeBody ⟨{}, p, c.firstFree, []⟩ >>= fun r => Except.ok (codeOf r.2, r.2.pool)) = _
  rw [hrun]
  rfl

theorem lower_of_error {p : Pool} {fault : LoweringFault}
    (hrun : c.wholeBody ⟨{}, p, c.firstFree, []⟩ = .error fault) : c.lower p = .error fault := by
  show (c.wholeBody ⟨{}, p, c.firstFree, []⟩ >>= fun r => Except.ok (codeOf r.2, r.2.pool)) = _
  rw [hrun]
  rfl

/-- A fault that tells that something is too large: the constant pool, the code array or the
    offset of a jump, or more places on the operand stack are needed than a method can have. -/
def IsTooLarge (c : CodeContext) : LoweringFault → Prop
  | .poolOverflow | .assembly (.codeTooLarge _) | .assembly (.branchOutOfRange _) => True
  | .assembly (.stackUnderflow _ _) => 65535 < c.peakOfBlock c.body.block
  | _ => False

theorem IsTooLarge.of_excused {fault : LoweringFault}
    (h : fault.IsExcused (c.peakOfBlock c.body.block)) : c.IsTooLarge fault := by
  rcases h with hlimit | ⟨hunderflow, hroom⟩
  · rcases fault with _ | (_ | _ | _ | _ | _ | _ | _) | _ | _ | _ | _ | _ | _ | _ | _ <;>
      trivial
  · rcases fault with _ | (_ | _ | _ | _ | _ | _ | _) | _ | _ | _ | _ | _ | _ | _ | _ <;>
      first | exact hroom | cases hunderflow

/-- A typed body becomes the code of a sketch, or something is too large. -/
theorem lower_cases (hc : c.HasValues) (hcheck : c.method.check h = .ok ())
    (htyped : c.TypedBlock True checked c.body.block) {p : Pool} (hp : p.Sound checked) :
    (∃ (d : Draft) (s : Sketch c checked (c.peakOfBlock c.body.block)),
      c.lower p = .ok (codeOf d, d.pool) ∧ s.Finished d) ∨
    ∃ fault, c.lower p = .error fault ∧ c.IsTooLarge fault := by
  let s : Sketch c checked (c.peakOfBlock c.body.block) := ⟨[], fun _ => 0, _, _, .start hp⟩
  have hresults := results_wholeBody (s := s) hc hcheck htyped (Nat.le_refl _) rfl rfl rfl rfl
  rw [Results] at hresults
  split at hresults
  · rename_i d hrun
    obtain ⟨t, ht⟩ := hresults
    exact .inl ⟨d, t, lower_of_ok hrun, ht⟩
  · rename_i fault hrun
    exact .inr ⟨fault, lower_of_error hrun, .of_excused hresults⟩

end CodeContext

end ComponentViews
