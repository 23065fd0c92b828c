import ComponentViews.Proofs.Code.Lines

/-!
# Finishing code

When code is finished the blank offsets of its jumps are filled in, one fixup after another.
The fixups of a line change the bytes of that line only, so that the lines are finished one
after another too (`finishes_lines`): each becomes the instruction whose jumps lead to the
places of its labels. The only fault on the way is a place out of the reach of a jump.
-/

namespace ComponentViews

open Instruction (switchPadding)
open Listing (encodeAll)

namespace Assembly

/-! ### Patches -/

/-- A patch replaces as many bytes as it has. -/
theorem toList_patch {code : Array UInt8} (pre : List UInt8) {old new post : List UInt8}
    (hcode : code.toList = pre ++ (old ++ post)) (hlength : old.length = new.length) :
    (patch code pre.length new).toList = pre ++ (new ++ post) := by
  induction new generalizing code pre old with
  | nil =>
    rw [List.length_nil, List.length_eq_zero_iff] at hlength
    rw [patch, hcode, hlength]
  | cons b new ih =>
    cases old with
    | nil => simp at hlength
    | cons a old =>
      rw [patch]
      have hset : (code.setIfInBounds pre.length b).toList = (pre ++ [b]) ++ (old ++ post) := by
        rw [Array.toList_setIfInBounds, hcode]
        simp
      have h := ih (pre ++ [b]) hset (by simpa using hlength)
      rw [List.length_append, List.length_singleton] at h
      rw [h]
      simp

/-! ### Running steps -/

section

variable {α β : Type}

/-- A step succeeds from one assembly with another. -/
def Runs (step : Assemble α) (a : Assembly) (r : α) (b : Assembly) : Prop :=
  step.run.run a = (.ok r, b)

/-- A step fails from an assembly. -/
def Fails (step : Assemble α) (a : Assembly) (fault : AssemblyFault) : Prop :=
  (step.run.run a).1 = .error fault

theorem Runs.bind {step : Assemble α} {f : α → Assemble β} {a b c : Assembly} {r : α} {s : β}
    (h : Runs step a r b) (hf : Runs (f r) b s c) : Runs (step >>= f) a s c := by
  rw [Runs, ExceptT.run_bind, StateT.run_bind, show step.run.run a = (.ok r, b) from h]
  exact hf

/-- Both steps succeed. -/
theorem exists_of_runs_bind {step : Assemble α} {f : α → Assemble β} {a c : Assembly}
    {s : β} (h : Runs (step >>= f) a s c) : ∃ r b, Runs step a r b ∧ Runs (f r) b s c := by
  rw [Runs, ExceptT.run_bind, StateT.run_bind] at h
  cases hrun : step.run.run a with
  | mk result b =>
    rw [hrun] at h
    cases result with
    | error fault => cases h
    | ok r => exact ⟨r, b, hrun, h⟩

theorem Runs.bind_fails {step : Assemble α} {f : α → Assemble β} {a b : Assembly} {r : α}
    {fault : AssemblyFault} (h : Runs step a r b) (hf : Fails (f r) b fault) :
    Fails (step >>= f) a fault := by
  rw [Fails, ExceptT.run_bind, StateT.run_bind, show step.run.run a = (.ok r, b) from h]
  exact hf

theorem Fails.bind {step : Assemble α} {f : α → Assemble β} {a : Assembly}
    {fault : AssemblyFault} (h : Fails step a fault) : Fails (step >>= f) a fault := by
  rw [Fails, ExceptT.run_bind, StateT.run_bind]
  rw [Fails] at h
  cases hrun : step.run.run a with
  | mk result b =>
    rw [hrun] at h
    have h : result = .error fault := h
    subst h
    rfl

end

/-! ### Filling in offsets -/

/-- The places of labels, each of which has one. -/
def placeOf (labels : Array LabelState) (label : Label) : Nat :=
  (labels[label.id]?.bind (·.pc)).getD 0

/-- A label has been placed. -/
def IsPlaced (labels : Array LabelState) (label : Label) : Prop :=
  ∃ pc, labels[label.id]?.bind (·.pc) = some pc

theorem runs_applyFixup {a : Assembly} {f : Fixup} {bytes : List UInt8}
    (hplaced : IsPlaced a.labels f.label)
    (hbytes : offsetBytes f.isWide ((placeOf a.labels f.label : Int) - f.jumpPc) = .ok bytes) :
    Runs (applyFixup f) a () { a with code := patch a.code f.operandPc bytes } := by
  obtain ⟨pc, hpc⟩ := hplaced
  rw [placeOf, hpc, Option.getD_some] at hbytes
  refine Runs.bind (b := a) (r := a) rfl ?_
  rw [hpc]
  refine Runs.bind (b := a) (r := bytes) ?_ rfl
  rw [hbytes]
  rfl

/-- The offset of a jump fits into its operand. -/
def Reaches (place : Label → Nat) (pc : Nat) : Line → Prop
  | .jump _ label => -32768 ≤ (place label : Int) - pc ∧ (place label : Int) - pc ≤ 32767
  | _ => True

theorem finishes_cases {cases : List (Int32 × Label)} {a : Assembly} {pre post : List UInt8}
    (jumpPc : Nat) (hplaced : ∀ e ∈ cases, IsPlaced a.labels e.2)
    (hcode : a.code.toList = pre ++ ((cases.flatMap fun e =>
      Word.bytes32 e.1.toUInt32 ++ Word.bytes32 0) ++ post)) :
    ∃ code, Runs ((Line.caseFixups jumpPc pre.length cases).forM applyFixup) a ()
        { a with code } ∧
      code.toList = pre ++ ((cases.flatMap fun e => Word.bytes32 e.1.toUInt32 ++
        Word.bytes32 (Int32.ofInt ((placeOf a.labels e.2 : Int) - jumpPc)).toUInt32) ++
          post) := by
  induction cases generalizing a pre with
  | nil => exact ⟨a.code, rfl, hcode⟩
  | cons e cases ih =>
    have hrun := runs_applyFixup (f := ⟨jumpPc, pre.length + 4, true, e.2⟩)
      (hplaced e List.mem_cons_self) rfl
    have hword : a.code.toList = (pre ++ Word.bytes32 e.1.toUInt32) ++ (Word.bytes32 0 ++
        ((cases.flatMap fun e => Word.bytes32 e.1.toUInt32 ++ Word.bytes32 0) ++ post)) := by
      rw [hcode, List.flatMap_cons]
      simp only [List.append_assoc]
    have hpatched := toList_patch _ hword (Word.length_bytes32
      (Int32.ofInt ((placeOf a.labels e.2 : Int) - jumpPc)).toUInt32).symm
    rw [List.length_append, Word.length_bytes32, ← List.append_assoc] at hpatched
    -- The labels stay as they are, so that the rest is finished alike.
    obtain ⟨code, hruns, hlist⟩ := ih (a := { a with code := patch a.code (pre.length + 4) _ })
      (fun f hf => hplaced f (List.mem_cons_of_mem _ hf)) hpatched
    rw [List.length_append, List.length_append, Word.length_bytes32, Word.length_bytes32] at hruns
    refine ⟨code, hrun.bind hruns, ?_⟩
    rw [hlist, List.flatMap_cons]
    simp only [List.append_assoc]

/-- A jump is finished by the offset to its place, unless this does not fit. -/
theorem finishes_jump {op : UInt8} {label : Label} {a : Assembly} {pre post : List UInt8}
    (hlabel : IsPlaced a.labels label)
    (hcode : a.code.toList = pre ++ ((Line.jump op label).blank.encode pre.length ++ post)) :
    (∃ code, Runs (((Line.jump op label).fixups pre.length).forM applyFixup) a () { a with code } ∧
        code.toList = pre ++ (((Line.jump op label).resolve (placeOf a.labels) pre.length).encode
          pre.length ++ post) ∧ Reaches (placeOf a.labels) pre.length (.jump op label)) ∨
      ∃ offset, Fails (((Line.jump op label).fixups pre.length).forM applyFixup) a
        (.branchOutOfRange offset) := by
  by_cases hreach : -32768 ≤ (placeOf a.labels label : Int) - pre.length ∧
      (placeOf a.labels label : Int) - pre.length ≤ 32767
  · have hrun := runs_applyFixup (f := ⟨pre.length, pre.length + 1, false, label⟩) hlabel
      (by rw [offsetBytes, if_neg (by simp), if_pos hreach])
    have hword : a.code.toList = (pre ++ [op]) ++ (Word.bytes16 0 ++ post) := by
      rw [hcode, List.append_assoc]
      rfl
    have hpatched := toList_patch _ hword (Word.length_bytes16
      (Int16.ofInt ((placeOf a.labels label : Int) - pre.length)).toUInt16).symm
    rw [List.length_append, List.length_singleton] at hpatched
    refine .inl ⟨_, hrun.bind (b := _) rfl, ?_, hreach⟩
    rw [hpatched]
    simp [Line.resolve, Instruction.encode]
  · refine .inr ⟨(placeOf a.labels label : Int) - pre.length, Fails.bind ?_⟩
    obtain ⟨pc, hpc⟩ := hlabel
    rw [placeOf, hpc, Option.getD_some] at hreach ⊢
    refine Runs.bind_fails (b := a) (r := a) rfl ?_
    rw [hpc]
    refine Fails.bind ?_
    rw [offsetBytes, if_neg (by simp), if_neg hreach]
    rfl

/-- A switch is finished by the offset of its default and then by those of its cases, which have
    four bytes each and so all fit. -/
theorem finishes_switch {otherwise : Label} {cases : List (Int32 × Label)} {a : Assembly}
    {pre post : List UInt8}
    (hplaced : ∀ label ∈ (Line.switch otherwise cases).labels, IsPlaced a.labels label)
    (hcode : a.code.toList =
      pre ++ ((Line.switch otherwise cases).blank.encode pre.length ++ post)) :
    ∃ code, Runs (((Line.switch otherwise cases).fixups pre.length).forM applyFixup) a ()
        { a with code } ∧
      code.toList = pre ++ (((Line.switch otherwise cases).resolve (placeOf a.labels)
        pre.length).encode pre.length ++ post) := by
  have hrun := runs_applyFixup
    (f := ⟨pre.length, pre.length + 1 + switchPadding pre.length, true, otherwise⟩)
    (hplaced otherwise List.mem_cons_self) rfl
  have hpadded : (pre ++ Opcode.lookupswitch ::
      List.replicate (switchPadding pre.length) 0).length =
        pre.length + 1 + switchPadding pre.length := by
    simp
    omega
  have hword : a.code.toList = (pre ++ Opcode.lookupswitch ::
      List.replicate (switchPadding pre.length) 0) ++ (Word.bytes32 0 ++
        (Word.bytes32 (UInt32.ofNat cases.length) ++ ((cases.flatMap fun e =>
          Word.bytes32 e.1.toUInt32 ++ Word.bytes32 0) ++ post))) := by
    rw [hcode]
    simp only [Line.blank, Instruction.encode, List.length_map, List.flatMap_map,
      List.append_assoc]
    rfl
  have hpatched := toList_patch _ hword (Word.length_bytes32
    (Int32.ofInt ((placeOf a.labels otherwise : Int) - pre.length)).toUInt32).symm
  rw [hpadded, ← List.append_assoc, ← List.append_assoc] at hpatched
  -- The cases follow the count, which stays as it was written.
  obtain ⟨code, hruns, hlist⟩ := finishes_cases
    (a := { a with code := patch a.code (pre.length + 1 + switchPadding pre.length) _ })
    pre.length (fun e he => hplaced e.2
      (List.mem_cons_of_mem _ (List.mem_map.2 ⟨e, he, rfl⟩))) hpatched
  rw [List.length_append, List.length_append, hpadded, Word.length_bytes32,
    Word.length_bytes32] at hruns
  refine ⟨code, hrun.bind hruns, ?_⟩
  rw [hlist]
  simp only [Line.resolve, Instruction.encode, List.length_map, List.flatMap_map,
    List.append_assoc]

/-- A line is finished by its fixups, unless a jump does not reach its place. -/
theorem finishes_line {l : Line} {a : Assembly} {pre post : List UInt8}
    (hplaced : ∀ label ∈ l.labels, IsPlaced a.labels label)
    (hcode : a.code.toList = pre ++ (l.blank.encode pre.length ++ post)) :
    (∃ code, Runs ((l.fixups pre.length).forM applyFixup) a () { a with code } ∧
        code.toList = pre ++ ((l.resolve (placeOf a.labels) pre.length).encode pre.length ++
          post) ∧ Reaches (placeOf a.labels) pre.length l) ∨
      ∃ offset, Fails ((l.fixups pre.length).forM applyFixup) a (.branchOutOfRange offset) := by
  cases l with
  | instr i => exact .inl ⟨a.code, rfl, hcode, trivial⟩
  | jump op label => exact finishes_jump (hplaced label List.mem_cons_self) hcode
  | switch otherwise cases =>
    obtain ⟨code, hruns, hlist⟩ := finishes_switch hplaced hcode
    exact .inl ⟨code, hruns, hlist, trivial⟩

/-- The offsets of all jumps fit into their operands. -/
def ReachesAll (place : Label → Nat) : Nat → List Line → Prop
  | _, [] => True
  | pc, l :: rest => Reaches place pc l ∧ ReachesAll place (pc + l.blank.size pc) rest

/-- The lines of a code array are finished one after another. -/
theorem finishes_lines {lines : List Line} {a : Assembly} {pre : List UInt8}
    (hplaced : ∀ l ∈ lines, ∀ label ∈ l.labels, IsPlaced a.labels label)
    (hcode : a.code.toList = pre ++ encodeAll pre.length (lines.map Line.blank)) :
    (∃ code, Runs ((Lines.fixupsFrom pre.length lines).forM applyFixup) a () { a with code } ∧
        code.toList = pre ++ encodeAll pre.length
          (Lines.resolve (placeOf a.labels) pre.length lines) ∧
        ReachesAll (placeOf a.labels) pre.length lines) ∨
      ∃ offset, Fails ((Lines.fixupsFrom pre.length lines).forM applyFixup) a
        (.branchOutOfRange offset) := by
  induction lines generalizing a pre with
  | nil => exact .inl ⟨a.code, rfl, hcode, trivial⟩
  | cons l lines ih =>
    rw [Lines.fixupsFrom, List.forM_eq_forM, List.forM_append, Lines.resolve, encodeAll,
      Line.size_resolve]
    rw [List.map_cons, encodeAll] at hcode
    rcases finishes_line (hplaced l List.mem_cons_self) hcode with
      ⟨code, hruns, hlist, hreach⟩ | ⟨offset, hfails⟩
    · have hlength : (pre ++ (l.resolve (placeOf a.labels) pre.length).encode pre.length).length =
          pre.length + l.blank.size pre.length := by
        rw [List.length_append, Instruction.length_encode, Line.size_resolve]
      rw [← List.append_assoc, ← hlength] at hlist
      rcases ih (a := { a with code })
        (fun k hk => hplaced k (List.mem_cons_of_mem _ hk)) hlist with
        ⟨code', hruns', hlist', hreach'⟩ | ⟨offset, hfails⟩
      · rw [hlength] at hruns' hlist' hreach'
        refine .inl ⟨code', hruns.bind hruns', ?_, hreach, hreach'⟩
        rw [hlist', List.append_assoc]
      · rw [hlength] at hfails
        exact .inr ⟨offset, hruns.bind_fails hfails⟩
    · exact .inr ⟨offset, hfails.bind⟩

theorem ReachesAll.reaches {place : Label → Nat} {before : List Line} {l : Line}
    {after : List Line} (h : ReachesAll place 0 (before ++ l :: after)) :
    Reaches place (Lines.extent before) l := by
  suffices hsuffices : ∀ pc, ReachesAll place pc (before ++ l :: after) →
      Reaches place (pc + (encodeAll pc (before.map Line.blank)).length) l by
    simpa [Lines.extent, Lines.spell] using hsuffices 0 h
  clear h
  induction before with
  | nil => exact fun pc h => h.1
  | cons k before ih =>
    intro pc h
    rw [List.map_cons, encodeAll, List.length_append, Instruction.length_encode,
      ← Nat.add_assoc]
    exact ih _ h.2

/-- Within the size of a code array an offset of four bytes reaches every place. -/
theorem toInt_offset {place pc : Nat} (hplace : place ≤ maxSize) (hpc : pc ≤ maxSize) :
    (pc : Int) + (Int32.ofInt ((place : Int) - pc)).toInt = place := by
  rw [maxSize] at hplace hpc
  rw [Int32.toInt_ofInt_of_le (by omega) (by omega)]
  omega

/-- A line leads to the places of its labels. -/
theorem targets_resolve {place : Label → Nat} {pc : Nat} {l : Line}
    (hreach : Reaches place pc l) (hplace : ∀ label ∈ l.labels, place label ≤ maxSize)
    (hpc : pc ≤ maxSize) (hleads : ∀ i, l = .instr i → ∀ pc, i.targets pc = []) {target : Int}
    (htarget : target ∈ (l.resolve place pc).targets pc) :
    ∃ label ∈ l.labels, target = place label := by
  cases l with
  | instr i =>
    rw [Line.resolve, hleads i rfl] at htarget
    exact absurd htarget List.not_mem_nil
  | jump op label =>
    refine ⟨label, List.mem_cons_self, ?_⟩
    obtain ⟨hlow, hhigh⟩ := hreach
    rw [Line.resolve, Instruction.targets, List.mem_singleton,
      Int16.toInt_ofInt_of_le (by omega) (by omega)] at htarget
    omega
  | switch otherwise cases =>
    simp only [Line.resolve, Instruction.targets, List.mem_cons, List.map_map,
      List.mem_map] at htarget
    rcases htarget with htarget | ⟨e, he, htarget⟩
    · rw [toInt_offset (hplace otherwise List.mem_cons_self) hpc] at htarget
      exact ⟨otherwise, List.mem_cons_self, htarget⟩
    · have hlabel : e.2 ∈ Line.labels (.switch otherwise cases) :=
        List.mem_cons_of_mem _ (List.mem_map.2 ⟨e, he, rfl⟩)
      have htarget : (pc : Int) + (Int32.ofInt ((place e.2 : Int) - pc)).toInt = target := htarget
      rw [toInt_offset (hplace e.2 hlabel) hpc] at htarget
      exact ⟨e.2, hlabel, htarget.symm⟩

/-! ### Finishing -/

end Assembly

/-- Whether code cannot be assembled for its size alone. -/
def AssemblyFault.isLimit : AssemblyFault → Bool
  | codeTooLarge _ | branchOutOfRange _ => true
  | _ => false

namespace Assembly

/-- Code in which every label that is used has been placed is finished, unless it is too
    large. -/
theorem finishes {lines : List Line} {a : Assembly} (hcode : a.code.toList = Lines.spell lines)
    (hfixups : a.fixups.toList = Lines.fixupsFrom 0 lines) (hlines : lines ≠ [])
    (hplaced : ∀ l ∈ lines, ∀ label ∈ l.labels, IsPlaced a.labels label) :
    (∃ code, Runs finish a () { a with code, fixups := #[] } ∧
        code.toList = encodeAll 0 (Lines.resolve (placeOf a.labels) 0 lines) ∧
        ReachesAll (placeOf a.labels) 0 lines ∧ Lines.extent lines ≤ maxSize) ∨
      ∃ fault, Fails finish a fault ∧ fault.isLimit = true := by
  have hpc : a.pc = Lines.extent lines := by
    rw [pc, ← Array.length_toList, hcode, Lines.extent]
  -- Code without any line would not be finished either.
  have hpos : a.pc ≠ 0 := by
    obtain ⟨l, rest, rfl⟩ := List.exists_cons_of_ne_nil hlines
    have := (Lines.isStart_extent [] l rest).lt
    rw [hpc]
    exact Nat.ne_of_gt (Nat.lt_of_le_of_lt (Nat.zero_le _) this)
  by_cases hlarge : maxSize < a.pc
  · refine .inr ⟨.codeTooLarge a.pc, Runs.bind_fails (b := a) (r := a) rfl ?_, rfl⟩
    simp only [if_neg hpos, if_pos hlarge]
    rfl
  · have hblank : ({ a with fixups := #[] } : Assembly).code.toList =
        [] ++ encodeAll ([] : List UInt8).length (lines.map Line.blank) := hcode
    have hbegin : ∀ r b, Runs ((Lines.fixupsFrom 0 lines).forM applyFixup)
        { a with fixups := #[] } r b → Runs finish a r b := by
      intro r b hruns
      refine Runs.bind (b := a) (r := a) rfl ?_
      simp only [if_neg hpos, if_neg hlarge]
      rw [← hfixups] at hruns
      exact hruns
    rcases finishes_lines (a := { a with fixups := #[] }) hplaced hblank with
      ⟨code, hruns, hlist, hreach⟩ | ⟨offset, hfails⟩
    · exact .inl ⟨code, hbegin _ _ hruns, hlist, hreach, by omega⟩
    · refine .inr ⟨.branchOutOfRange offset, Runs.bind_fails (b := a) (r := a) rfl ?_, rfl⟩
      simp only [if_neg hpos, if_neg hlarge]
      rw [List.length_nil, ← hfixups] at hfails
      exact hfails

/-! ### Sizes -/

theorem size_patch (code : Array UInt8) (offset : Nat) (bytes : List UInt8) :
    (patch code offset bytes).size = code.size := by
  induction bytes generalizing code offset with
  | nil => rfl
  | cons b rest ih => rw [patch, ih, Array.size_setIfInBounds]

/-- Filling in an offset changes no size. -/
theorem size_applyFixup {f : Fixup} {a b : Assembly} {r : Unit} (h : Runs (applyFixup f) a r b) :
    b.code.size = a.code.size := by
  obtain ⟨a', c, ⟨⟩, h⟩ := exists_of_runs_bind h
  split at h
  · cases h
  obtain ⟨bytes, d, hbytes, h⟩ := exists_of_runs_bind h
  obtain rfl : a = d := congrArg Prod.snd hbytes
  obtain rfl := congrArg Prod.snd h
  exact size_patch _ _ _

theorem size_applyFixups {fs : List Fixup} {a b : Assembly} {r : Unit}
    (h : Runs (fs.forM applyFixup) a r b) : b.code.size = a.code.size := by
  induction fs generalizing a with
  | nil =>
    cases h
    rfl
  | cons f rest ih =>
    obtain ⟨_, c, hf, hrest⟩ := exists_of_runs_bind h
    exact (ih hrest).trans (size_applyFixup hf)

/-- Finished code is no larger than code may be. -/
theorem size_finish {a b : Assembly} {r : Unit} (h : Runs finish a r b) :
    b.code.size ≤ maxSize := by
  obtain ⟨a', c, ⟨⟩, h⟩ := exists_of_runs_bind h
  by_cases hempty : a.pc = 0
  · simp only [if_pos hempty] at h
    obtain ⟨_, _, ⟨⟩, _⟩ := exists_of_runs_bind h
  by_cases hlarge : maxSize < a.pc
  · simp only [if_neg hempty, if_pos hlarge] at h
    obtain ⟨_, _, ⟨⟩, _⟩ := exists_of_runs_bind h
  simp only [if_neg hempty, if_neg hlarge] at h
  obtain ⟨_, d, ⟨⟩, h⟩ := exists_of_runs_bind h
  rw [size_applyFixups h]
  exact Nat.not_lt.1 hlarge

end Assembly

end ComponentViews
