import ComponentViews.Code.Draft

/-!
# Code of bodies

The structured body of a method becomes code for a machine that knows only jumps and a
table of handlers. The exit block of a region is copied to every way out: behind the
guarded block and behind each handler, before every return that leaves the region, and
into a handler for every failure, which throws the failure again.

A copy belongs to no region that it leaves. The ranges that the handlers of those
regions cover have a gap there, so that a failure of an exit block is never caught by
the region that the block belongs to.
-/

namespace ComponentViews

/-- What the code of a body depends on. -/
structure CodeContext where
  /-- The name of the class. -/
  unit : String
  method : Method
  body : Body
  /-- Class constants can be pushed. -/
  hasClassConstants : Bool

/-- The exit block of a region, as the step that appends a copy of it. -/
abbrev ExitCode := ExitOf (Lower Unit)

/-- A handler, as the step that appends it. -/
abbrev HandlerCode := HandlerOf (Lower Unit)

/-- The slots of variables of the given types, from `first` on. -/
def slotsFrom (first : Nat) (width : Ty → Nat) : List Ty → List Nat
  | [] => []
  | ty :: rest => first :: slotsFrom (slotBehind first (width ty)) width rest

/-- The slot behind variables of the given types, the first of which is in slot `first`. -/
def slotBehindAll (first : Nat) (width : Ty → Nat) (types : List Ty) : Nat :=
  types.foldl (fun slot ty => slotBehind slot (width ty)) first

namespace CodeContext

variable (c : CodeContext)

open Draft

/-! ### Variables -/

/-- The first slot of the arguments. -/
def firstArg : Nat := if c.method.isStatic then 0 else 1

/-- The first slot of the variables of the body. -/
def firstVariable : Nat := slotBehindAll c.firstArg Ty.slots c.method.params

/-- The slots that a variable takes. -/
def width (ty : Ty) : Nat := max ty.slots 1

/-- The first slot after the variables of the body. -/
def firstFree : Nat := slotBehindAll c.firstVariable width c.method.variableTypes

/-- The type and slot of a variable of the body. -/
def variableSlot (i : Nat) : Lower (Ty × Nat) :=
  match c.method.variableTypes[i]?,
    (slotsFrom c.firstVariable width c.method.variableTypes)[i]? with
  | some ty, some slot => return (ty, slot)
  | _, _ => throw (.undeclaredVariable i)

/-- The type and slot of an argument. -/
def argSlot (i : Nat) : Lower (Ty × Nat) :=
  match c.method.params[i]?, (slotsFrom c.firstArg Ty.slots c.method.params)[i]? with
  | some ty, some slot => return (ty, slot)
  | _, _ => throw (.argumentOutOfRange i)

/-- The type that an expression has by what is declared. -/
def typeOf (e : Expr) : Ty := c.method.typeOf c.unit e

/-! ### Expressions -/

/-- Pushes the class of a type. -/
def classOf (ty : Ty) : Lower Unit := do
  let classType := Ty.named Known.classClass
  let ofBox (boxClass : String) : Lower Unit := do
    let i ← addConstant (Pool.addField boxClass "TYPE" classType.descriptor)
    emit (.word Opcode.getstatic i) 1
  match ty.primitive? with
  | some p => ofBox p.boxClass
  | none =>
    if ty.isVoid then ofBox Known.voidClass
    else if c.hasClassConstants then
      pushConstant (← addConstant (Pool.addClass ty.classEntry))
    else
      pushConstant (← addConstant (Pool.addString ty.reflectiveName))
      let forName := methodDescriptor [.string] classType
      let i ← addConstant (Pool.addMethod Known.classClass "forName" forName)
      emit (.word Opcode.invokestatic i) 0

/-- Turns the value on the stack into an object, if it is primitive. -/
def box (ty : Ty) : Lower Unit := do
  match ty.primitive? with
  | none => return ()
  | some p =>
    let descriptor := methodDescriptor [.ofPrimitive p] (.named p.boxClass)
    let i ← addConstant (Pool.addMethod p.boxClass "valueOf" descriptor)
    emit (.word Opcode.invokestatic i) (1 - p.slots)

/-- Takes the primitive value out of an object of static type `source`. -/
def unbox (p : Primitive) (source : Ty) : Lower Unit := do
  if !source.isNamed p.boxClass then
    emit (.word Opcode.checkcast (← addConstant (Pool.addClass p.boxClass))) 0
  let descriptor := methodDescriptor [] (.ofPrimitive p)
  let i ← addConstant (Pool.addMethod p.boxClass p.unboxMethod descriptor)
  emit (.word Opcode.invokevirtual i) (p.slots - 1)

/-- Casts the value on the stack. -/
def cast (source target : Ty) : Lower Unit := do
  if source = target then return ()
  if !target.isReference || !source.isReference then throw (.badCast source target)
  if target.isNamed Known.object then return ()
  emit (.word Opcode.checkcast (← addConstant (Pool.addClass target.classEntry))) 0

/-- Calls a method, with the receiver and the arguments on the stack. -/
def invoke (callee : Callee) : Lower Unit := do
  let descriptor := methodDescriptor callee.params callee.result
  let args := slotsOf callee.params
  let delta : Int := callee.result.slots - args
  let make (op : UInt8) (delta : Int) : Lower Unit := do
    let i ← addConstant (Pool.addMethod callee.owner callee.name descriptor)
    emit (.word op i) delta
  match callee.kind with
  | .virtual => make Opcode.invokevirtual (delta - 1)
  | .special => make Opcode.invokespecial (delta - 1)
  | .static => make Opcode.invokestatic delta
  | .interface =>
    let i ← addConstant (Pool.addInterfaceMethod callee.owner callee.name descriptor)
    emit (.interfaceCall i (UInt8.ofNat (args + 1))) (delta - 1)

mutual

/-- Pushes the value of an expression. -/
def expr : Expr → Lower Unit
  | .const l => pushLiteral l
  | .var i => do
    let (ty, slot) ← c.variableSlot i
    load ty slot
  | .this => if c.method.isStatic then throw .thisInStatic else emit (.plain Opcode.aload0) 1
  | .arg i => do
    let (ty, slot) ← c.argSlot i
    load ty slot
  | .field f target => do
    expr target
    let i ← addConstant (Pool.addField f.owner f.name f.type.descriptor)
    emit (.word Opcode.getfield i) (f.type.slots - 1)
  | .new className params args => do
    emit (.word Opcode.new (← addConstant (Pool.addClass className))) 1
    -- The constructor takes one of the two references away.
    emit (.plain Opcode.dup) 1
    exprs args
    let descriptor := methodDescriptor params .void
    let i ← addConstant (Pool.addMethod className Known.constructor descriptor)
    emit (.word Opcode.invokespecial i) (-(slotsOf params + 1))
  | .array element items => do
    pushInt (Int32.ofNat items.length)
    emit (.word Opcode.anewarray (← addConstant (Pool.addClass element.classEntry))) 0
    arrayItems 0 items
  | .item array i => do
    expr array
    pushInt i
    emit (.plain Opcode.aaload) (-1)
  | .classOf ty => c.classOf ty
  | .box e => do
    expr e
    box (c.typeOf e)
  | .unbox p e => do
    expr e
    unbox p (c.typeOf e)
  | .cast ty e => do
    expr e
    cast (c.typeOf e) ty
  | .call callee receiver args => do
    callReceiver callee receiver
    exprs args
    invoke callee

/-- The receiver of a call, which only calls of static methods have none. -/
def callReceiver (callee : Callee) : Option Expr → Lower Unit
  | none => if callee.kind = .static then pure () else throw (.missingReceiver callee.name)
  | some e => if callee.kind = .static then throw (.receiverOfStatic callee.name) else expr e

/-- Pushes values one after the other. -/
def exprs : List Expr → Lower Unit
  | [] => pure ()
  | e :: rest => do
    expr e
    exprs rest

/-- Puts items into the array on the stack, from an index on. -/
def arrayItems (i : Nat) : List Expr → Lower Unit
  | [] => pure ()
  | e :: rest => do
    if (c.typeOf e).primitive?.isSome then throw (.primitiveItem i)
    emit (.plain Opcode.dup) 1
    pushInt (Int32.ofNat i)
    expr e
    emit (.plain Opcode.aastore) (-3)
    arrayItems (i + 1) rest

end

/-- Jumps to a label unless a condition holds. -/
def branchUnless (cond : Cond) (label : Label) : Lower Unit := do
  match cond with
  | .isTrue e =>
    c.expr e
    branch Opcode.ifeq label (-1)
  | .isFalse e =>
    c.expr e
    branch Opcode.ifne label (-1)
  | .isNull e =>
    c.expr e
    branch Opcode.ifnonnull label (-1)
  | .notNull e =>
    c.expr e
    branch Opcode.ifnull label (-1)
  | .instanceOf e className =>
    c.expr e
    emit (.word Opcode.instanceof (← addConstant (Pool.addClass className))) 0
    branch Opcode.ifeq label (-1)
  | .same a b =>
    c.expr a
    c.expr b
    branch Opcode.ifAcmpne label (-2)

/-! ### Exits -/

/-- Appends a copy of an exit block where no failure is in flight. -/
def copyExit (exit : ExitCode) : Lower Unit := do
  if let some i := exit.inFlight then
    let (_, slot) ← c.variableSlot i
    emit (.plain Opcode.aconstNull) 1
    storeReference slot
  exit.body

/-- Appends copies of the exit blocks of regions that control leaves: `exits` are the
    regions around the innermost `left`, which it has left already. -/
def copyExits : (left : Nat) → (exits : List (Option ExitCode)) → Lower Unit
  | _, [] => pure ()
  | left, none :: outer => copyExits (left + 1) outer
  | left, some exit :: outer => do
    let start ← pc
    -- The copy lies in the ranges of all the regions that it leaves, so each gets a gap.
    let inner ← leaveRegions (left + 1)
    c.copyExit exit
    reenterRegions inner ⟨start, ← pc⟩
    if ← isAlive then copyExits (left + 1) outer

/-- Returns, through the exit blocks of the regions around. -/
def returnValue (exits : List (Option ExitCode)) (value : Option Expr) : Lower Unit := do
  let ty := c.method.result
  let hasExits := exits.any (·.isSome)
  match value with
  | none =>
    if hasExits then c.copyExits 0 exits
    if !hasExits || (← isAlive) then emit (.plain Opcode.vreturn) 0
  | some e =>
    c.expr e
    if hasExits then
      -- The exit blocks run with an empty stack, so the value waits in a slot of its own.
      let slot ← newSlot ty
      store ty slot
      c.copyExits 0 exits
      if ← isAlive then
        load ty slot
        emit (.plain (returnOp ty)) (-(ty.slots : Int))
    else emit (.plain (returnOp ty)) (-(ty.slots : Int))

/-- Leaves the innermost region where its guarded block or a handler of it completes. -/
def completeNormally (exit : Option ExitCode) (after : Label) : Lower Unit := do
  if ← isAlive then
    -- This copy lies behind the range it leaves, and makes gaps in those around only.
    let gaps ← leaveRegion
    if let some exit := exit then c.copyExit exit
    enterRegion gaps
    leaveTo after

/-! ### Statements -/

/-- A choice between two blocks. -/
def choice (cond : Cond) (yes : Lower Unit) (no : Option (Lower Unit)) : Lower Unit := do
  let otherwise ← newLabel
  c.branchUnless cond otherwise
  yes
  match no with
  | none => place otherwise
  | some no =>
    let after ← newLabel
    -- Where neither block completes, no jump leads to `after` and control ends there.
    leaveTo after
    place otherwise
    no
    place after

/-- Labels for the cases of a switch. -/
def caseLabels : List (Int32 × Lower Unit) → Lower (List (Int32 × Label))
  | [] => return []
  | (key, _) :: rest => do
    let label ← newLabel
    return (key, label) :: (← caseLabels rest)

/-- The cases of a switch, behind their labels. -/
def caseBlocks (after : Label) : List (Int32 × Label) → List (Int32 × Lower Unit) → Lower Unit
  | (_, label) :: labels, (_, block) :: cases => do
    place label
    block
    leaveTo after
    caseBlocks after labels cases
  | _, _ => pure ()

/-- A switch on a number. -/
def switch (key : Expr) (cases : List (Int32 × Lower Unit)) (otherwise : Lower Unit) :
    Lower Unit := do
  c.expr key
  let after ← newLabel
  let default ← newLabel
  let labels ← caseLabels cases
  assemble (Assembly.switch default labels)
  caseBlocks after labels cases
  place default
  otherwise
  place after

/-- Appends the handlers of a region, and answers the ranges of their code. -/
def handlerBlocks (exit : Option ExitCode) (after : Label) :
    List HandlerCode → Lower (List CodeRange)
  | [] => return []
  | handler :: rest => do
    let start ← pc
    assemble (Assembly.enterHandler 1)
    let (_, slot) ← c.variableSlot handler.binding
    storeReference slot
    handler.body
    -- The exit covers the handler, but not the copy of itself that follows.
    let stop ← pc
    c.completeNormally exit after
    return ⟨start, stop⟩ :: (← handlerBlocks exit after rest)

/-- Adds the handlers of a region to the table. -/
def catchIn (covered : List CodeRange) : List (HandlerCode × CodeRange) → Lower Unit
  | [] => pure ()
  | (handler, range) :: rest => do
    match handler.caught with
    | none => addCatches covered range.start 0
    | some className =>
      addCatches covered range.start (← addConstant (Pool.addClass className))
    catchIn covered rest

/-- The slot for the failure in flight. -/
def inFlightSlot (exit : ExitCode) : Lower Nat :=
  match exit.inFlight with
  | some i => do return (← c.variableSlot i).2
  | none => newSlot (.named Known.throwable)

/-- Appends the handler that runs an exit block and throws the failure again. -/
def exitHandler (exit : ExitCode) (covered : List CodeRange) : Lower Unit := do
  let start ← pc
  assemble (Assembly.enterHandler 1)
  let slot ← c.inFlightSlot exit
  storeReference slot
  exit.body
  if ← isAlive then
    loadReference slot
    emit (.plain Opcode.athrow) (-1)
  addCatches covered start 0

/-- A region. -/
def region (block : Lower Unit) (handlers : List HandlerCode) (exit : Option ExitCode) :
    Lower Unit := do
  let after ← newLabel
  enterRegion []
  let start ← pc
  block
  let guarded : CodeRange := ⟨start, ← pc⟩
  c.completeNormally exit after
  let handled ← c.handlerBlocks exit after handlers
  let gaps ← leaveRegion
  let covered := guarded.subtract gaps
  -- The first entry of the table that fits counts, so the exit's handler comes last.
  catchIn covered (handlers.zip handled)
  if let some exit := exit then
    c.exitHandler exit (covered ++ handled.flatMap (·.subtract gaps))
  place after

mutual

/-- Appends a statement within regions with the given exit blocks, the innermost first. -/
def stmt (exits : List (Option ExitCode)) : Stmt → Lower Unit
  | .assign i e => do
    let (ty, slot) ← c.variableSlot i
    c.expr e
    store ty slot
  | .setField f target value => do
    c.expr target
    c.expr value
    let i ← addConstant (Pool.addField f.owner f.name f.type.descriptor)
    emit (.word Opcode.putfield i) (-(f.type.slots + 1))
  | .eval e => do
    c.expr e
    match (c.typeOf e).slots with
    | 0 => pure ()
    | 1 => emit (.plain Opcode.pop) (-1)
    | _ => emit (.plain Opcode.pop2) (-2)
  | .cond cond yes no =>
    c.choice cond (block exits yes) (if no.isEmpty then none else some (block exits no))
  | .switch key cases otherwise => c.switch key (switchCases exits cases) (block exits otherwise)
  | .throw e => do
    c.expr e
    emit (.plain Opcode.athrow) (-1)
  | .ret value => c.returnValue exits value
  | .region body handlers exit =>
    let exit := exitCode exits exit
    c.region (block (exit :: exits) body) (handlerCodes (exit :: exits) handlers) exit

/-- Appends the statements of a block as far as control comes. -/
def block (exits : List (Option ExitCode)) : Block → Lower Unit
  | [] => pure ()
  | s :: rest => do
    if ← isAlive then
      stmt exits s
      block exits rest

/-- The blocks of cases as steps, and so with handlers and exit blocks below. -/
def switchCases (exits : List (Option ExitCode)) :
    List (Int32 × Block) → List (Int32 × Lower Unit)
  | [] => []
  | (key, body) :: rest => (key, block exits body) :: switchCases exits rest

/-- What it takes to write handlers: the code of their blocks under the exit blocks `exits`. -/
def handlerCodes (exits : List (Option ExitCode)) : List Handler → List HandlerCode
  | [] => []
  | ⟨caught, binding, body⟩ :: rest =>
    ⟨caught, binding, block exits body⟩ :: handlerCodes exits rest

/-- What it takes to write an exit block each time that control leaves its region. -/
def exitCode (exits : List (Option ExitCode)) : Option ExitBlock → Option ExitCode
  | none => none
  | some ⟨inFlight, body⟩ => some ⟨inFlight, block exits body⟩

end

/-- Appends the whole body. -/
def wholeBody : Lower Unit := do
  c.block [] c.body.block
  if ← isAlive then
    if !c.method.result.isVoid then throw .completesNormally
    emit (.plain Opcode.vreturn) 0
  assemble Assembly.finish

/-- The code of the body, and the pool with the constants that it needs. -/
def lower (pool : Pool) : Except LoweringFault (CodeAttribute × Pool) := do
  let (_, d) ← c.wholeBody.run ⟨{}, pool, c.firstFree, []⟩
  let code : CodeAttribute :=
    { maxStack := UInt16.ofNat d.asm.maxDepth
      maxLocals := UInt16.ofNat d.nextSlot
      code := d.asm.code.toList
      table := d.asm.table.toList }
  return (code, d.pool)

end CodeContext

end ComponentViews
