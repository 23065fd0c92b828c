import ComponentViews.Blueprint.Syntax
import ComponentViews.Hierarchy.Basic

/-!
# The structure of bodies

Before a blueprint is turned into code, its bodies are checked: variables and
arguments that are used exist, calls have as many arguments as parameters, no handler
stands behind one that catches all it could catch, values are returned where there is
a result, and a body with a result cannot run off its end.
-/

namespace ComponentViews

/-- What is wrong with the structure of a body. -/
inductive Flaw where
  | duplicateSwitchKey
  | valueFromVoid
  | missingValue
  | emptyRegion
  | catchAllNotLast
  | emptyCatchType
  | unreachableHandler (caught before : String)
  | undeclaredVariable (i : Nat)
  | thisInStatic
  | argumentOutOfRange (i : Nat)
  | constructorArity
  | arrayOf (element : Ty)
  | negativeIndex (i : Int32)
  | callArity (name : String) (given expected : Nat)
  | completesNormally
deriving DecidableEq, Repr

/-- The text that is reported for a flaw. -/
def Flaw.message : Flaw → String
  | duplicateSwitchKey => "duplicate switch key"
  | valueFromVoid => "value returned from void method"
  | missingValue => "missing return value"
  | emptyRegion => "try region without handlers or exit region"
  | catchAllNotLast => "catch-all handler must be last"
  | emptyCatchType => "handler with empty catch type"
  | unreachableHandler caught before =>
    s!"handler for {caught} unreachable after handler for {before}"
  | undeclaredVariable i => s!"local #{i} is not declared"
  | thisInStatic => "'this' used in static method"
  | argumentOutOfRange i => s!"argument #{i} out of range"
  | constructorArity => "constructor arity mismatch"
  | arrayOf element => s!"array of {element} cannot be built element-wise"
  | negativeIndex i => s!"negative array index {i}"
  | callArity name given expected =>
    s!"call to {name} with {given} argument(s), expected {expected}"
  | completesNormally => "non-void body can complete normally"

/-! ### Where control ends -/

mutual

/-- Control cannot go on after the statement. -/
def Stmt.ends : Stmt → Bool
  | .ret _ | .throw _ => true
  | .cond _ yes no => blockEnds yes && blockEnds no
  | .switch _ cases otherwise => blockEnds otherwise && casesEnd cases
  | .region body handlers exit => exitEnds exit || (blockEnds body && handlersEnd handlers)
  | _ => false

/-- Control cannot run off the end of the block. -/
def blockEnds : Block → Bool
  | [] => false
  | [s] => s.ends
  | _ :: rest => blockEnds rest

/-- No case of a switch runs off its end. -/
def casesEnd : List (Int32 × Block) → Bool
  | [] => true
  | (_, block) :: rest => blockEnds block && casesEnd rest

/-- No handler runs off its end. -/
def handlersEnd : List Handler → Bool
  | [] => true
  | ⟨_, _, block⟩ :: rest => blockEnds block && handlersEnd rest

/-- There is an exit block, and it does not run off its end. -/
def exitEnds : Option ExitBlock → Bool
  | none => false
  | some ⟨_, block⟩ => blockEnds block

end

/-! ### Checking bodies -/

/-- What a body may refer to. -/
structure Scope where
  hierarchy : Hierarchy
  /-- The number of variables. -/
  vars : Nat
  /-- The number of arguments. -/
  args : Nat
  isStatic : Bool
  /-- The method has no result. -/
  isVoid : Bool

namespace Scope

/-- Checks that a variable is declared. -/
def checkVariable (scope : Scope) (i : Nat) : Except Flaw Unit :=
  if i < scope.vars then .ok () else .error (.undeclaredVariable i)

mutual

/-- Checks an expression: what can be wrong with itself, such as the arity of a call, and then what
    it consists of. -/
def checkExpr (scope : Scope) : Expr → Except Flaw Unit
  | .const _ | .classOf _ => .ok ()
  | .var i => scope.checkVariable i
  | .this => if scope.isStatic then .error .thisInStatic else .ok ()
  | .arg i => if i < scope.args then .ok () else .error (.argumentOutOfRange i)
  | .field _ target => scope.checkExpr target
  | .new _ params args =>
    if params.length != args.length then .error .constructorArity else scope.checkExprs args
  | .array element items =>
    if element.primitive?.isSome || element.isVoid then .error (.arrayOf element)
    else scope.checkExprs items
  | .item array i => if i < 0 then .error (.negativeIndex i) else scope.checkExpr array
  | .box e | .unbox _ e | .cast _ e => scope.checkExpr e
  | .call callee receiver args =>
    if callee.params.length != args.length then
      .error (.callArity callee.name args.length callee.params.length)
    else do
      scope.checkReceiver receiver
      scope.checkExprs args

/-- Checks the receiver of a call, if it has one. -/
def checkReceiver (scope : Scope) : Option Expr → Except Flaw Unit
  | none => .ok ()
  | some e => scope.checkExpr e

/-- Checks expressions one after another. -/
def checkExprs (scope : Scope) : List Expr → Except Flaw Unit
  | [] => .ok ()
  | e :: rest => do
    scope.checkExpr e
    scope.checkExprs rest

end

/-- Checks what a condition asks about. -/
def checkCond (scope : Scope) : Cond → Except Flaw Unit
  | .isTrue e | .isFalse e | .isNull e | .notNull e | .instanceOf e _ => scope.checkExpr e
  | .same a b => do
    scope.checkExpr a
    scope.checkExpr b

/-- Checks what a handler catches. `earlier` holds the classes caught before it, and
    `isLast` says that none follows it. -/
def checkCaught (scope : Scope) (earlier : List String) (isLast : Bool) :
    Option String → Except Flaw Unit
  | none => if isLast then .ok () else .error .catchAllNotLast
  | some "" => .error .emptyCatchType
  | some caught =>
    match earlier.find? (scope.hierarchy.isSubtype caught) with
    | some before => .error (.unreachableHandler caught before)
    | none => .ok ()

mutual

/-- Checks a statement and the blocks in it. -/
def checkStmt (scope : Scope) : Stmt → Except Flaw Unit
  | .assign i e => do
    scope.checkVariable i
    scope.checkExpr e
  | .setField _ target value => do
    scope.checkExpr target
    scope.checkExpr value
  | .eval e | .throw e => scope.checkExpr e
  | .cond c yes no => do
    scope.checkCond c
    scope.checkBlock yes
    scope.checkBlock no
  | .switch key cases otherwise => do
    scope.checkExpr key
    unless (cases.map (·.1)).Nodup do throw .duplicateSwitchKey
    scope.checkCases cases
    scope.checkBlock otherwise
  | .ret none => if scope.isVoid then .ok () else .error .missingValue
  | .ret (some e) => if scope.isVoid then .error .valueFromVoid else scope.checkExpr e
  | .region body handlers exit => do
    if handlers.isEmpty && exit.isNone then throw .emptyRegion
    scope.checkBlock body
    scope.checkHandlers [] handlers
    scope.checkExit exit

/-- Checks the statements of a block one after another. -/
def checkBlock (scope : Scope) : Block → Except Flaw Unit
  | [] => .ok ()
  | s :: rest => do
    scope.checkStmt s
    scope.checkBlock rest

/-- Checks the blocks of the cases of a switch. -/
def checkCases (scope : Scope) : List (Int32 × Block) → Except Flaw Unit
  | [] => .ok ()
  | (_, block) :: rest => do
    scope.checkBlock block
    scope.checkCases rest

/-- Checks the handlers after those that catch `earlier`. -/
def checkHandlers (scope : Scope) (earlier : List String) : List Handler → Except Flaw Unit
  | [] => .ok ()
  | ⟨caught, binding, block⟩ :: rest => do
    scope.checkVariable binding
    scope.checkCaught earlier rest.isEmpty caught
    scope.checkBlock block
    scope.checkHandlers (earlier ++ caught.toList) rest

/-- Checks an exit block, if there is one; it may leave the failure in flight alone. -/
def checkExit (scope : Scope) : Option ExitBlock → Except Flaw Unit
  | none => .ok ()
  | some ⟨inFlight, block⟩ => do
    if let some i := inFlight then scope.checkVariable i
    scope.checkBlock block

end

end Scope

namespace Method

/-- What the body of a method may refer to. -/
def scope (h : Hierarchy) (m : Method) (body : Body) : Scope where
  hierarchy := h
  vars := body.vars.length
  args := m.params.length
  isStatic := m.isStatic
  isVoid := m.result.isVoid

/-- Checks the body of a method. -/
def check (h : Hierarchy) (m : Method) : Except Flaw Unit :=
  match m.body with
  | none => .ok ()
  | some body => do
    (m.scope h body).checkBlock body.block
    unless m.result.isVoid || blockEnds body.block do throw .completesNormally

end Method

/-- A flaw and the method that has it. -/
structure MethodFlaw where
  method : String
  flaw : Flaw
deriving DecidableEq, Repr

/-- Checks the bodies of all methods. -/
def Blueprint.check (h : Hierarchy) (b : Blueprint) : Except MethodFlaw Unit :=
  b.methods.forM fun m => (m.check h).mapError fun flaw => ⟨m.name, flaw⟩

end ComponentViews
