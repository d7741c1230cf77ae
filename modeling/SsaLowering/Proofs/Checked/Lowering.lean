/-
# SsaLowering.Proofs.Checked.Lowering -- lowering from checked steps

The lowering of a program, line by line, with each access to a table checked where it is
made.  What asks the scopes for nothing and writes into no block is the step of lowering
itself.
-/
import SsaLowering.Proofs.Checked.Steps

namespace SsaLowering.Checked

set_option autoImplicit false

open Ir (Ty BlockId ValueId FuncId Operand Function)

/-! ## Expressions -/

def read : ExprValue → Checked BodyState Operand
  | .direct operand => return operand
  | .slot home => return .value (← emitValue (.load home.ty (.value home.ptr)))

def lowerIdentifier (env : Environment) (scope : ScopeId) (name : Symbol) (span : FileSpan) :
    Checked BodyState ExprValue := do
  match ← resolve scope name with
  | some bound => plain (bound.toExprValue (env.name name) span)
  | none => refuse (.unresolvedName (env.name name) span)

def lowerMember (env : Environment) (scope : ScopeId) (object : Expr) (property : Symbol)
    (span : FileSpan) : Checked BodyState ExprValue := do
  let .identifier objectName objectSpan := object
    | refuse (.unsupportedExpression .propertyAccessExpression
        s!"member access on {object.kind.name}" span)
  match ← resolve scope objectName with
  | some (.namespace_ inner) =>
    let qualified := env.name objectName ++ "." ++ env.name property
    match ← plain (LowerBody.lookupIn inner property) with
    | some bound => plain (bound.toExprValue qualified span)
    | none => refuse (.unresolvedName qualified span)
  | some _ =>
    let shown := env.name objectName
    refuse (.unsupportedExpression .propertyAccessExpression s!"`{shown}` is not a namespace" span)
  | none => refuse (.unresolvedName (env.name objectName) objectSpan)

def lowerCall (env : Environment) (callee : Expr) (value : ExprValue) (found : Nat)
    (args : List Ty → Checked BodyState (List Operand)) (span : FileSpan) :
    Checked BodyState (Option Operand) := do
  let (id, signature) ← plain (callTarget env callee value)
  if found ≠ signature.params.length then
    refuse (.arityMismatch (callee.describe env) signature.params.length found span)
  let operands ← args signature.params
  return (← emit (.call id operands) (some signature)).map .value

def assign (slot : StackSlot) (stored : Operand) (span : FileSpan) :
    Checked BodyState ExprValue := do
  let found ← plain (LowerBody.operandTy stored)
  if found ≠ slot.ty then refuse (.typeMismatch "assignment" slot.ty found span)
  store stored (.value slot.ptr)
  return .direct stored

def add (left right : Operand) (span : FileSpan) : Checked BodyState ExprValue := do
  let leftTy ← plain (LowerBody.operandTy left)
  let rightTy ← plain (LowerBody.operandTy right)
  if leftTy ≠ .double ∨ rightTy ≠ .double then
    refuse (.unsupportedExpression .binaryExpression
      s!"`{leftTy.text} + {rightTy.text}`, only `double + double` is lowered" span)
  return .direct (.value (← emitValue (.fadd left right)))

mutual

def lowerExpr (env : Environment) (scope : ScopeId) : Expr → Checked BodyState ExprValue
  | .identifier name span => lowerIdentifier env scope name span
  | .member object property span => lowerMember env scope object property span
  | .call callee args span => do
    let target ← lowerExpr env scope callee
    match ← lowerCall env callee target args.length (lowerArgs env scope args) span with
    | some result => return .direct result
    | none => refuse (.voidValue (callee.describe env) span)
  | .binary .assign lhs rhs _ => do
    let target ← lowerExpr env scope lhs
    let slot ← plain (assignmentTarget env lhs target)
    let stored ← read (← lowerExpr env scope rhs)
    assign slot stored rhs.span
  | .binary .add lhs rhs span => do
    let left ← read (← lowerExpr env scope lhs)
    let right ← read (← lowerExpr env scope rhs)
    add left right span
  | expr => plain (SsaLowering.lowerExpr env scope expr)

def lowerArgs (env : Environment) (scope : ScopeId) :
    List Expr → List Ty → Checked BodyState (List Operand)
  | arg :: args, param :: params => do
    let operand ← read (← lowerExpr env scope arg)
    plain (checkArgument operand param arg.span)
    return operand :: (← lowerArgs env scope args params)
  | _, _ => return []

end

/-! ## Statements -/

def lowerInitializer (env : Environment) (scope : ScopeId) (declared : Option Ty) (expr : Expr) :
    Checked BodyState (Operand × Ty) := do
  let operand ← read (← lowerExpr env scope expr)
  let found ← plain (LowerBody.operandTy operand)
  match declared with
  | some expected =>
    if expected ≠ found then refuse (.typeMismatch "initializer" expected found expr.span)
  | none => pure ()
  return (operand, found)

def bindConstant (env : Environment) (scope : ScopeId) (decl : Declarator)
    (init : Option (Operand × Ty)) : Checked BodyState Unit := do
  let name := env.name decl.name
  match init with
  | none => refuse (.missingInitializer name decl.span)
  | some (operand, _) =>
    if let some value := operand.value? then
      discard <| nameValue value name
    discard <| plain (LowerBody.outside (Lower.bind scope decl.name (.direct operand)))

def bindVariable (env : Environment) (scope : ScopeId) (decl : Declarator) (declared : Option Ty)
    (init : Option (Operand × Ty)) : Checked BodyState Unit := do
  let name := env.name decl.name
  let some ty := declared <|> init.map (·.2) | refuse (.untypedBinding name decl.span)
  let ptr ← alloca ty name
  if let some (operand, _) := init then
    store operand (.value ptr)
  discard <| plain (LowerBody.outside (Lower.bind scope decl.name (.slot ⟨ptr, ty⟩)))

def lowerDeclarator (env : Environment) (scope : ScopeId) (kind : BindingKind)
    (decl : Declarator) : Checked BodyState Unit := do
  let declared ← plain (declaredTy env decl)
  let init ← match decl.init with
    | none => pure none
    | some expr => some <$> lowerInitializer env scope declared expr
  if kind.isMutable then bindVariable env scope decl declared init
  else bindConstant env scope decl init

def lowerReturn (env : Environment) (scope : ScopeId) (value : Option Expr) (span : FileSpan) :
    Checked BodyState Unit := do
  let expected := (← plain LowerBody.builder).returnTy
  match value with
  | none =>
    if !expected.isVoid then refuse (.typeMismatch "return" expected .void span)
    terminate (.ret none)
  | some expr =>
    let returned ← read (← lowerExpr env scope expr)
    let found ← plain (LowerBody.operandTy returned)
    if found ≠ expected then refuse (.typeMismatch "return" expected found expr.span)
    terminate (.ret (some returned))

def lowerCondition (env : Environment) (scope : ScopeId) (condition : Expr) :
    Checked BodyState Operand := do
  let operand ← read (← lowerExpr env scope condition)
  let found ← plain (LowerBody.operandTy operand)
  if found ≠ .bool then
    refuse (.unsupportedExpression condition.kind
      s!"condition must be a boolean, found `{found.text}`" condition.span)
  return operand

def positionAtEnd (block : BlockId) : Checked BodyState Unit :=
  plain (LowerBody.emit_ (·.positionAtEnd block))

def lowerBranch (start next : BlockId) (branch : Checked BodyState Unit) :
    Checked BodyState Unit := do
  positionAtEnd start
  branch
  if !(← plain LowerBody.builder).isTerminated then terminate (.br next)

mutual

def lowerStmt (env : Environment) (scope : ScopeId) : Stmt → Checked BodyState Unit
  | .block stmts _ => inScope scope fun inner => lowerStmts env inner stmts
  | .expression (.call callee args span) _ => do
    let target ← lowerExpr env scope callee
    discard <| lowerCall env callee target args.length (lowerArgs env scope args) span
  | .expression expr _ => discard <| lowerExpr env scope expr
  | .ifElse condition thenBranch elseBranch _ => do
    let cond ← lowerCondition env scope condition
    let thenBlock ← appendBlock "then"
    let elseBlock ← appendBlock "else"
    let endBlock ← appendBlock "endif"
    terminate (.condBr cond thenBlock elseBlock)
    lowerBranch thenBlock endBlock (lowerStmt env scope thenBranch)
    lowerBranch elseBlock endBlock (lowerOptional env scope elseBranch)
    positionAtEnd endBlock
  | .ret value span => lowerReturn env scope value span
  | .vars kind declarators _ => declarators.forM (lowerDeclarator env scope kind)
  | .whileLoop _ _ span => plain (skip .whileStatement span)
  | .breakLoop span => plain (skip .breakStatement span)
  | .continueLoop span => plain (skip .continueStatement span)
  | .empty span => plain (skip .emptyStatement span)

def lowerOptional (env : Environment) (scope : ScopeId) : Option Stmt → Checked BodyState Unit
  | none => return ()
  | some stmt => lowerStmt env scope stmt

def lowerStmts (env : Environment) (scope : ScopeId) : List Stmt → Checked BodyState Unit
  | [] => return ()
  | stmt :: rest => do
    if (← plain LowerBody.builder).isTerminated then
      plain (LowerBody.outside (Lower.log (.statementsSkipped stmt.span (rest.length + 1))))
    else
      lowerStmt env scope stmt
      lowerStmts env scope rest

end

/-! ## Functions -/

def bindParams (env : Environment) (scope : ScopeId) :
    List Param → List ValueId → Checked BodyState Unit
  | param :: params, value :: values => do
    discard <| nameValue value (env.name param.name)
    discard <| plain (LowerBody.outside (Lower.bind scope param.name (.direct (.value value))))
    bindParams env scope params values
  | _, _ => return ()

def sealBody (span : FileSpan) : Checked BodyState Unit := do
  let b ← plain LowerBody.builder
  match b.current with
  | none => return ()
  | some block =>
    if b.hasTerminator block then return ()
    else if b.returnTy.isVoid then terminate (.ret none)
    else
      if b.function.reachable.contains block then
        plain (LowerBody.outside (modify (·.warn ⟨.missingReturn b.function.name, span⟩)))
      terminate .unreachable

def buildBody (env : Environment) (scope : ScopeId) (decl : FunctionDecl) (stmts : List Stmt) :
    Checked BodyState Unit := do
  inScope scope fun inner => do
    bindParams env inner decl.params (← plain LowerBody.builder).function.params
    let entry ← appendBlock "entry"
    positionAtEnd entry
    lowerStmts env inner stmts
  sealBody decl.span

/-- Build a function, starting from its declaration. -/
def building (declared : Function) (work : Checked BodyState Unit) : Checked Context Function :=
  fun cx =>
    match work ⟨cx, .ofFunction declared⟩ with
    | .ok () s => .ok s.builder.function s.context
    | .error stop s => .error stop s.context

def lowerBody (env : Environment) (scope : ScopeId) (id : FuncId) (decl : FunctionDecl)
    (stmts : List Stmt) : Checked Context Unit := do
  let some declared := (← get).module.function? id
    | refuse (.build (.unknownFunction id))
  let function ← building (.declare declared.name declared.ty) (buildBody env scope decl stmts)
  match function.verify (← get).module with
  | .error defect => refuse (.verification defect)
  | .ok () => plain (Lower.onModule fun m => return ((), ← m.define id function))

def retractDeclaration (scope : ScopeId) (name : Symbol) (id : FuncId) (globals : Nat)
    (previous : Option BoundValue) : Checked Context Unit := do
  discard <| plain (Lower.onModule (·.retract id))
  modify fun cx => { cx with module := cx.module.truncateGlobals globals }
  restore scope name previous

/-- Do `work`; when it is refused, do `undo` and be refused for the same cause. -/
def orUndo (work : Checked Context Unit) (undo : LowerError → Checked Context Unit) :
    Checked Context Unit := fun cx =>
  match work cx with
  | .error (.refused cause) cx =>
    match undo cause cx with
    | .ok () cx => .error (.refused cause) cx
    | .error stop cx => .error stop cx
  | other => other

/-- The linkage name of a declaration in a scope. -/
def mangle (env : Environment) (scope : ScopeId) (name : String) : Checked Context String := do
  answer (env.mangler.mangleUp env.symbols (← get).scopes scope name)

def lowerFunction (env : Environment) (scope : ScopeId) (decl : FunctionDecl) :
    Checked Context Unit := do
  let signature ← plain (Lower.lift .type (decl.signature? env.types env.symbols))
  let linkage ← mangle env scope (env.name decl.name)
  plain (Lower.log (.functionDeclared linkage signature))
  let id ← plain (Lower.onModule (·.declare linkage signature))
  let previous ← plain (Lower.bind scope decl.name (.direct (.function id)))
  match decl.body with
  | none => return ()
  | some body =>
    let globals := (← get).module.globals.length
    orUndo (lowerBody env scope id decl body.stmts) fun cause => do
      plain (Lower.log (.functionDropped linkage cause))
      retractDeclaration scope decl.name id globals previous
    plain (Lower.log (.functionLowered linkage))

/-! ## Programs -/

mutual

def lowerItem (env : Environment) (scope : ScopeId) : Item → Checked Context Unit
  | .function decl => lowerFunction env scope decl
  | .namespace_ name items _ => do
    plain (Lower.log (.namespaceEntered (env.name name)))
    let inner ← plain (Lower.enter scope (some name))
    lowerItems env inner items
    discard <| plain (Lower.bind scope name (.namespace_ inner))
  | .class_ _ span => plain (modify (·.warn ⟨.unhandledSyntax .classDeclaration, span⟩))
  | .interface _ span => plain (modify (·.warn ⟨.unhandledSyntax .interfaceDeclaration, span⟩))
  | .typeAlias _ _ span => plain (modify (·.warn ⟨.unhandledSyntax .typeAliasDeclaration, span⟩))

def lowerItems (env : Environment) (scope : ScopeId) : List Item → Checked Context Unit
  | [] => return ()
  | item :: rest => do
    lowerItem env scope item
    lowerItems env scope rest

end

def lowerUnit (env : Environment) (unit : SourceUnit) : Checked Context Unit := do
  plain (Lower.log (.unitStarted unit.name unit.items.length))
  lowerItems env ScopeTable.global unit.items

def lowerUnits (env : Environment) : List SourceUnit → Checked Context Unit
  | [] => return ()
  | unit :: rest => do
    lowerUnit env unit
    lowerUnits env rest

def lowerAll (env : Environment) (units : List SourceUnit) : Checked Context LoweredProgram := do
  lowerUnits env units
  let cx ← get
  match cx.module.verify with
  | .error defect => refuse (.verification defect)
  | .ok () =>
    plain (Lower.log (.programLowered units.length cx.module.name cx.module.functions.length
      cx.diagnostics.length))
    return ⟨cx.module, cx.diagnostics⟩

/-- The outcome of lowering a program with each access checked, with the journal of the run. -/
def lowerProgram (env : Environment) (moduleName : String) (units : List SourceUnit) :
    Except Stop LoweredProgram × Journal :=
  match lowerAll env units (.initial moduleName) with
  | .ok program cx => (.ok program, cx.journal)
  | .error stop cx => (.error stop, cx.journal)

end SsaLowering.Checked
