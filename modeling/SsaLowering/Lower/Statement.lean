/-
# SsaLowering.Lower.Statement -- lowering of statements

A list of statements is lowered up to the first that follows a closed block; the
rest is skipped, and the journal tells how many.  A block has a scope of its own.
A conditional opens three blocks, lowers its branches into the first two and goes
on in the third.  Kinds outside the covered language are skipped with a warning.
-/
import SsaLowering.Lower.Expression

namespace SsaLowering

set_option autoImplicit false

open Ir (Ty BlockId Operand)
open LowerBody (refuse)

/-! ## Variables -/

/-- An initializer and its type, which is the declared type if there is one. -/
def lowerInitializer (env : Environment) (scope : ScopeId) (declared : Option Ty) (expr : Expr) :
    LowerBody (Operand × Ty) := do
  let operand ← (← lowerExpr env scope expr).read
  let found ← LowerBody.operandTy operand
  match declared with
  | some expected =>
    if expected ≠ found then refuse (.typeMismatch "initializer" expected found expr.span)
  | none => pure ()
  return (operand, found)

/-- An immutable binding: the value itself, which takes the name if it has none. -/
def bindConstant (env : Environment) (scope : ScopeId) (decl : Declarator)
    (init : Option (Operand × Ty)) : LowerBody Unit := do
  let name := env.name decl.name
  match init with
  | none => refuse (.missingInitializer name decl.span)
  | some (operand, _) =>
    if let some value := operand.value? then
      discard <| LowerBody.emit (·.nameValue value name)
    discard <| LowerBody.outside (Lower.bind scope decl.name (.direct operand))

/-- A mutable binding: a slot, to which the initial value is stored. -/
def bindVariable (env : Environment) (scope : ScopeId) (decl : Declarator) (declared : Option Ty)
    (init : Option (Operand × Ty)) : LowerBody Unit := do
  let name := env.name decl.name
  let some ty := declared <|> init.map (·.2) | refuse (.untypedBinding name decl.span)
  let ptr ← LowerBody.emit (·.alloca ty name)
  if let some (operand, _) := init then
    LowerBody.emit_ (·.store operand (.value ptr))
  discard <| LowerBody.outside (Lower.bind scope decl.name (.slot ⟨ptr, ty⟩))

/-- One declarator: its type, then its initializer, then the binding. -/
def lowerDeclarator (env : Environment) (scope : ScopeId) (kind : BindingKind)
    (decl : Declarator) : LowerBody Unit := do
  let declared ← match decl.type with
    | none => pure none
    | some ty =>
      match env.types.resolve ty with
      | .ok image => pure (some image)
      | .error cause => refuse (.type cause)
  let init ← match decl.init with
    | none => pure none
    | some expr => some <$> lowerInitializer env scope declared expr
  if kind.isMutable then bindVariable env scope decl declared init
  else bindConstant env scope decl init

/-! ## Control flow -/

/-- Return nothing or a value, as the signature asks. -/
def lowerReturn (env : Environment) (scope : ScopeId) (value : Option Expr) (span : FileSpan) :
    LowerBody Unit := do
  let expected := (← LowerBody.builder).returnTy
  match value with
  | none =>
    if !expected.isVoid then refuse (.typeMismatch "return" expected .void span)
    LowerBody.emit_ (·.ret none)
  | some expr =>
    let returned ← (← lowerExpr env scope expr).read
    let found ← LowerBody.operandTy returned
    if found ≠ expected then refuse (.typeMismatch "return" expected found expr.span)
    LowerBody.emit_ (·.ret (some returned))

/-- A condition, which has to be a boolean. -/
def lowerCondition (env : Environment) (scope : ScopeId) (condition : Expr) :
    LowerBody Operand := do
  let operand ← (← lowerExpr env scope condition).read
  let found ← LowerBody.operandTy operand
  if found ≠ .bool then
    refuse (.unsupportedExpression condition.kind
      s!"condition must be a boolean, found `{found.text}`" condition.span)
  return operand

/-- Lower a branch into the block `start` and fall through to `next`. -/
def lowerBranch (start next : BlockId) (branch : LowerBody Unit) : LowerBody Unit := do
  LowerBody.emit_ (·.positionAtEnd start)
  branch
  if !(← LowerBody.builder).isTerminated then LowerBody.emit_ (·.br next)

/-- Skip a construct with a warning. -/
def skip (kind : SyntaxKind) (span : FileSpan) : LowerBody Unit :=
  LowerBody.outside (modify (·.warn ⟨.unhandledSyntax kind, span⟩))

mutual

/-- Lower one statement. -/
def lowerStmt (env : Environment) (scope : ScopeId) : Stmt → LowerBody Unit
  | .block stmts _ => LowerBody.inScope scope fun inner => lowerStmts env inner stmts
  | .expression (.call callee args span) _ => do
    let target ← lowerExpr env scope callee
    discard <| lowerCall env callee target args.length (lowerArgs env scope args) span
  | .expression expr _ => discard <| lowerExpr env scope expr
  | .ifElse condition thenBranch elseBranch _ => do
    let cond ← lowerCondition env scope condition
    let thenBlock ← LowerBody.appendBlock "then"
    let elseBlock ← LowerBody.appendBlock "else"
    let endBlock ← LowerBody.appendBlock "endif"
    LowerBody.emit_ (·.condBr cond thenBlock elseBlock)
    lowerBranch thenBlock endBlock (lowerStmt env scope thenBranch)
    lowerBranch elseBlock endBlock (lowerOptional env scope elseBranch)
    LowerBody.emit_ (·.positionAtEnd endBlock)
  | .ret value span => lowerReturn env scope value span
  | .vars kind declarators _ => declarators.forM (lowerDeclarator env scope kind)
  | .whileLoop _ _ span => skip .whileStatement span
  | .breakLoop span => skip .breakStatement span
  | .continueLoop span => skip .continueStatement span
  | .empty span => skip .emptyStatement span

/-- Lower the statement of a branch that may be absent. -/
def lowerOptional (env : Environment) (scope : ScopeId) : Option Stmt → LowerBody Unit
  | none => return ()
  | some stmt => lowerStmt env scope stmt

/-- Lower statements in order, up to the first that cannot be reached. -/
def lowerStmts (env : Environment) (scope : ScopeId) : List Stmt → LowerBody Unit
  | [] => return ()
  | stmt :: rest => do
    if (← LowerBody.builder).isTerminated then
      LowerBody.outside (Lower.log (.statementsSkipped stmt.span (rest.length + 1)))
    else
      lowerStmt env scope stmt
      lowerStmts env scope rest

end

end SsaLowering
