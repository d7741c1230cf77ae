/-
# SsaLowering.Lower.Expression -- lowering of expressions

`lowerExpr` lowers an expression whose value is used.  Names are looked up, a
mutable variable stays a slot until it is read (`ExprValue.read`, the one place
that loads), operands and arguments go left to right, an assignment gives the
value that it stored.  A call of a `void` function has no value; only a call that
stands as a whole statement may be one (`lowerCall`).
-/
import SsaLowering.Lower.Context

namespace SsaLowering

set_option autoImplicit false

open Ir (Ty FuncId FunctionTy Operand)
open LowerBody (refuse)

/-- The outcome of an expression: an operand, or a variable that has to be read. -/
inductive ExprValue where
  | direct (operand : Operand)
  | slot (slot : StackSlot)
deriving Inhabited

/-- The operand behind a value; a slot is loaded. -/
def ExprValue.read : ExprValue → LowerBody Operand
  | direct operand => return operand
  | slot s => return .value (← LowerBody.emit (·.load s.ty (.value s.ptr)))

/-- An expression as it is named in a report. -/
def Expr.describe (env : Environment) : Expr → String
  | identifier name _ => env.name name
  | member object property _ => object.describe env ++ "." ++ env.name property
  | other => other.kind.name

/-- A bound name as the value of an expression. -/
def BoundValue.toExprValue (bound : BoundValue) (name : String) (span : FileSpan) :
    LowerBody ExprValue :=
  match bound with
  | direct operand => return .direct operand
  | slot s => return .slot s
  | namespace_ _ => refuse (.namespaceAsValue name span)

/-! ## Names -/

/-- A bare name: its innermost binding. -/
def lowerIdentifier (env : Environment) (scope : ScopeId) (name : Symbol) (span : FileSpan) :
    LowerBody ExprValue := do
  match ← LowerBody.resolve scope name with
  | some bound => bound.toExprValue (env.name name) span
  | none => refuse (.unresolvedName (env.name name) span)

/-- A member of a namespace that is given by a bare name. -/
def lowerMember (env : Environment) (scope : ScopeId) (object : Expr) (property : Symbol)
    (span : FileSpan) : LowerBody ExprValue := do
  let .identifier objectName objectSpan := object
    | refuse (.unsupportedExpression .propertyAccessExpression
        s!"member access on {object.kind.name}" span)
  match ← LowerBody.resolve scope objectName with
  | some (.namespace_ inner) =>
    let qualified := env.name objectName ++ "." ++ env.name property
    match ← LowerBody.lookupIn inner property with
    | some bound => bound.toExprValue qualified span
    | none => refuse (.unresolvedName qualified span)
  | some _ =>
    let shown := env.name objectName
    refuse (.unsupportedExpression .propertyAccessExpression s!"`{shown}` is not a namespace" span)
  | none => refuse (.unresolvedName (env.name objectName) objectSpan)

/-! ## Literals -/

/-- The largest byte count that a string can record. -/
def maxStringBytes : Nat := 2147483647

/-- A string literal: constant bytes, and an aggregate of their address and number. -/
def lowerString (env : Environment) (value : String) (span : FileSpan) : LowerBody ExprValue := do
  let .struct name fields := env.types.stringTy
    | refuse (.unsupportedExpression .stringLiteral "string type is not an aggregate" span)
  let bytes := value.toUTF8.toList
  let count := bytes.length
  if maxStringBytes < count then
    refuse (.unsupportedExpression .stringLiteral s!"literal of {count} bytes is too long" span)
  let id ← LowerBody.outside (Lower.onModule fun m => .ok (m.addConstant bytes))
  return .direct (.constant (.struct ⟨name, fields⟩ [.global id, .int 32 count]))

/-! ## Calls -/

/-- The function that a callee denotes, with its signature. -/
def callTarget (env : Environment) (callee : Expr) (value : ExprValue) :
    LowerBody (FuncId × FunctionTy) := do
  match value with
  | .direct (.function id) =>
    match (← LowerBody.context).module.signature? id with
    | some signature => return (id, signature)
    | none => refuse (.build (.unknownFunction id))
  | _ =>
    let shown := callee.describe env
    refuse (.unsupportedExpression .callExpression s!"`{shown}` is not a function" callee.span)

/-- A call whose callee has been lowered to `value`, and whose arguments `args`
lowers against the parameter types.  No result means that the callee returns
`void`. -/
def lowerCall (env : Environment) (callee : Expr) (value : ExprValue) (found : Nat)
    (args : List Ty → LowerBody (List Operand)) (span : FileSpan) :
    LowerBody (Option Operand) := do
  let (id, signature) ← callTarget env callee value
  if found ≠ signature.params.length then
    refuse (.arityMismatch (callee.describe env) signature.params.length found span)
  let operands ← args signature.params
  return (← LowerBody.emit (·.call id signature operands)).map .value

/-! ## Operators -/

/-- The slot that an assignment writes to. -/
def assignmentTarget (env : Environment) (target : Expr) (value : ExprValue) :
    LowerBody StackSlot :=
  match value, target with
  | .slot s, _ => return s
  | .direct (.value _), .identifier .. | .direct (.constant _), .identifier ..
  | .direct (.value _), .member .. | .direct (.constant _), .member .. =>
    refuse (.assignToImmutable (target.describe env) target.span)
  | .direct _, _ => refuse (.invalidAssignmentTarget target.kind target.span)

/-- Store an operand in a slot of its type. -/
def assign (slot : StackSlot) (stored : Operand) (span : FileSpan) : LowerBody ExprValue := do
  let found ← LowerBody.operandTy stored
  if found ≠ slot.ty then refuse (.typeMismatch "assignment" slot.ty found span)
  LowerBody.emit_ (·.store stored (.value slot.ptr))
  return .direct stored

/-- Add two doubles. -/
def add (left right : Operand) (span : FileSpan) : LowerBody ExprValue := do
  let leftTy ← LowerBody.operandTy left
  let rightTy ← LowerBody.operandTy right
  if leftTy ≠ .double ∨ rightTy ≠ .double then
    refuse (.unsupportedExpression .binaryExpression
      s!"`{leftTy.text} + {rightTy.text}`, only `double + double` is lowered" span)
  return .direct (.value (← LowerBody.emit (·.fadd left right)))

/-- An argument has exactly the type of its parameter. -/
def checkArgument (operand : Operand) (expected : Ty) (span : FileSpan) : LowerBody Unit := do
  let found ← LowerBody.operandTy operand
  if found ≠ expected then refuse (.typeMismatch "argument" expected found span)

mutual

/-- Lower an expression whose value is used. -/
def lowerExpr (env : Environment) (scope : ScopeId) : Expr → LowerBody ExprValue
  | .identifier name span => lowerIdentifier env scope name span
  | .member object property span => lowerMember env scope object property span
  | .call callee args span => do
    let target ← lowerExpr env scope callee
    match ← lowerCall env callee target args.length (lowerArgs env scope args) span with
    | some result => return .direct result
    | none => refuse (.voidValue (callee.describe env) span)
  | .binary .assign lhs rhs _ => do
    let target ← lowerExpr env scope lhs
    let slot ← assignmentTarget env lhs target
    let stored ← (← lowerExpr env scope rhs).read
    assign slot stored rhs.span
  | .binary .add lhs rhs span => do
    let left ← (← lowerExpr env scope lhs).read
    let right ← (← lowerExpr env scope rhs).read
    add left right span
  | .binary op _ _ span =>
    refuse (.unsupportedExpression .binaryExpression s!"operator `{op.text}`" span)
  | .unary op _ span =>
    refuse (.unsupportedExpression .prefixUnaryExpression s!"operator `{op.text}`" span)
  | .bool value _ => return .direct (.constant (.bool value))
  | .number value _ => return .direct (.constant (.double value))
  | .string value span => lowerString env value span
  | .null span => refuse (.unsupportedExpression .nullLiteral "expression is not supported" span)
  | .array _ span =>
    refuse (.unsupportedExpression .arrayLiteralExpression "expression is not supported" span)
  | .index _ _ span =>
    refuse (.unsupportedExpression .elementAccessExpression "expression is not supported" span)

/-- Lower arguments from left to right against the types of the parameters. -/
def lowerArgs (env : Environment) (scope : ScopeId) :
    List Expr → List Ty → LowerBody (List Operand)
  | arg :: args, param :: params => do
    let operand ← (← lowerExpr env scope arg).read
    checkArgument operand param arg.span
    return operand :: (← lowerArgs env scope args params)
  | _, _ => return []

end

end SsaLowering
