/-
# SsaLowering.Proofs.Lower.Closure -- what holds of the run of every expression

An expression is lowered by few kinds of steps: it asks for names, for the signature of a
function and for the types of operands, it emits loads, stores, additions and calls, it adds
the bytes of a string to the module, and it may refuse.  A property of runs that these steps
have, and that `>>=` keeps, is one of every expression (`Closed.expr`), whatever state it
is about.
-/
import SsaLowering.Lower.Statement
import SsaLowering.Proofs.Lower.Steps

namespace SsaLowering

set_option autoImplicit false

open Ir (Ty Operand FuncId FunctionTy)

namespace LowerBody

/-- A property of runs that `>>=` keeps and that the steps of expressions have. -/
structure Closed (P : (α : Type) → LowerBody α → Prop) : Prop where
  pure : ∀ {α : Type} (a : α), P α (pure a)
  refuse : ∀ {α : Type} (cause : LowerError), P α (LowerBody.refuse cause)
  bind : ∀ {α β : Type} {x : LowerBody α} {f : α → LowerBody β},
    P α x → (∀ a, P β (f a)) → P β (x >>= f)
  context : P _ LowerBody.context
  requireScope : ∀ scope, P _ (LowerBody.outside (Lower.requireScope scope))
  addConstant : ∀ bytes : List UInt8,
    P _ (LowerBody.outside (Lower.onModule fun m => .ok (m.addConstant bytes)))
  operandTy : ∀ operand : Operand, P _ (LowerBody.operandTy operand)
  load : ∀ (ty : Ty) (ptr : Operand), P _ (LowerBody.emit (·.load ty ptr))
  store : ∀ value ptr : Operand, P _ (LowerBody.emit_ (·.store value ptr))
  fadd : ∀ lhs rhs : Operand, P _ (LowerBody.emit (·.fadd lhs rhs))
  call : ∀ (callee : FuncId) (signature : FunctionTy) (args : List Operand),
    P _ (LowerBody.emit (·.call callee signature args))

namespace Closed

variable {P : (α : Type) → LowerBody α → Prop} {α β : Type} (closed : Closed P)

include closed

theorem map {x : LowerBody α} (f : α → β) (run : P α x) : P β (f <$> x) := by
  have same : f <$> x = x >>= fun a => Pure.pure (f a) := by
    funext s
    exact map_run f x s
  rw [same]
  exact closed.bind run fun a => closed.pure (f a)

theorem discard {x : LowerBody α} (run : P α x) : P Unit (Functor.discard x) :=
  closed.map (fun _ => ()) run

/-- A check that refuses, before the rest of the work. -/
theorem check {failed : Prop} [Decidable failed] {cause : LowerError} {rest : PUnit → LowerBody α}
    (goes : P α (rest ⟨⟩)) :
    P α (if failed then LowerBody.refuse cause >>= rest else rest ⟨⟩) := by
  split
  · refine closed.bind (closed.refuse cause) fun u => ?_
    cases u
    exact goes
  · exact goes

theorem resolve (scope : ScopeId) (name : Symbol) : P _ (LowerBody.resolve scope name) :=
  closed.bind (closed.requireScope scope) fun _ => closed.bind closed.context fun _ => closed.pure _

theorem lookupIn (scope : ScopeId) (name : Symbol) : P _ (LowerBody.lookupIn scope name) :=
  closed.bind (closed.requireScope scope) fun _ => closed.bind closed.context fun _ => closed.pure _

/-! ## The forms of an expression -/

theorem read (value : ExprValue) : P _ value.read := by
  cases value with
  | direct operand => exact closed.pure operand
  | slot home => exact closed.bind (closed.load _ _) fun _ => closed.pure _

theorem toExprValue (bound : BoundValue) (name : String) (span : FileSpan) :
    P _ (bound.toExprValue name span) := by
  cases bound with
  | direct operand => exact closed.pure _
  | slot home => exact closed.pure _
  | namespace_ inner => exact closed.refuse _

theorem identifier (env : Environment) (scope : ScopeId) (name : Symbol) (span : FileSpan) :
    P _ (lowerIdentifier env scope name span) := by
  refine closed.bind (closed.resolve scope name) fun found => ?_
  cases found with
  | none => exact closed.refuse _
  | some bound => exact closed.toExprValue bound _ span

theorem member (env : Environment) (scope : ScopeId) (object : Expr) (property : Symbol)
    (span : FileSpan) : P _ (lowerMember env scope object property span) := by
  unfold lowerMember
  split
  · refine closed.bind (closed.resolve scope _) fun found => ?_
    split
    · refine closed.bind (closed.lookupIn _ property) fun bound => ?_
      split
      · exact closed.toExprValue _ _ span
      · exact closed.refuse _
    · exact closed.refuse _
    · exact closed.refuse _
  · exact closed.refuse _

theorem string (env : Environment) (value : String) (span : FileSpan) :
    P _ (lowerString env value span) := by
  unfold lowerString
  split
  · exact closed.check (closed.bind (closed.addConstant _) fun _ => closed.pure _)
  · exact closed.refuse _

theorem target (env : Environment) (callee : Expr) (value : ExprValue) :
    P _ (callTarget env callee value) := by
  unfold callTarget
  split
  · refine closed.bind closed.context fun cx => ?_
    split
    · exact closed.pure _
    · exact closed.refuse _
  · exact closed.refuse _

theorem callOf (env : Environment) (callee : Expr) (value : ExprValue) (found : Nat)
    {args : List Ty → LowerBody (List Operand)} (arguments : ∀ tys, P _ (args tys))
    (span : FileSpan) : P _ (lowerCall env callee value found args span) := by
  unfold lowerCall
  refine closed.bind (closed.target env callee value) fun target => ?_
  obtain ⟨id, signature⟩ := target
  refine closed.check (closed.bind (arguments signature.params) fun operands => ?_)
  exact closed.bind (closed.call _ _ _) fun result => closed.pure _

theorem assigned (env : Environment) (target : Expr) (value : ExprValue) :
    P _ (assignmentTarget env target value) := by
  unfold assignmentTarget
  split
  · exact closed.pure _
  all_goals exact closed.refuse _

theorem assignment (home : StackSlot) (stored : Operand) (span : FileSpan) :
    P _ (assign home stored span) := by
  unfold assign
  refine closed.bind (closed.operandTy stored) fun found => closed.check ?_
  exact closed.bind (closed.store _ _) fun _ => closed.pure _

theorem sum (left right : Operand) (span : FileSpan) : P _ (add left right span) := by
  unfold add
  refine closed.bind (closed.operandTy left) fun leftTy => ?_
  refine closed.bind (closed.operandTy right) fun rightTy => closed.check ?_
  exact closed.bind (closed.fadd _ _) fun sum => closed.pure _

theorem argument (operand : Operand) (expected : Ty) (span : FileSpan) :
    P _ (checkArgument operand expected span) := by
  unfold checkArgument
  exact closed.bind (closed.operandTy operand) fun found => closed.check (closed.pure _)

/-! ## Every expression -/

mutual

theorem expr (env : Environment) (scope : ScopeId) : ∀ expr : Expr, P _ (lowerExpr env scope expr)
  | .identifier name span => closed.identifier env scope name span
  | .member object property span => closed.member env scope object property span
  | .call callee args span => by
    rw [lowerExpr]
    refine closed.bind (expr env scope callee) fun target => ?_
    refine closed.bind (closed.callOf env callee target _ (arguments env scope args) span) ?_
    intro result
    cases result with
    | none => exact closed.refuse _
    | some operand => exact closed.pure _
  | .binary .assign lhs rhs span => by
    rw [lowerExpr]
    refine closed.bind (expr env scope lhs) fun target => ?_
    refine closed.bind (closed.assigned env lhs target) fun home => ?_
    refine closed.bind (expr env scope rhs) fun value => ?_
    exact closed.bind (closed.read value) fun stored => closed.assignment home stored _
  | .binary .add lhs rhs span => by
    rw [lowerExpr]
    refine closed.bind (expr env scope lhs) fun left => ?_
    refine closed.bind (closed.read left) fun l => ?_
    refine closed.bind (expr env scope rhs) fun right => ?_
    exact closed.bind (closed.read right) fun r => closed.sum l r span
  | .binary .sub _ _ _ | .binary .mul _ _ _ | .binary .div _ _ _ | .binary .lt _ _ _
  | .binary .gt _ _ _ | .binary .eq _ _ _ | .binary .ne _ _ _ | .binary .and _ _ _
  | .binary .or _ _ _ | .unary _ _ _ | .null _ | .array _ _ | .index _ _ _ => closed.refuse _
  | .bool _ _ | .number _ _ => by
    rw [lowerExpr]
    exact closed.pure _
  | .string value span => closed.string env value span

theorem arguments (env : Environment) (scope : ScopeId) :
    ∀ (args : List Expr) (tys : List Ty), P _ (lowerArgs env scope args tys)
  | [], _ => by
    rw [lowerArgs]
    · exact closed.pure _
    · simp
  | _ :: _, [] => by
    rw [lowerArgs]
    · exact closed.pure _
    · simp
  | arg :: args, ty :: tys => by
    rw [lowerArgs]
    refine closed.bind (expr env scope arg) fun value => ?_
    refine closed.bind (closed.read value) fun operand => ?_
    refine closed.bind (closed.argument operand ty _) fun _ => ?_
    exact closed.bind (arguments env scope args tys) fun rest => closed.pure _

end

/-! ## Expressions in statements -/

/-- An expression that stands as a statement; a call among them may have no value. -/
theorem statement (env : Environment) (scope : ScopeId) (expr : Expr) (span : FileSpan) :
    P _ (lowerStmt env scope (.expression expr span)) := by
  cases expr with
  | call callee args callSpan =>
    rw [lowerStmt]
    refine closed.bind (closed.expr env scope callee) fun target => ?_
    exact closed.discard (closed.callOf env callee target _ (closed.arguments env scope args) _)
  | _ =>
    rw [lowerStmt]
    · exact closed.discard (closed.expr env scope _)
    · simp

theorem initializer (env : Environment) (scope : ScopeId) (declared : Option Ty) (expr : Expr) :
    P _ (lowerInitializer env scope declared expr) := by
  unfold lowerInitializer
  refine closed.bind (closed.expr env scope expr) fun value => ?_
  refine closed.bind (closed.read value) fun operand => ?_
  refine closed.bind (closed.operandTy operand) fun found => ?_
  cases declared with
  | none => exact closed.pure _
  | some expected => exact closed.check (closed.pure _)

theorem condition (env : Environment) (scope : ScopeId) (condition : Expr) :
    P _ (lowerCondition env scope condition) := by
  unfold lowerCondition
  refine closed.bind (closed.expr env scope condition) fun value => ?_
  refine closed.bind (closed.read value) fun operand => ?_
  exact closed.bind (closed.operandTy operand) fun found => closed.check (closed.pure _)

end Closed

end LowerBody

end SsaLowering
