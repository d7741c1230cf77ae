/-
# SsaLowering.Proofs.Renaming.Locals -- function bodies under other names of locals

`FunctionDecl.renameLocals` renames the parameters and variables of a function: the names of
parameters and declarators and every identifier, but no property, no type and not the function
itself.  If names stay apart and nothing around the function has an old or a new name of a
renamed one, the function and its copy are lowered alike (`Context.Reached.renames_locals`):
to functions that differ in the names of values, or to a failure on both sides.

A name of the body is looked up in scopes of the body, which are twins, and in those around
it, where a renamed name means nothing on either side.  A property is looked up in a
namespace, and these are all outside.
-/
import SsaLowering.Proofs.Lower.Rollback
import SsaLowering.Proofs.Renaming.Tree
import SsaLowering.Proofs.Renaming.Twins

namespace SsaLowering

set_option autoImplicit false

open Ir (Ty BlockId Builder Function FunctionTy Operand ValueId)

/-! ## Trees -/

section Trees

variable (σ : Symbol → Symbol)

namespace Expr

mutual

def renameLocals : Expr → Expr
  | identifier name span => identifier (σ name) span
  | member object property span => member object.renameLocals property span
  | call callee args span => call callee.renameLocals (renameLocalsAll args) span
  | binary op lhs rhs span => binary op lhs.renameLocals rhs.renameLocals span
  | unary op operand span => unary op operand.renameLocals span
  | bool value span => bool value span
  | number value span => number value span
  | string value span => string value span
  | null span => null span
  | array elements span => array (renameLocalsAll elements) span
  | index object position span => index object.renameLocals position.renameLocals span

def renameLocalsAll : List Expr → List Expr
  | [] => []
  | expr :: rest => expr.renameLocals :: renameLocalsAll rest

end

theorem length_renameLocalsAll (exprs : List Expr) :
    (renameLocalsAll σ exprs).length = exprs.length := by
  induction exprs with
  | nil => simp [renameLocalsAll]
  | cons expr rest ih => simp [renameLocalsAll, ih]

end Expr

def Declarator.renameLocals (decl : Declarator) : Declarator :=
  { decl with name := σ decl.name, init := decl.init.map (·.renameLocals σ) }

namespace Stmt

mutual

def renameLocals : Stmt → Stmt
  | block stmts span => block (renameLocalsAll stmts) span
  | expression expr span => expression (expr.renameLocals σ) span
  | ifElse condition thenBranch elseBranch span =>
    ifElse (condition.renameLocals σ) thenBranch.renameLocals (renameLocalsOptional elseBranch) span
  | ret value span => ret (value.map (·.renameLocals σ)) span
  | vars kind declarators span => vars kind (declarators.map (·.renameLocals σ)) span
  | whileLoop condition body span => whileLoop (condition.renameLocals σ) body.renameLocals span
  | breakLoop span => breakLoop span
  | continueLoop span => continueLoop span
  | empty span => empty span

def renameLocalsOptional : Option Stmt → Option Stmt
  | none => none
  | some stmt => some stmt.renameLocals

def renameLocalsAll : List Stmt → List Stmt
  | [] => []
  | stmt :: rest => stmt.renameLocals :: renameLocalsAll rest

end

theorem span_renameLocals (stmt : Stmt) : (stmt.renameLocals σ).span = stmt.span := by
  cases stmt <;> simp [renameLocals, span]

theorem length_renameLocalsAll (stmts : List Stmt) :
    (renameLocalsAll σ stmts).length = stmts.length := by
  induction stmts with
  | nil => simp [renameLocalsAll]
  | cons stmt rest ih => simp [renameLocalsAll, ih]

end Stmt

def Param.renameLocals (param : Param) : Param := { param with name := σ param.name }

/-- The function with other names for its parameters and variables. -/
def FunctionDecl.renameLocals (decl : FunctionDecl) : FunctionDecl :=
  { decl with
    params := decl.params.map (·.renameLocals σ)
    body := decl.body.map fun body => ⟨Stmt.renameLocalsAll σ body.stmts, body.span⟩ }

end Trees

open LowerBody (refuse_concur check_concur emit_concur emitUnit_concur operandTy_concur
  outside_concur builder_bind_concur resolve_bind_concur)
open Ir.Builder (emit_blind emitValue_blind alloca_blind appendBlock_blind terminate_unnamed
  store_unnamed positionAtEnd_unnamed)

variable {ρ : Renaming} {o : Outside} {env : Environment}

/-! ## Expressions -/

theorem read_concur (value : ExprValue) : LowerBody.Concur ρ o value.read value.read := by
  cases value with
  | direct operand => exact .pure operand
  | slot home => exact (emit_concur (emitValue_blind _)).bind fun _ => .pure _

theorem toExprValue_concur (bound : BoundValue) (name name' : String) (span : FileSpan) :
    LowerBody.Concur ρ o (bound.toExprValue name span) (bound.toExprValue name' span) := by
  cases bound with
  | direct operand => exact .pure _
  | slot home => exact .pure _
  | namespace_ inner => exact refuse_concur _ _

theorem lowerIdentifier_concur {scope : ScopeId} (new : o.New scope) {name : Symbol}
    (used : name ∈ ρ.used) (span : FileSpan) :
    LowerBody.Concur ρ o (lowerIdentifier env scope name span)
      (lowerIdentifier env scope (ρ.map name) span) := by
  refine resolve_bind_concur new used fun s t twins found _ => ?_
  cases found with
  | none => exact .error
  | some bound => exact toExprValue_concur bound _ _ span s t twins

theorem lowerMember_concur {scope : ScopeId} (new : o.New scope) (object : Expr)
    (covered : ρ.Covers object.symbols) (property : Symbol) (span : FileSpan) :
    LowerBody.Concur ρ o (lowerMember env scope object property span)
      (lowerMember env scope (object.renameLocals ρ.map) property span) := by
  cases object with
  | identifier name nameSpan =>
    rw [Expr.symbols, Renaming.covers_cons] at covered
    simp only [Expr.renameLocals, lowerMember]
    refine resolve_bind_concur new covered.1 fun s t twins found here => ?_
    rcases found with _ | operand | home | inner
    · exact .error
    · exact .error
    · exact .error
    · refine (LowerBody.member_concur twins here property).bind fun member => ?_
      cases member with
      | none => exact refuse_concur _ _
      | some bound => exact toExprValue_concur bound _ _ span
  | _ =>
    simp only [Expr.renameLocals, lowerMember]
    exact refuse_concur _ _

theorem lowerString_concur (value : String) (span : FileSpan) :
    LowerBody.Concur ρ o (lowerString env value span) (lowerString env value span) := by
  unfold lowerString
  split
  · refine check_concur _ _ _ ?_
    exact (outside_concur (Lower.onModule_concur _)).bind fun id => .pure _
  · exact refuse_concur _ _

theorem callTarget_concur (callee callee' : Expr) (value : ExprValue) :
    LowerBody.Concur ρ o (callTarget env callee value) (callTarget env callee' value) := by
  unfold callTarget
  split
  · refine LowerBody.context_bind_concur fun cx cx' twins => ?_
    rw [twins.module]
    split
    · exact .pure _
    · exact refuse_concur _ _
  · exact refuse_concur _ _

theorem lowerCall_concur (callee callee' : Expr) (value : ExprValue) (found : Nat)
    {args args' : List Ty → LowerBody (List Operand)}
    (arguments : ∀ params, LowerBody.Concur ρ o (args params) (args' params))
    (span : FileSpan) :
    LowerBody.Concur ρ o (lowerCall env callee value found args span)
      (lowerCall env callee' value found args' span) := by
  unfold lowerCall
  refine (callTarget_concur callee callee' value).bind fun ⟨id, signature⟩ => ?_
  refine check_concur _ _ _ ((arguments signature.params).bind fun operands => ?_)
  exact (emit_concur (emit_blind _ _)).bind fun result => .pure _

/-- There is no assignment to an operand; the cause may tell the target's name. -/
theorem assignmentTarget_direct (env : Environment) (target : Expr) (operand : Operand) :
    ∃ cause, assignmentTarget env target (.direct operand) = LowerBody.refuse cause := by
  cases target <;> cases operand <;> exact ⟨_, rfl⟩

theorem assignmentTarget_concur (target target' : Expr) (value : ExprValue) :
    LowerBody.Concur ρ o (assignmentTarget env target value)
      (assignmentTarget env target' value) := by
  cases value with
  | slot home => exact .pure home
  | direct operand =>
    obtain ⟨cause, refused⟩ := assignmentTarget_direct env target operand
    obtain ⟨cause', refused'⟩ := assignmentTarget_direct env target' operand
    rw [refused, refused']
    exact refuse_concur cause cause'

theorem assign_concur (home : StackSlot) (stored : Operand) (span : FileSpan) (span' : FileSpan) :
    LowerBody.Concur ρ o (assign home stored span) (assign home stored span') := by
  unfold assign
  refine (operandTy_concur stored).bind fun found => check_concur _ _ _ ?_
  exact (emitUnit_concur (Builder.store_unnamed · stored _)).bind fun _ => .pure _

theorem add_concur (left right : Operand) (span : FileSpan) :
    LowerBody.Concur ρ o (add left right span) (add left right span) := by
  unfold add
  refine (operandTy_concur left).bind fun leftTy => ?_
  refine (operandTy_concur right).bind fun rightTy => check_concur _ _ _ ?_
  exact (emit_concur (emitValue_blind _)).bind fun sum => .pure _

theorem checkArgument_concur (operand : Operand) (expected : Ty) (span span' : FileSpan) :
    LowerBody.Concur ρ o (checkArgument operand expected span)
      (checkArgument operand expected span') := by
  unfold checkArgument
  exact (operandTy_concur operand).bind fun found => check_concur _ _ _ (.pure _)

mutual

/-- An expression is lowered alike under other names of locals. -/
theorem lowerExpr_concur {scope : ScopeId} (new : o.New scope) : ∀ expr : Expr,
    ρ.Covers expr.symbols →
      LowerBody.Concur ρ o (lowerExpr env scope expr)
        (lowerExpr env scope (expr.renameLocals ρ.map))
  | .identifier name span, covered => by
    rw [Expr.symbols, Renaming.covers_cons] at covered
    rw [Expr.renameLocals, lowerExpr, lowerExpr]
    exact lowerIdentifier_concur new covered.1 span
  | .member object property span, covered => by
    rw [Expr.symbols, Renaming.covers_cons] at covered
    rw [Expr.renameLocals, lowerExpr, lowerExpr]
    exact lowerMember_concur new object covered.2 property span
  | .call callee args span, covered => by
    rw [Expr.symbols, Renaming.covers_append] at covered
    rw [Expr.renameLocals, lowerExpr, lowerExpr, Expr.length_renameLocalsAll]
    refine (lowerExpr_concur new callee covered.1).bind fun target => ?_
    refine (lowerCall_concur callee _ target args.length
      (lowerArgs_concur new args covered.2) span).bind fun result => ?_
    cases result with
    | none => exact refuse_concur _ _
    | some operand => exact .pure _
  | .binary .assign lhs rhs span, covered => by
    rw [Expr.symbols, Renaming.covers_append] at covered
    rw [Expr.renameLocals, lowerExpr, lowerExpr]
    refine (lowerExpr_concur new lhs covered.1).bind fun target => ?_
    refine (assignmentTarget_concur lhs _ target).bind fun home => ?_
    refine (lowerExpr_concur new rhs covered.2).bind fun value => ?_
    exact (read_concur value).bind fun stored => assign_concur home stored _ _
  | .binary .add lhs rhs span, covered => by
    rw [Expr.symbols, Renaming.covers_append] at covered
    rw [Expr.renameLocals, lowerExpr, lowerExpr]
    refine (lowerExpr_concur new lhs covered.1).bind fun left => ?_
    refine (read_concur left).bind fun l => ?_
    refine (lowerExpr_concur new rhs covered.2).bind fun right => ?_
    exact (read_concur right).bind fun r => add_concur l r span
  | .binary .sub _ _ _, _ | .binary .mul _ _ _, _ | .binary .div _ _ _, _
  | .binary .lt _ _ _, _ | .binary .gt _ _ _, _ | .binary .eq _ _ _, _ | .binary .ne _ _ _, _
  | .binary .and _ _ _, _ | .binary .or _ _ _, _ | .unary _ _ _, _ | .array _ _, _
  | .index _ _ _, _ => by
    rw [Expr.renameLocals, lowerExpr, lowerExpr] <;> first | exact refuse_concur _ _ | simp
  | .bool _ _, _ | .number _ _, _ => by
    rw [Expr.renameLocals, lowerExpr]
    exact .pure _
  | .null _, _ => by
    rw [Expr.renameLocals, lowerExpr]
    exact refuse_concur _ _
  | .string value span, _ => by
    rw [Expr.renameLocals, lowerExpr]
    exact lowerString_concur value span

theorem lowerArgs_concur {scope : ScopeId} (new : o.New scope) : ∀ args : List Expr,
    ρ.Covers (Expr.symbolsAll args) → ∀ params,
      LowerBody.Concur ρ o (lowerArgs env scope args params)
        (lowerArgs env scope (Expr.renameLocalsAll ρ.map args) params)
  | [], _, params => by
    rw [Expr.renameLocalsAll, lowerArgs]
    · exact .pure _
    · simp
  | arg :: args, _, [] => by
    rw [Expr.renameLocalsAll, lowerArgs, lowerArgs]
    · exact .pure _
    all_goals simp
  | arg :: args, covered, param :: params => by
    rw [Expr.symbolsAll, Renaming.covers_append] at covered
    rw [Expr.renameLocalsAll, lowerArgs, lowerArgs]
    refine (lowerExpr_concur new arg covered.1).bind fun value => ?_
    refine (read_concur value).bind fun operand => ?_
    refine (checkArgument_concur operand param _ _).bind fun _ => ?_
    exact (lowerArgs_concur new args covered.2 params).bind fun _ => .pure _

end

/-! ## Variables -/

theorem lowerInitializer_concur {scope : ScopeId} (new : o.New scope) (declared : Option Ty)
    {expr : Expr} (covered : ρ.Covers expr.symbols) :
    LowerBody.Concur ρ o (lowerInitializer env scope declared expr)
      (lowerInitializer env scope declared (expr.renameLocals ρ.map)) := by
  unfold lowerInitializer
  refine (lowerExpr_concur new expr covered).bind fun value => ?_
  refine (read_concur value).bind fun operand => ?_
  refine (operandTy_concur operand).bind fun found => ?_
  cases declared with
  | none => exact .pure _
  | some expected => exact check_concur _ _ _ (.pure _)

theorem direct_ne_namespace (operand : Operand) (inner : ScopeId) :
    BoundValue.direct operand ≠ .namespace_ inner := nofun

theorem slot_ne_namespace (home : StackSlot) (inner : ScopeId) :
    BoundValue.slot home ≠ .namespace_ inner := nofun

/-- A value or a slot is bound to corresponding names. -/
theorem bindOutside_concur {scope : ScopeId} (new : o.New scope) {name : Symbol}
    (used : name ∈ ρ.used) {value : BoundValue} (plain : ∀ inner, value ≠ .namespace_ inner) :
    LowerBody.Concur ρ o (discard <| LowerBody.outside (Lower.bind scope name value))
      (discard <| LowerBody.outside (Lower.bind scope (ρ.map name) value)) :=
  (outside_concur (Lower.bind_concur new used plain)).discard

theorem bindConstant_concur {scope : ScopeId} (new : o.New scope) {decl : Declarator}
    (used : decl.name ∈ ρ.used) (init : Option (Operand × Ty)) :
    LowerBody.Concur ρ o (bindConstant env scope decl init)
      (bindConstant env scope (decl.renameLocals ρ.map) init) := by
  unfold bindConstant
  rcases init with _ | ⟨operand, ty⟩
  · exact refuse_concur _ _
  · have bound := bindOutside_concur new used (direct_ne_namespace operand)
    dsimp only [Declarator.renameLocals]
    split
    · exact (LowerBody.nameValue_concur _ _ _).bind fun _ => bound
    · exact bound

theorem bindVariable_concur {scope : ScopeId} (new : o.New scope) {decl : Declarator}
    (used : decl.name ∈ ρ.used) (declared : Option Ty) (init : Option (Operand × Ty)) :
    LowerBody.Concur ρ o (bindVariable env scope decl declared init)
      (bindVariable env scope (decl.renameLocals ρ.map) declared init) := by
  unfold bindVariable
  dsimp only [Declarator.renameLocals]
  split
  · refine (emit_concur (alloca_blind _ _ _)).bind fun ptr => ?_
    have bound (ty : Ty) := bindOutside_concur new used (slot_ne_namespace ⟨ptr, ty⟩)
    cases init with
    | none => exact bound _
    | some given => exact (emitUnit_concur (store_unnamed · _ _)).bind fun _ => bound _
  · exact refuse_concur _ _

theorem declaredTy_concur (decl : Declarator) :
    LowerBody.Concur ρ o (declaredTy env decl) (declaredTy env (decl.renameLocals ρ.map)) := by
  unfold declaredTy
  dsimp only [Declarator.renameLocals]
  split
  · exact .pure _
  · split
    · exact .pure _
    · exact refuse_concur _ _

theorem initialValue_concur {scope : ScopeId} (new : o.New scope) (declared : Option Ty)
    {decl : Declarator} (covered : ρ.Covers (decl.init.elim [] Expr.symbols)) :
    LowerBody.Concur ρ o (initialValue env scope declared decl)
      (initialValue env scope declared (decl.renameLocals ρ.map)) := by
  unfold initialValue
  dsimp only [Declarator.renameLocals]
  generalize decl.init = init at covered
  cases init with
  | none => exact .pure _
  | some expr => exact (lowerInitializer_concur new declared covered).map _

theorem lowerDeclarator_concur {scope : ScopeId} (new : o.New scope) (kind : BindingKind)
    {decl : Declarator} (covered : ρ.Covers decl.symbols) :
    LowerBody.Concur ρ o (lowerDeclarator env scope kind decl)
      (lowerDeclarator env scope kind (decl.renameLocals ρ.map)) := by
  rw [Declarator.symbols, Renaming.covers_append, Renaming.covers_cons] at covered
  obtain ⟨⟨used, -⟩, initialised⟩ := covered
  rw [lowerDeclarator_eq, lowerDeclarator_eq]
  refine (declaredTy_concur decl).bind fun declared => ?_
  refine (initialValue_concur new declared initialised).bind fun init => ?_
  split
  · exact bindVariable_concur new used declared init
  · exact bindConstant_concur new used init

/-! ## Control flow -/

theorem lowerReturn_concur {scope : ScopeId} (new : o.New scope) {value : Option Expr}
    (covered : ρ.Covers (value.elim [] Expr.symbols)) (span : FileSpan) :
    LowerBody.Concur ρ o (lowerReturn env scope value span)
      (lowerReturn env scope (value.map (·.renameLocals ρ.map)) span) := by
  refine builder_bind_concur fun b c same => ?_
  have expected : c.returnTy = b.returnTy := Builder.view_eq same (·.returnTy) fun _ => rfl
  simp only [expected]
  cases value with
  | none => exact check_concur _ _ _ (emitUnit_concur (terminate_unnamed · _))
  | some expr =>
    refine (lowerExpr_concur new expr covered).bind fun value => ?_
    refine (read_concur value).bind fun returned => ?_
    refine (operandTy_concur returned).bind fun found => ?_
    exact check_concur _ _ _ (emitUnit_concur (terminate_unnamed · _))

theorem lowerCondition_concur {scope : ScopeId} (new : o.New scope) {condition : Expr}
    (covered : ρ.Covers condition.symbols) :
    LowerBody.Concur ρ o (lowerCondition env scope condition)
      (lowerCondition env scope (condition.renameLocals ρ.map)) := by
  refine (lowerExpr_concur new condition covered).bind fun value => ?_
  refine (read_concur value).bind fun operand => ?_
  refine (operandTy_concur operand).bind fun found => ?_
  exact check_concur _ _ _ (.pure _)

theorem lowerBranch_concur (start next : BlockId) {branch branch' : LowerBody Unit}
    (run : LowerBody.Concur ρ o branch branch') :
    LowerBody.Concur ρ o (lowerBranch start next branch) (lowerBranch start next branch') := by
  refine (emitUnit_concur (positionAtEnd_unnamed · start)).bind fun _ => ?_
  refine run.bind fun _ => builder_bind_concur fun b c same => ?_
  have closed : c.isTerminated = b.isTerminated :=
    Builder.view_eq same (·.isTerminated) fun _ => rfl
  rw [closed]
  split
  · exact emitUnit_concur (terminate_unnamed · _)
  · exact .pure _

theorem skip_concur (kind : SyntaxKind) (span : FileSpan) :
    LowerBody.Concur ρ o (skip kind span) (skip kind span) :=
  outside_concur (Lower.warn_concur _)

/-- A call that stands as a statement may return nothing; any other expression is lowered
for its value. -/
theorem expressionStatement_concur {scope : ScopeId} (new : o.New scope) (expr : Expr)
    (span : FileSpan) (covered : ρ.Covers expr.symbols) :
    LowerBody.Concur ρ o (lowerStmt env scope (.expression expr span))
      (lowerStmt env scope (.expression (expr.renameLocals ρ.map) span)) := by
  cases expr with
  | call callee args callSpan =>
    rw [Expr.symbols, Renaming.covers_append] at covered
    rw [Expr.renameLocals, lowerStmt, lowerStmt, Expr.length_renameLocalsAll]
    refine (lowerExpr_concur new callee covered.1).bind fun target => ?_
    exact (lowerCall_concur callee _ target args.length
      (lowerArgs_concur new args covered.2) callSpan).discard
  | bool | number | string | null =>
    have lowered : LowerBody.Concur ρ o (lowerExpr env scope _) _ :=
      lowerExpr_concur new _ covered
    rw [Expr.renameLocals] at lowered ⊢
    rw [lowerStmt]
    · exact lowered.discard
    · simp
  | _ =>
    have lowered : LowerBody.Concur ρ o (lowerExpr env scope _) _ :=
      lowerExpr_concur new _ covered
    rw [Expr.renameLocals] at lowered ⊢
    rw [lowerStmt, lowerStmt]
    · exact lowered.discard
    all_goals simp

/-! ## Statements -/

mutual

/-- A statement is lowered alike under other names of locals. -/
theorem lowerStmt_concur : ∀ (stmt : Stmt) {scope : ScopeId}, o.New scope →
    ρ.Covers stmt.symbols →
      LowerBody.Concur ρ o (lowerStmt env scope stmt)
        (lowerStmt env scope (stmt.renameLocals ρ.map))
  | .block stmts span, scope, new, covered => by
    rw [Stmt.renameLocals, lowerStmt, lowerStmt]
    exact LowerBody.inScope_concur new fun inner new => lowerStmts_concur stmts new covered
  | .expression expr span, scope, new, covered => by
    rw [Stmt.renameLocals]
    exact expressionStatement_concur new expr span covered
  | .ifElse condition thenBranch elseBranch span, scope, new, covered => by
    rw [Stmt.symbols, Renaming.covers_append, Renaming.covers_append] at covered
    obtain ⟨⟨tested, first⟩, second⟩ := covered
    rw [Stmt.renameLocals, lowerStmt, lowerStmt]
    refine (lowerCondition_concur new tested).bind fun cond => ?_
    refine (emit_concur (appendBlock_blind _)).bind fun thenBlock => ?_
    refine (emit_concur (appendBlock_blind _)).bind fun elseBlock => ?_
    refine (emit_concur (appendBlock_blind _)).bind fun endBlock => ?_
    refine (emitUnit_concur (terminate_unnamed · _)).bind fun _ => ?_
    refine (lowerBranch_concur thenBlock endBlock
      (lowerStmt_concur thenBranch new first)).bind fun _ => ?_
    refine (lowerBranch_concur elseBlock endBlock
      (lowerOptional_concur elseBranch new second)).bind fun _ => ?_
    exact emitUnit_concur (positionAtEnd_unnamed · endBlock)
  | .ret value span, scope, new, covered => by
    rw [Stmt.renameLocals, lowerStmt, lowerStmt]
    exact lowerReturn_concur new covered span
  | .vars kind declarators span, scope, new, covered => by
    rw [Stmt.symbols, Renaming.covers_flatMap] at covered
    rw [Stmt.renameLocals, lowerStmt, lowerStmt]
    exact .forM fun decl member => lowerDeclarator_concur new kind (covered decl member)
  | .whileLoop .., scope, _, _ => by
    rw [Stmt.renameLocals, lowerStmt, lowerStmt]
    exact skip_concur _ _
  | .breakLoop .., scope, _, _ | .continueLoop .., scope, _, _ | .empty .., scope, _, _ => by
    rw [Stmt.renameLocals, lowerStmt]
    exact skip_concur _ _

theorem lowerOptional_concur : ∀ (stmt : Option Stmt) {scope : ScopeId}, o.New scope →
    ρ.Covers (Stmt.symbolsOptional stmt) →
      LowerBody.Concur ρ o (lowerOptional env scope stmt)
        (lowerOptional env scope (Stmt.renameLocalsOptional ρ.map stmt))
  | none, scope, _, _ => by
    rw [Stmt.renameLocalsOptional, lowerOptional]
    exact .pure _
  | some stmt, scope, new, covered => by
    rw [Stmt.renameLocalsOptional, lowerOptional, lowerOptional]
    exact lowerStmt_concur stmt new covered

theorem lowerStmts_concur : ∀ (stmts : List Stmt) {scope : ScopeId}, o.New scope →
    ρ.Covers (Stmt.symbolsAll stmts) →
      LowerBody.Concur ρ o (lowerStmts env scope stmts)
        (lowerStmts env scope (Stmt.renameLocalsAll ρ.map stmts))
  | [], scope, _, _ => by
    rw [Stmt.renameLocalsAll, lowerStmts]
    exact .pure _
  | stmt :: rest, scope, new, covered => by
    rw [Stmt.symbolsAll, Renaming.covers_append] at covered
    rw [Stmt.renameLocalsAll, lowerStmts, lowerStmts, Stmt.span_renameLocals,
      Stmt.length_renameLocalsAll]
    refine builder_bind_concur fun b c same => ?_
    have closed : c.isTerminated = b.isTerminated :=
      Builder.view_eq same (·.isTerminated) fun _ => rfl
    rw [closed]
    split
    · exact outside_concur (Lower.log_concur _)
    · refine (lowerStmt_concur stmt new covered.1).bind fun _ => ?_
      exact lowerStmts_concur rest new covered.2

end

/-! ## Function bodies -/

theorem bindParams_concur {scope : ScopeId} (new : o.New scope) : ∀ {params : List Param},
    (∀ param ∈ params, ρ.Covers param.symbols) → ∀ values,
      LowerBody.Concur ρ o (bindParams env scope params values)
        (bindParams env scope (params.map (·.renameLocals ρ.map)) values)
  | [], _, _ => .pure _
  | _ :: _, _, [] => .pure _
  | param :: params, covered, value :: values => by
    rw [List.forall_mem_cons, Param.symbols, Renaming.covers_cons] at covered
    rw [List.map_cons, bindParams, bindParams]
    refine (LowerBody.nameValue_concur _ _ _).bind fun _ => ?_
    refine (bindOutside_concur new covered.1.1 (direct_ne_namespace _)).bind fun _ => ?_
    exact bindParams_concur new covered.2 values

theorem sealBody_concur (span : FileSpan) :
    LowerBody.Concur ρ o (sealBody span) (sealBody span) := by
  refine builder_bind_concur fun b c same => ?_
  have current : c.current = b.current := Builder.view_eq same (·.current) fun _ => rfl
  have ends : c.hasTerminator = b.hasTerminator :=
    Builder.view_eq same (·.hasTerminator) fun _ => rfl
  have returns : c.returnTy = b.returnTy := Builder.view_eq same (·.returnTy) fun _ => rfl
  have reaches : c.function.reachable = b.function.reachable :=
    Builder.view_eq same (·.function.reachable) fun b => b.function.reachable_unnamed
  have name : c.function.name = b.function.name :=
    Builder.view_eq same (·.function.name) fun _ => rfl
  simp only [current, ends, returns, reaches, name]
  split
  · exact .pure _
  · split
    · exact .pure _
    · split
      · exact emitUnit_concur (terminate_unnamed · _)
      · split
        · exact (outside_concur (Lower.warn_concur _)).bind fun _ =>
            emitUnit_concur (terminate_unnamed · _)
        · exact emitUnit_concur (terminate_unnamed · _)

/-- From states that are twins, the body of a function is lowered alike. -/
theorem buildBody_concurs {s t : BodyState} (twins : s.Twins ρ o t) {scope : ScopeId}
    (seen : ∀ e ∈ s.context.scopes.chain scope, o.Visible e) {decl : FunctionDecl}
    (params : ∀ param ∈ decl.params, ρ.Covers param.symbols) {stmts : List Stmt}
    (body : ρ.Covers (Stmt.symbolsAll stmts)) :
    Concurs (BodyState.Twins ρ o) (buildBody env scope decl stmts s)
      (buildBody env scope (decl.renameLocals ρ.map) (Stmt.renameLocalsAll ρ.map stmts) t) := by
  refine (LowerBody.inScope_concurs twins seen fun inner new => ?_).bind fun _ =>
    sealBody_concur decl.span
  refine builder_bind_concur fun b c same => ?_
  have values : c.function.params = b.function.params :=
    Builder.view_eq same (·.function.params) fun _ => rfl
  rw [values]
  refine (bindParams_concur new params b.function.params).bind fun _ => ?_
  refine (emit_concur (appendBlock_blind _)).bind fun entry => ?_
  refine (emitUnit_concur (positionAtEnd_unnamed · entry)).bind fun _ => ?_
  exact lowerStmts_concur stmts new body

/-! ## Declarations -/

variable {cx : Context} {scope : ScopeId} {decl : FunctionDecl} {σ : Symbol → Symbol}

/-- A header does not depend on the names of parameters. -/
theorem header_renameLocals {signature : FunctionTy} {linkage : String} :
    Header env scope (decl.renameLocals σ) cx signature linkage ↔
      Header env scope decl cx signature linkage := by
  have typed : (decl.renameLocals σ).signature? env.types env.symbols = .ok signature ↔
      decl.signature? env.types env.symbols = .ok signature := by
    rw [signature?_ok, signature?_ok]
    constructor
    · intro has
      exact ⟨has.ret, List.forall₂_map_left_iff.1 has.params⟩
    · intro has
      exact ⟨has.ret, List.forall₂_map_left_iff.2 has.params⟩
  constructor
  · intro header
    exact ⟨typed.1 header.typed, header.inside, header.linked, header.free⟩
  · intro header
    exact ⟨typed.2 header.typed, header.inside, header.linked, header.free⟩

/-- Two contexts behind `cx` with one more function each, which differ in the names of its
values at most. -/
structure Context.InstallAlike (cx a b : Context) : Prop where
  function : ∃ f g : Function, a.module.functions = cx.module.functions ++ [f] ∧
    b.module = { a.module with functions := cx.module.functions ++ [g] } ∧
    g.unnamed = f.unnamed
  frames : ∀ other, cx.scopes.contains other → b.scopes.frame? other = a.scopes.frame? other
  diagnostics : b.diagnostics = a.diagnostics
  journal : b.journal = a.journal

theorem Context.installAlike_declare (name : Symbol) (f : Function) :
    cx.InstallAlike (cx.declare scope name f) (cx.declare scope name f) where
  function := ⟨f, f, rfl, rfl, rfl⟩
  frames := fun _ _ => rfl
  diagnostics := rfl
  journal := rfl

theorem Context.InstallAlike.log {a b : Context} (alike : cx.InstallAlike a b) (event : Event) :
    cx.InstallAlike (a.log event) (b.log event) where
  function := alike.function
  frames := alike.frames
  diagnostics := alike.diagnostics
  journal := congrArg (· ++ [event]) alike.journal

/-- Taking back what was refused does not make it succeed. -/
theorem Concurs.orUndo {Alike : Context → Context → Prop} {work work' : Lower Unit}
    {undo undo' : LowerError → Lower Unit} {a b : Context}
    (run : Concurs Alike (work a) (work' b)) :
    Concurs Alike (work.orUndo undo a) (work'.orUndo undo' b) := by
  have fails (x : Lower Unit) (undo : LowerError → Lower Unit) {cx after : Context}
      {failure : Failure LowerError} (refused : x cx = .error failure after) :
      ∃ failure' cx', x.orUndo undo cx = .error failure' cx' := by
    rw [Lower.orUndo, refused]
    cases failure with
    | fault fault => exact ⟨_, _, rfl⟩
    | refused cause =>
      dsimp only
      cases undo cause after <;> exact ⟨_, _, rfl⟩
  generalize first : work a = r, second : work' b = r' at run
  cases run with
  | ok alike =>
    rw [Lower.orUndo, Lower.orUndo, first, second]
    exact .ok alike
  | error =>
    obtain ⟨failure, left, run⟩ := fails work undo first
    obtain ⟨failure', right, run'⟩ := fails work' undo' second
    rw [run, run']
    exact .error

/-- The symbols of a function under other names of its locals. -/
def FunctionDecl.renaming (decl : FunctionDecl) (σ : Symbol → Symbol)
    (apart : Set.InjOn σ {x | x ∈ decl.symbols}) : Renaming :=
  ⟨σ, {x | x ∈ decl.symbols}, apart⟩

/-- A frame around the body of a function binds a name; the function's own is one of them. -/
def Context.BindsAround (cx : Context) (scope : ScopeId) (decl : FunctionDecl) (x : Symbol) :
    Prop :=
  x = decl.name ∨ (cx.scopes.resolve scope x).isSome

instance (cx : Context) (scope : ScopeId) (decl : FunctionDecl) (x : Symbol) :
    Decidable (cx.BindsAround scope decl x) :=
  inferInstanceAs (Decidable (_ ∨ _))

/-- What there is around the body of a declared function. -/
def Context.outside (cx : Context) (scope : ScopeId) : Outside :=
  ⟨cx.scopes.frames.length, cx.scopes.chain scope⟩

section

variable (apart : Set.InjOn σ {x | x ∈ decl.symbols})
  (free : ∀ x ∈ decl.symbols, σ x ≠ x →
    ¬ cx.BindsAround scope decl x ∧ ¬ cx.BindsAround scope decl (σ x))

include free

/-- Around the body a name and its replacement mean the same: nothing, unless they are one. -/
theorem lookups_declare (f : Function) {e : ScopeId} (around : e ∈ cx.scopes.chain scope)
    {x : Symbol} (used : x ∈ decl.symbols) :
    (cx.declare scope decl.name f).scopes.lookupIn e (σ x) =
      (cx.declare scope decl.name f).scopes.lookupIn e x := by
  by_cases moved : σ x = x
  · rw [moved]
  · obtain ⟨unbound, unbound'⟩ := free x used moved
    simp only [Context.BindsAround, not_or, Option.not_isSome_iff_eq_none, ScopeTable.resolve,
      List.findSome?_eq_none_iff] at unbound unbound'
    rw [Context.declare, ScopeTable.lookupIn_assign, ScopeTable.lookupIn_assign,
      if_neg fun all => unbound'.1 all.2.2, if_neg fun all => unbound.1 all.2.2,
      unbound.2 e around, unbound'.2 e around]

include apart

/-- The two bodies are begun in one state, which is its own twin. -/
theorem Context.Sound.begun_twins (sound : cx.Sound) (f : Function) :
    (cx.begun scope decl.name f).Twins (decl.renaming σ apart)
      ((cx.declare scope decl.name f).outside scope) (cx.begun scope decl.name f) := by
  have scopes : (cx.declare scope decl.name f).scopes.Twins (decl.renaming σ apart)
      ((cx.declare scope decl.name f).outside scope) (cx.declare scope decl.name f).scopes := by
    apply ScopeTable.Twins.refl
    · intro e around x used
      rw [ScopeTable.chain, Context.declare, ScopeTable.enclosing_assign] at around
      exact lookups_declare free f around used
    · intro e x inner here
      have standing := sound.standing_declare decl.name f here
      obtain ⟨given, named⟩ := Option.isSome_iff_exists.1 standing
      exact ScopeTable.contains_of_name? named
  exact ⟨⟨rfl, scopes, rfl, rfl⟩, rfl⟩

/-- The two bodies are verified and installed alike. -/
theorem lowerBody_concurs (sound : cx.Sound) {signature : FunctionTy} {linkage : String}
    (header : Header env scope decl cx signature linkage) {body : Body}
    (present : decl.body = some body) :
    Concurs cx.InstallAlike
      (lowerBody env scope ⟨cx.module.functions.length⟩ decl body.stmts
        (cx.declare scope decl.name (.declare linkage signature)))
      (lowerBody env scope ⟨cx.module.functions.length⟩ (decl.renameLocals σ)
        (Stmt.renameLocalsAll σ body.stmts)
        (cx.declare scope decl.name (.declare linkage signature))) := by
  let ρ := decl.renaming σ apart
  have twins := sound.begun_twins apart free (.declare linkage signature)
  have covered : ρ.Covers decl.symbols := fun x member => member
  simp only [FunctionDecl.symbols, present, Option.elim_some, Renaming.covers_append,
    Renaming.covers_cons, Renaming.covers_flatMap] at covered
  obtain ⟨⟨⟨-, params⟩, -⟩, stmts⟩ := covered
  have ends : Concurs (BodyState.Twins ρ _) (buildBody env scope decl body.stmts _)
      (buildBody env scope (decl.renameLocals σ) (Stmt.renameLocalsAll σ body.stmts) _) :=
    buildBody_concurs twins (fun e => Or.inr) params stmts
  rw [lowerBody_run, lowerBody_run]
  generalize first : buildBody env scope decl body.stmts _ = r at ends ⊢
  generalize second : buildBody env scope (decl.renameLocals σ) _ _ = r' at ends ⊢
  cases ends with
  | error => exact .error
  | @ok _ s t after =>
    have header' : Header env scope (decl.renameLocals σ) cx signature linkage :=
      header_renameLocals.2 header
    obtain ⟨-, done, -⟩ := building_ok sound header first
    obtain ⟨-, done', -⟩ := building_ok sound header' second
    have unnamed : t.builder.function.unnamed = s.builder.function.unnamed :=
      congrArg (·.function) after.builder
    have verdict : t.builder.function.verify t.context.module =
        s.builder.function.verify s.context.module := by
      rw [← Function.verify_unnamed, unnamed, Function.verify_unnamed, after.context.module]
    simp only [verdict]
    cases s.builder.function.verify s.context.module with
    | error defect => exact .error
    | ok passed =>
      simp only [define_built done, define_built done']
      refine .ok ⟨⟨_, t.builder.function, rfl, ?_, unnamed⟩, fun other old => ?_,
        after.context.diagnostics, after.context.journal⟩
      · rw [after.context.module]
      · apply after.context.scopes.old
        have within := (Context.gains_declare header.inside decl.name
          (.declare linkage signature)).contains other old
        exact Nat.not_le.2 (ScopeTable.contains_iff.1 within)

end

/-- Names of parameters and variables do not influence the code.  Let some of them be replaced,
so that different names of the function stay different, and let no frame around its body bind an
old or a new one.  Then both functions are lowered, or neither is; and if they are, they are
installed with one signature and one body up to the names of values, with the same constants
and warnings, and every scope that there was before is the same. -/
theorem Context.Reached.renames_locals (reached : cx.Reached) (env : Environment)
    (scope : ScopeId) {decl : FunctionDecl} {σ : Symbol → Symbol}
    (apart : Set.InjOn σ {x | x ∈ decl.symbols})
    (free : ∀ x ∈ decl.symbols, σ x ≠ x →
      ¬ cx.BindsAround scope decl x ∧ ¬ cx.BindsAround scope decl (σ x)) :
    Concurs cx.InstallAlike (lowerFunction env scope decl cx)
      (lowerFunction env scope (decl.renameLocals σ) cx) := by
  by_cases headed : ∃ signature linkage, Header env scope decl cx signature linkage
  · obtain ⟨signature, linkage, header⟩ := headed
    rw [lowerFunction_header header, lowerFunction_header (header_renameLocals.2 header)]
    cases present : decl.body with
    | none =>
      simp only [FunctionDecl.renameLocals, present, Option.map_none]
      exact .ok (Context.installAlike_declare _ _)
    | some body =>
      simp only [FunctionDecl.renameLocals, present, Option.map_some]
      refine Concurs.bind (Concurs.orUndo ?_) fun _ a b alike => .ok (alike.log _)
      exact lowerBody_concurs apart free reached.sound header present
  · simp only [not_exists] at headed
    obtain ⟨failure, cx', run, -, -⟩ := lowerFunction_unheaded env scope decl cx headed
    obtain ⟨failure', cx'', run', -, -⟩ := lowerFunction_unheaded env scope (decl.renameLocals σ) cx
      fun signature linkage header => headed signature linkage (header_renameLocals.1 header)
    rw [run, run']
    exact .error

namespace Sample

/-- `let y = x; { const y = y } return y`, where the inner `y` is another one -/
def nested : FunctionDecl :=
  function [declare .let_ x, .block [declare .const y] .unplaced, .ret (some y) .unplaced]

/-- Every symbol but that of `f` makes way for one that no table of a sample knows. -/
def aside (x : Symbol) : Symbol := ⟨if x.key = 0 then 0 else x.key + 6⟩

end Sample

theorem Context.Reached.renames_locals_sample :
    (Context.initial "m").Reached ∧ Set.InjOn Sample.aside {x | x ∈ Sample.nested.symbols} ∧
      (∀ x ∈ Sample.nested.symbols, Sample.aside x ≠ x →
        ¬ (Context.initial "m").BindsAround ScopeTable.global Sample.nested x ∧
        ¬ (Context.initial "m").BindsAround ScopeTable.global Sample.nested (Sample.aside x)) ∧
      ∃ a b, lowerFunction Sample.standard ScopeTable.global Sample.nested (.initial "m") =
          .ok () a ∧
        lowerFunction Sample.standard ScopeTable.global (Sample.nested.renameLocals Sample.aside)
          (.initial "m") = .ok () b ∧
        (Context.initial "m").InstallAlike a b := by
  have reached : (Context.initial "m").Reached := Lowered.initial.reached
  have apart : Set.InjOn Sample.aside {x | x ∈ Sample.nested.symbols} := by
    intro x _ y _ same
    rw [Sample.aside, Sample.aside, Symbol.mk.injEq] at same
    cases x; cases y
    simp only [Symbol.mk.injEq] at same ⊢
    split at same <;> split at same <;> omega
  have free : ∀ x ∈ Sample.nested.symbols, Sample.aside x ≠ x →
      ¬ (Context.initial "m").BindsAround ScopeTable.global Sample.nested x ∧
      ¬ (Context.initial "m").BindsAround ScopeTable.global Sample.nested (Sample.aside x) := by
    decide
  refine ⟨reached, apart, free, ?_⟩
  have lowered : ((lowerFunction Sample.standard ScopeTable.global Sample.nested).finished?
      (.initial "m")).isSome := by cbv
  obtain ⟨a, finished⟩ := Option.isSome_iff_exists.1 lowered
  have first := Lower.ok_of_finished finished
  have ends := reached.renames_locals Sample.standard ScopeTable.global apart free
  obtain ⟨b, second, alike⟩ := ends.of_ok first
  exact ⟨a, b, first, second, alike⟩

end SsaLowering
