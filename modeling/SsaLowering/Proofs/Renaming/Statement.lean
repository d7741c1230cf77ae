/-
# SsaLowering.Proofs.Renaming.Statement -- function bodies under other symbols

Two environments mirror each other when corresponding symbols have one text and
corresponding types one image (`Environment.Mirrors`).  Under such environments an
expression and its renamed copy are lowered alike (`lowerExpr_mirrors`), and so are
statements (`lowerStmt_mirrors`): names are shown by their texts, looked up in
scopes that mirror each other, and otherwise handed on.
-/
import SsaLowering.Proofs.Lower.Statement
import SsaLowering.Proofs.Renaming.Mirror
import SsaLowering.Proofs.Renaming.Tree

namespace SsaLowering

set_option autoImplicit false

open Ir (Ty BlockId Operand)
open LowerBody (refuse_mirrors emit_mirrors emitUnit_mirrors operandTy_mirrors outside_mirrors
  builder_mirrors)

/-- Corresponding symbols have one text, and corresponding types one image. -/
structure Environment.Mirrors (ρ : Renaming) (env env' : Environment) : Prop where
  texts : ∀ x ∈ ρ.used, env'.symbols.resolve? (ρ.map x) = env.symbols.resolve? x
  types : ∀ ty : TypeRef, ρ.Covers ty.symbols →
    env'.types.resolve (ty.rename ρ.map) = env.types.resolve ty
  stringTy : env'.types.stringTy = env.types.stringTy
  mangler : env'.mangler = env.mangler

variable {ρ : Renaming} {env env' : Environment}

namespace Environment.Mirrors

variable (envs : env.Mirrors ρ env')

include envs

theorem name {x : Symbol} (used : x ∈ ρ.used) : env'.name (ρ.map x) = env.name x := by
  rw [Environment.name, Environment.name, SymbolTable.display, SymbolTable.display,
    envs.texts x used]

theorem describe : ∀ (expr : Expr), ρ.Covers expr.symbols →
    (expr.rename ρ.map).describe env' = expr.describe env
  | .identifier name _, covered => by
    rw [Expr.symbols, Renaming.covers_cons] at covered
    exact envs.name covered.1
  | .member object property _, covered => by
    rw [Expr.symbols, Renaming.covers_cons] at covered
    simp only [Expr.rename, Expr.describe, describe object covered.2, envs.name covered.1]
  | .call .., _ | .binary .., _ | .unary .., _ | .bool .., _ | .number .., _ | .string .., _
  | .null .., _ | .array .., _ | .index .., _ => by
    simp only [Expr.rename, Expr.describe, Expr.kind]

end Environment.Mirrors

/-! ## Expressions -/

theorem read_mirrors (value : ExprValue) : LowerBody.Mirrors ρ value.read value.read := by
  cases value with
  | direct operand => exact .pure operand
  | slot home => exact (emit_mirrors _).bind fun _ => .pure _

theorem toExprValue_mirrors (bound : BoundValue) (name : String) (span : FileSpan) :
    LowerBody.Mirrors ρ (bound.toExprValue name span) (bound.toExprValue name span) := by
  cases bound with
  | direct operand => exact .pure _
  | slot home => exact .pure _
  | namespace_ inner => exact refuse_mirrors _

section

variable (envs : env.Mirrors ρ env')

include envs

theorem lowerIdentifier_mirrors (scope : ScopeId) {name : Symbol} (used : name ∈ ρ.used)
    (span : FileSpan) :
    LowerBody.Mirrors ρ (lowerIdentifier env scope name span)
      (lowerIdentifier env' scope (ρ.map name) span) := by
  refine (LowerBody.resolve_mirrors scope used).bind fun found => ?_
  cases found with
  | none =>
    rw [envs.name used]
    exact refuse_mirrors _
  | some bound =>
    rw [envs.name used]
    exact toExprValue_mirrors bound _ span

theorem lowerMember_mirrors (scope : ScopeId) (object : Expr) {property : Symbol}
    (covered : ρ.Covers object.symbols) (used : property ∈ ρ.used) (span : FileSpan) :
    LowerBody.Mirrors ρ (lowerMember env scope object property span)
      (lowerMember env' scope (object.rename ρ.map) (ρ.map property) span) := by
  cases object with
  | identifier name nameSpan =>
    rw [Expr.symbols, Renaming.covers_cons] at covered
    simp only [Expr.rename, lowerMember]
    refine (LowerBody.resolve_mirrors scope covered.1).bind fun found => ?_
    rw [envs.name covered.1, envs.name used]
    rcases found with _ | operand | home | inner
    · exact refuse_mirrors _
    · exact refuse_mirrors _
    · exact refuse_mirrors _
    · refine (LowerBody.lookupIn_mirrors inner used).bind fun member => ?_
      cases member with
      | none => exact refuse_mirrors _
      | some bound => exact toExprValue_mirrors bound _ span
  | _ =>
    simp only [Expr.rename, lowerMember, Expr.kind]
    exact refuse_mirrors _

theorem lowerString_mirrors (value : String) (span : FileSpan) :
    LowerBody.Mirrors ρ (lowerString env value span) (lowerString env' value span) := by
  unfold lowerString
  rw [envs.stringTy]
  split
  · refine LowerBody.check_mirrors _ _ ?_
    exact (outside_mirrors (Lower.onModule_mirrors _)).bind fun id => .pure _
  · exact refuse_mirrors _

theorem callTarget_mirrors {callee : Expr} (covered : ρ.Covers callee.symbols)
    (value : ExprValue) :
    LowerBody.Mirrors ρ (callTarget env callee value)
      (callTarget env' (callee.rename ρ.map) value) := by
  unfold callTarget
  rw [envs.describe callee covered, Expr.span_rename]
  split
  · refine LowerBody.context_bind_mirrors fun cx cx' alike => ?_
    rw [alike.module]
    split
    · exact .pure _
    · exact refuse_mirrors _
  · exact refuse_mirrors _

theorem lowerCall_mirrors {callee : Expr} (covered : ρ.Covers callee.symbols)
    (value : ExprValue) (found : Nat) {args args' : List Ty → LowerBody (List Operand)}
    (arguments : ∀ params, LowerBody.Mirrors ρ (args params) (args' params))
    (span : FileSpan) :
    LowerBody.Mirrors ρ (lowerCall env callee value found args span)
      (lowerCall env' (callee.rename ρ.map) value found args' span) := by
  unfold lowerCall
  refine (callTarget_mirrors envs covered value).bind fun target => ?_
  rw [envs.describe callee covered]
  refine LowerBody.check_mirrors _ _ ?_
  refine (arguments target.2.params).bind fun operands => ?_
  exact (emit_mirrors _).map _

end

/-- What may be assigned to, and how it is named otherwise, follows from its shape. -/
theorem assignmentTarget_rename (envs : env.Mirrors ρ env') {target : Expr}
    (covered : ρ.Covers target.symbols) (value : ExprValue) :
    assignmentTarget env' (target.rename ρ.map) value = assignmentTarget env target value := by
  have shown := envs.describe target covered
  cases value with
  | slot home => rfl
  | direct operand =>
    cases target <;> cases operand <;>
      simp only [Expr.rename, assignmentTarget, Expr.kind, Expr.span] at shown ⊢ <;> rw [shown]

theorem assignmentTarget_mirrors (target : Expr) (value : ExprValue) :
    LowerBody.Mirrors ρ (assignmentTarget env target value)
      (assignmentTarget env target value) := by
  unfold assignmentTarget
  split
  · exact .pure _
  all_goals exact refuse_mirrors _

theorem assign_mirrors (home : StackSlot) (stored : Operand) (span : FileSpan) :
    LowerBody.Mirrors ρ (assign home stored span) (assign home stored span) :=
  (operandTy_mirrors stored).bind fun _ => LowerBody.check_mirrors _ _
    ((emitUnit_mirrors _).bind fun _ => .pure _)

theorem add_mirrors (left right : Operand) (span : FileSpan) :
    LowerBody.Mirrors ρ (add left right span) (add left right span) :=
  (operandTy_mirrors left).bind fun _ => (operandTy_mirrors right).bind fun _ =>
    LowerBody.check_mirrors _ _ ((emit_mirrors _).bind fun _ => .pure _)

theorem checkArgument_mirrors (operand : Operand) (expected : Ty) (span : FileSpan) :
    LowerBody.Mirrors ρ (checkArgument operand expected span)
      (checkArgument operand expected span) := by
  refine (operandTy_mirrors operand).bind fun found => ?_
  split
  · exact refuse_mirrors _
  · exact .pure _

mutual

/-- An expression and its renamed copy are lowered alike. -/
theorem lowerExpr_mirrors (envs : env.Mirrors ρ env') (scope : ScopeId) : ∀ (expr : Expr),
    ρ.Covers expr.symbols →
      LowerBody.Mirrors ρ (lowerExpr env scope expr) (lowerExpr env' scope (expr.rename ρ.map))
  | .identifier name span, covered => by
    rw [Expr.symbols, Renaming.covers_cons] at covered
    rw [Expr.rename, lowerExpr, lowerExpr]
    exact lowerIdentifier_mirrors envs scope covered.1 span
  | .member object property span, covered => by
    rw [Expr.symbols, Renaming.covers_cons] at covered
    rw [Expr.rename, lowerExpr, lowerExpr]
    exact lowerMember_mirrors envs scope object covered.2 covered.1 span
  | .call callee args span, covered => by
    rw [Expr.symbols, Renaming.covers_append] at covered
    rw [Expr.rename, lowerExpr, lowerExpr, Expr.length_renameAll, envs.describe callee covered.1]
    refine (lowerExpr_mirrors envs scope callee covered.1).bind fun target => ?_
    refine (lowerCall_mirrors envs covered.1 target args.length
      (lowerArgs_mirrors envs scope args covered.2) span).bind fun result => ?_
    cases result with
    | none => exact refuse_mirrors _
    | some operand => exact .pure _
  | .binary op lhs rhs span, covered => by
    rw [Expr.symbols, Renaming.covers_append] at covered
    rw [Expr.rename]
    have left := lowerExpr_mirrors envs scope lhs covered.1
    have right := lowerExpr_mirrors envs scope rhs covered.2
    cases op with
    | assign =>
      rw [lowerExpr, lowerExpr, Expr.span_rename]
      refine left.bind fun target => ?_
      rw [assignmentTarget_rename envs covered.1]
      refine (assignmentTarget_mirrors lhs target).bind fun home => ?_
      refine right.bind fun value => (read_mirrors value).bind fun stored => ?_
      exact assign_mirrors home stored rhs.span
    | add =>
      rw [lowerExpr, lowerExpr]
      refine left.bind fun value => (read_mirrors value).bind fun first => ?_
      refine right.bind fun value => (read_mirrors value).bind fun second => ?_
      exact add_mirrors first second span
    | _ =>
      -- any other operator is refused before its operands are looked at
      rw [lowerExpr, lowerExpr]
      · exact refuse_mirrors _
      all_goals simp
  | .bool literal span, _ => by
    rw [Expr.rename, lowerExpr, lowerExpr]
    exact .pure _
  | .number literal span, _ => by
    rw [Expr.rename, lowerExpr, lowerExpr]
    exact .pure _
  | .string text span, _ => by
    rw [Expr.rename, lowerExpr, lowerExpr]
    exact lowerString_mirrors envs text span
  | .unary .., _ | .null .., _ | .array .., _ | .index .., _ => by
    rw [Expr.rename, lowerExpr, lowerExpr]
    exact refuse_mirrors _

theorem lowerArgs_mirrors (envs : env.Mirrors ρ env') (scope : ScopeId) : ∀ (args : List Expr),
    ρ.Covers (Expr.symbolsAll args) → ∀ params,
      LowerBody.Mirrors ρ (lowerArgs env scope args params)
        (lowerArgs env' scope (Expr.renameAll ρ.map args) params)
  | [], _, params => by
    rw [Expr.renameAll, lowerArgs, lowerArgs]
    · exact .pure _
    all_goals simp
  | arg :: args, _, [] => by
    rw [Expr.renameAll, lowerArgs, lowerArgs]
    · exact .pure _
    all_goals simp
  | arg :: args, covered, param :: params => by
    rw [Expr.symbolsAll, Renaming.covers_append] at covered
    rw [Expr.renameAll, lowerArgs, lowerArgs, Expr.span_rename]
    refine (lowerExpr_mirrors envs scope arg covered.1).bind fun value => ?_
    refine (read_mirrors value).bind fun operand => ?_
    refine (checkArgument_mirrors operand param arg.span).bind fun _ => ?_
    exact (lowerArgs_mirrors envs scope args covered.2 params).bind fun _ => .pure _

end

section

variable (envs : env.Mirrors ρ env')

include envs

/-! ## Variables -/

theorem lowerInitializer_mirrors (scope : ScopeId) (declared : Option Ty) {expr : Expr}
    (covered : ρ.Covers expr.symbols) :
    LowerBody.Mirrors ρ (lowerInitializer env scope declared expr)
      (lowerInitializer env' scope declared (expr.rename ρ.map)) := by
  unfold lowerInitializer
  rw [Expr.span_rename]
  refine (lowerExpr_mirrors envs scope expr covered).bind fun value => ?_
  refine (read_mirrors value).bind fun operand => ?_
  refine (operandTy_mirrors operand).bind fun found => ?_
  cases declared with
  | none => exact .pure _
  | some expected => exact LowerBody.check_mirrors _ _ (.pure _)

theorem bindConstant_mirrors (scope : ScopeId) {decl : Declarator} (used : decl.name ∈ ρ.used)
    (init : Option (Operand × Ty)) :
    LowerBody.Mirrors ρ (bindConstant env scope decl init)
      (bindConstant env' scope (decl.rename ρ.map) init) := by
  unfold bindConstant
  simp only [Declarator.rename, envs.name used]
  rcases init with _ | ⟨operand, ty⟩
  · exact refuse_mirrors _
  · have bound := outside_mirrors (Lower.bind_mirrors scope used (.direct operand))
    dsimp only
    split
    · exact (emit_mirrors _).discard.bind fun _ => bound.discard
    · exact bound.discard

theorem bindVariable_mirrors (scope : ScopeId) {decl : Declarator} (used : decl.name ∈ ρ.used)
    (declared : Option Ty) (init : Option (Operand × Ty)) :
    LowerBody.Mirrors ρ (bindVariable env scope decl declared init)
      (bindVariable env' scope (decl.rename ρ.map) declared init) := by
  unfold bindVariable
  simp only [Declarator.rename, envs.name used]
  split
  · refine (emit_mirrors _).bind fun ptr => ?_
    have bound (ty : Ty) := outside_mirrors (Lower.bind_mirrors scope used (.slot ⟨ptr, ty⟩))
    cases init with
    | none => exact (bound _).discard
    | some given => exact (emitUnit_mirrors _).bind fun _ => (bound _).discard
  · exact refuse_mirrors _

theorem declaredTy_mirrors {decl : Declarator}
    (covered : ρ.Covers (decl.type.elim [] TypeRef.symbols)) :
    LowerBody.Mirrors ρ (declaredTy env decl) (declaredTy env' (decl.rename ρ.map)) := by
  unfold declaredTy
  simp only [Declarator.rename]
  generalize decl.type = type at covered ⊢
  cases type with
  | none => exact .pure _
  | some ty =>
    simp only [Option.map_some, envs.types ty covered]
    split
    · exact .pure _
    · exact refuse_mirrors _

theorem initialValue_mirrors (scope : ScopeId) (declared : Option Ty) {decl : Declarator}
    (covered : ρ.Covers (decl.init.elim [] Expr.symbols)) :
    LowerBody.Mirrors ρ (initialValue env scope declared decl)
      (initialValue env' scope declared (decl.rename ρ.map)) := by
  unfold initialValue
  simp only [Declarator.rename]
  generalize decl.init = init at covered ⊢
  cases init with
  | none => exact .pure _
  | some expr => exact (lowerInitializer_mirrors envs scope declared covered).map _

theorem lowerDeclarator_mirrors (scope : ScopeId) (kind : BindingKind) {decl : Declarator}
    (covered : ρ.Covers decl.symbols) :
    LowerBody.Mirrors ρ (lowerDeclarator env scope kind decl)
      (lowerDeclarator env' scope kind (decl.rename ρ.map)) := by
  rw [Declarator.symbols, Renaming.covers_append, Renaming.covers_cons] at covered
  obtain ⟨⟨used, typed⟩, initialised⟩ := covered
  rw [lowerDeclarator_eq, lowerDeclarator_eq]
  refine (declaredTy_mirrors envs typed).bind fun declared => ?_
  refine (initialValue_mirrors envs scope declared initialised).bind fun init => ?_
  split
  · exact bindVariable_mirrors envs scope used declared init
  · exact bindConstant_mirrors envs scope used init

/-! ## Control flow -/

theorem lowerReturn_mirrors (scope : ScopeId) {value : Option Expr}
    (covered : ρ.Covers (value.elim [] Expr.symbols)) (span : FileSpan) :
    LowerBody.Mirrors ρ (lowerReturn env scope value span)
      (lowerReturn env' scope (value.map (·.rename ρ.map)) span) := by
  refine builder_mirrors.bind fun b => ?_
  cases value with
  | none => exact LowerBody.check_mirrors _ _ (emitUnit_mirrors _)
  | some expr =>
    simp only [Option.map_some, Expr.span_rename]
    refine (lowerExpr_mirrors envs scope expr covered).bind fun value => ?_
    refine (read_mirrors value).bind fun returned => ?_
    refine (operandTy_mirrors returned).bind fun found => ?_
    exact LowerBody.check_mirrors _ _ (emitUnit_mirrors _)

theorem lowerCondition_mirrors (scope : ScopeId) {condition : Expr}
    (covered : ρ.Covers condition.symbols) :
    LowerBody.Mirrors ρ (lowerCondition env scope condition)
      (lowerCondition env' scope (condition.rename ρ.map)) := by
  unfold lowerCondition
  rw [Expr.kind_rename, Expr.span_rename]
  refine (lowerExpr_mirrors envs scope condition covered).bind fun value => ?_
  refine (read_mirrors value).bind fun operand => ?_
  refine (operandTy_mirrors operand).bind fun found => ?_
  exact LowerBody.check_mirrors _ _ (.pure _)

omit envs in
theorem lowerBranch_mirrors (start next : BlockId) {branch branch' : LowerBody Unit}
    (run : LowerBody.Mirrors ρ branch branch') :
    LowerBody.Mirrors ρ (lowerBranch start next branch) (lowerBranch start next branch') := by
  refine (emitUnit_mirrors _).bind fun _ => run.bind fun _ => builder_mirrors.bind fun b => ?_
  split
  · exact emitUnit_mirrors _
  · exact .pure _

omit envs in
theorem skip_mirrors (kind : SyntaxKind) (span : FileSpan) :
    LowerBody.Mirrors ρ (skip kind span) (skip kind span) :=
  outside_mirrors (Lower.warn_mirrors _)

/-- A call that stands as a statement may return nothing; any other expression is lowered
for its value. -/
theorem expressionStatement_mirrors (scope : ScopeId) (expr : Expr) (span : FileSpan)
    (covered : ρ.Covers expr.symbols) :
    LowerBody.Mirrors ρ (lowerStmt env scope (.expression expr span))
      (lowerStmt env' scope (.expression (expr.rename ρ.map) span)) := by
  cases expr with
  | call callee args callSpan =>
    rw [Expr.symbols, Renaming.covers_append] at covered
    rw [Expr.rename, lowerStmt, lowerStmt, Expr.length_renameAll]
    refine (lowerExpr_mirrors envs scope callee covered.1).bind fun target => ?_
    exact (lowerCall_mirrors envs covered.1 target args.length
      (lowerArgs_mirrors envs scope args covered.2) callSpan).discard
  | _ =>
    have lowered := lowerExpr_mirrors envs scope _ covered
    rw [Expr.rename] at lowered ⊢
    rw [lowerStmt, lowerStmt]
    · exact lowered.discard
    all_goals simp

end

/-! ## Statements -/

mutual

/-- A statement and its renamed copy are lowered alike. -/
theorem lowerStmt_mirrors (envs : env.Mirrors ρ env') : ∀ (stmt : Stmt) (scope : ScopeId),
    ρ.Covers stmt.symbols →
      LowerBody.Mirrors ρ (lowerStmt env scope stmt) (lowerStmt env' scope (stmt.rename ρ.map))
  | .block stmts span, scope, covered => by
    rw [Stmt.rename, lowerStmt, lowerStmt]
    exact LowerBody.inScope_mirrors scope fun inner =>
      lowerStmts_mirrors envs stmts inner covered
  | .expression expr span, scope, covered => by
    rw [Stmt.rename]
    exact expressionStatement_mirrors envs scope expr span covered
  | .ifElse condition thenBranch elseBranch span, scope, covered => by
    rw [Stmt.symbols, Renaming.covers_append, Renaming.covers_append] at covered
    obtain ⟨⟨tested, first⟩, second⟩ := covered
    rw [Stmt.rename, lowerStmt, lowerStmt]
    refine (lowerCondition_mirrors envs scope tested).bind fun cond => ?_
    refine (emit_mirrors _).bind fun thenBlock => (emit_mirrors _).bind fun elseBlock => ?_
    refine (emit_mirrors _).bind fun endBlock => (emitUnit_mirrors _).bind fun _ => ?_
    refine (lowerBranch_mirrors thenBlock endBlock
      (lowerStmt_mirrors envs thenBranch scope first)).bind fun _ => ?_
    refine (lowerBranch_mirrors elseBlock endBlock
      (lowerOptional_mirrors envs elseBranch scope second)).bind fun _ => ?_
    exact emitUnit_mirrors _
  | .ret value span, scope, covered => by
    rw [Stmt.rename, lowerStmt, lowerStmt]
    exact lowerReturn_mirrors envs scope covered span
  | .vars kind declarators span, scope, covered => by
    rw [Stmt.symbols, Renaming.covers_flatMap] at covered
    rw [Stmt.rename, lowerStmt, lowerStmt]
    exact .forM fun decl member => lowerDeclarator_mirrors envs scope kind (covered decl member)
  | .whileLoop .., scope, _ | .breakLoop .., scope, _ | .continueLoop .., scope, _
  | .empty .., scope, _ => by
    rw [Stmt.rename, lowerStmt, lowerStmt]
    exact skip_mirrors _ _

theorem lowerOptional_mirrors (envs : env.Mirrors ρ env') : ∀ (stmt : Option Stmt)
    (scope : ScopeId), ρ.Covers (Stmt.symbolsOptional stmt) →
      LowerBody.Mirrors ρ (lowerOptional env scope stmt)
        (lowerOptional env' scope (Stmt.renameOptional ρ.map stmt))
  | none, scope, _ => by
    rw [Stmt.renameOptional, lowerOptional, lowerOptional]
    exact .pure _
  | some stmt, scope, covered => by
    rw [Stmt.renameOptional, lowerOptional, lowerOptional]
    exact lowerStmt_mirrors envs stmt scope covered

theorem lowerStmts_mirrors (envs : env.Mirrors ρ env') : ∀ (stmts : List Stmt)
    (scope : ScopeId), ρ.Covers (Stmt.symbolsAll stmts) →
      LowerBody.Mirrors ρ (lowerStmts env scope stmts)
        (lowerStmts env' scope (Stmt.renameAll ρ.map stmts))
  | [], scope, _ => by
    rw [Stmt.renameAll, lowerStmts, lowerStmts]
    exact .pure _
  | stmt :: rest, scope, covered => by
    rw [Stmt.symbolsAll, Renaming.covers_append] at covered
    rw [Stmt.renameAll, lowerStmts, lowerStmts, Stmt.span_rename, Stmt.length_renameAll]
    refine builder_mirrors.bind fun b => ?_
    split
    · exact outside_mirrors (Lower.log_mirrors _)
    · refine (lowerStmt_mirrors envs stmt scope covered.1).bind fun _ => ?_
      exact lowerStmts_mirrors envs rest scope covered.2

end

end SsaLowering
