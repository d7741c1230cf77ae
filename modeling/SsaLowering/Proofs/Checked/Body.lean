/-
# SsaLowering.Proofs.Checked.Body -- no function body slips

Construct by construct, the checked lowering of expressions and statements is the lowering
itself, from every safe state in which the scope of the construct is there.  The scopes
that a construct meets are that one, those it enters, and those that a lookup leads to.
-/
import SsaLowering.Proofs.Checked.Lowering
import SsaLowering.Proofs.Checked.Safety

namespace SsaLowering.Checked

set_option autoImplicit false

open Ir (Ty BlockId ValueId Operand)
open Watch (nowhere)

variable {env : Environment} {within : List ScopeId} {scope : ScopeId}

/-! ## Expressions -/

theorem read_agrees (value : ExprValue) :
    env.bodies.Agrees within nowhere (read value) value.read := by
  cases value with
  | direct operand => exact .pure operand
  | slot home =>
    exact (emitValue_agrees fun f => Ir.Construction.checkAction_load_ne f _ _).andThen
      fun value => .pure _

theorem toExprValue_agrees (bound : BoundValue) (name : String) (span : FileSpan) :
    env.bodies.Agrees within nowhere (plain (bound.toExprValue name span))
      (bound.toExprValue name span) := by
  cases bound with
  | direct operand => exact .pure _
  | slot home => exact .pure _
  | namespace_ inner => exact .refuse _

theorem lowerIdentifier_agrees (inside : scope ∈ within) (name : Symbol) (span : FileSpan) :
    env.bodies.Agrees within nowhere (lowerIdentifier env scope name span)
      (SsaLowering.lowerIdentifier env scope name span) := by
  refine (resolve_agrees inside name).bind fun found => ?_
  cases found with
  | none => exact .refuse _
  | some bound => exact toExprValue_agrees bound _ span

/-- The scope of a namespace is there, since the name was found to be bound to it. -/
theorem lowerMember_agrees (inside : scope ∈ within) (object : Expr) (property : Symbol)
    (span : FileSpan) :
    env.bodies.Agrees within nowhere (lowerMember env scope object property span)
      (SsaLowering.lowerMember env scope object property span) := by
  cases object with
  | identifier name nameSpan =>
    refine (resolve_agrees inside name).bind fun found => ?_
    cases found with
    | none => exact .refuse _
    | some bound =>
      cases bound with
      | direct operand => exact .refuse _
      | slot home => exact .refuse _
      | namespace_ inner =>
        refine (lookupIn_agrees List.mem_cons_self property).andThen fun found => ?_
        cases found with
        | none => exact .refuse _
        | some bound => exact toExprValue_agrees bound _ span
  | _ => exact .refuse _

theorem callTarget_agrees (callee : Expr) (value : ExprValue) :
    env.bodies.Agrees within nowhere (plain (callTarget env callee value))
      (callTarget env callee value) := by
  unfold callTarget
  split
  · refine context_agrees.steps fun cx => ?_
    split
    · exact .pure _
    · exact .refuse _
  · exact .refuse _

theorem lowerCall_agrees (callee : Expr) (value : ExprValue) (found : Nat)
    {args : List Ty → Checked BodyState (List Operand)} {args' : List Ty → LowerBody (List Operand)}
    (arguments : ∀ tys, env.bodies.Agrees within nowhere (args tys) (args' tys)) (span : FileSpan) :
    env.bodies.Agrees within nowhere (lowerCall env callee value found args span)
      (SsaLowering.lowerCall env callee value found args' span) := by
  refine (callTarget_agrees callee value).andThen fun target => ?_
  obtain ⟨id, signature⟩ := target
  refine .check ((arguments signature.params).andThen fun operands => ?_)
  exact (emit_agrees _ _).andThen fun result => .pure _

theorem assignmentTarget_agrees (target : Expr) (value : ExprValue) :
    env.bodies.Agrees within nowhere (plain (assignmentTarget env target value))
      (assignmentTarget env target value) := by
  unfold assignmentTarget
  split
  · exact .pure _
  all_goals exact .refuse _

theorem assign_agrees (home : StackSlot) (stored : Operand) (span : FileSpan) :
    env.bodies.Agrees within nowhere (assign home stored span)
      (SsaLowering.assign home stored span) :=
  (operandTy_agrees stored).andThen fun _ =>
    .check ((store_agrees stored _).andThen fun _ => .pure _)

theorem add_agrees (left right : Operand) (span : FileSpan) :
    env.bodies.Agrees within nowhere (add left right span) (SsaLowering.add left right span) := by
  refine (operandTy_agrees left).andThen fun leftTy => ?_
  refine (operandTy_agrees right).andThen fun rightTy => .check ?_
  exact (emitValue_agrees fun f => Ir.Construction.checkAction_fadd_ne f _ _).andThen
    fun sum => .pure _

theorem lowerString_agrees (value : String) (span : FileSpan) :
    env.bodies.Agrees within nowhere (plain (lowerString env value span))
      (lowerString env value span) := by
  unfold lowerString
  split
  · exact .checkSteps ((outside_agrees (onModule_agrees _)).steps fun id => .pure _)
  · exact .refuse _

theorem checkArgument_agrees (operand : Operand) (expected : Ty) (span : FileSpan) :
    env.bodies.Agrees within nowhere (plain (checkArgument operand expected span))
      (checkArgument operand expected span) :=
  (operandTy_agrees operand).steps fun _ => .checkSteps (.pure _)

mutual

theorem lowerExpr_agrees (inside : scope ∈ within) :
    ∀ expr : Expr, env.bodies.Agrees within nowhere (lowerExpr env scope expr)
      (SsaLowering.lowerExpr env scope expr)
  | .identifier name span => lowerIdentifier_agrees inside name span
  | .member object property span => lowerMember_agrees inside object property span
  | .call callee args span => by
    rw [lowerExpr, SsaLowering.lowerExpr]
    refine (lowerExpr_agrees inside callee).andThen fun target => ?_
    refine (lowerCall_agrees callee target _ (lowerArgs_agrees inside args) span).andThen ?_
    intro result
    cases result with
    | none => exact .refuse _
    | some operand => exact .pure _
  | .binary .assign lhs rhs span => by
    rw [lowerExpr, SsaLowering.lowerExpr]
    refine (lowerExpr_agrees inside lhs).andThen fun target => ?_
    refine (assignmentTarget_agrees lhs target).andThen fun home => ?_
    refine (lowerExpr_agrees inside rhs).andThen fun value => ?_
    exact (read_agrees value).andThen fun stored => assign_agrees home stored _
  | .binary .add lhs rhs span => by
    rw [lowerExpr, SsaLowering.lowerExpr]
    refine (lowerExpr_agrees inside lhs).andThen fun left => ?_
    refine (read_agrees left).andThen fun l => ?_
    refine (lowerExpr_agrees inside rhs).andThen fun right => ?_
    exact (read_agrees right).andThen fun r => add_agrees l r span
  | .binary .sub _ _ _ | .binary .mul _ _ _ | .binary .div _ _ _ | .binary .lt _ _ _
  | .binary .gt _ _ _ | .binary .eq _ _ _ | .binary .ne _ _ _ | .binary .and _ _ _
  | .binary .or _ _ _ | .unary _ _ _ | .null _ | .array _ _ | .index _ _ _ => .refuse _
  | .bool _ _ | .number _ _ => .pure _
  | .string value span => lowerString_agrees value span

theorem lowerArgs_agrees (inside : scope ∈ within) :
    ∀ (args : List Expr) (tys : List Ty), env.bodies.Agrees within nowhere
      (lowerArgs env scope args tys) (SsaLowering.lowerArgs env scope args tys)
  | [], _ => .pure _
  | _ :: _, [] => .pure _
  | arg :: args, ty :: tys => by
    rw [lowerArgs, SsaLowering.lowerArgs]
    refine (lowerExpr_agrees inside arg).andThen fun value => ?_
    refine (read_agrees value).andThen fun operand => ?_
    refine (checkArgument_agrees operand ty _).andThen fun _ => ?_
    exact (lowerArgs_agrees inside args tys).andThen fun rest => .pure _

end

/-! ## Variables -/

theorem lowerInitializer_agrees (inside : scope ∈ within) (declared : Option Ty) (expr : Expr) :
    env.bodies.Agrees within nowhere (lowerInitializer env scope declared expr)
      (SsaLowering.lowerInitializer env scope declared expr) := by
  refine (lowerExpr_agrees inside expr).andThen fun value => ?_
  refine (read_agrees value).andThen fun operand => ?_
  refine (operandTy_agrees operand).andThen fun found => ?_
  cases declared with
  | none => exact .pure _
  | some expected => exact .check (.pure _)

/-- A variable that is bound to an operand or to a slot. -/
theorem bindLocal_agrees (inside : scope ∈ within) (name : Symbol) {value : BoundValue}
    (plain_ : innerScope (some value) = []) :
    env.bodies.Agrees within nowhere
      (discard <| plain (LowerBody.outside (Lower.bind scope name value)))
      (discard <| LowerBody.outside (Lower.bind scope name value)) := by
  refine (outside_agrees (bind_agrees inside name ?_)).discard
  rw [plain_]
  intro inner absent
  cases absent

theorem bindConstant_agrees (inside : scope ∈ within) (decl : Declarator)
    (init : Option (Operand × Ty)) :
    env.bodies.Agrees within nowhere (bindConstant env scope decl init)
      (SsaLowering.bindConstant env scope decl init) := by
  cases init with
  | none => exact .refuse _
  | some init =>
    obtain ⟨operand, ty⟩ := init
    rw [bindConstant, SsaLowering.bindConstant]
    dsimp only
    cases operand.value? with
    | none => exact bindLocal_agrees inside decl.name rfl
    | some value =>
      exact (nameValue_agrees value _).discard.andThen
        fun _ => bindLocal_agrees inside decl.name rfl

theorem bindVariable_agrees (inside : scope ∈ within) (decl : Declarator) (declared : Option Ty)
    (init : Option (Operand × Ty)) :
    env.bodies.Agrees within nowhere (bindVariable env scope decl declared init)
      (SsaLowering.bindVariable env scope decl declared init) := by
  rw [bindVariable, SsaLowering.bindVariable]
  dsimp only
  cases declared <|> init.map (·.2) with
  | none => exact .refuse _
  | some ty =>
    refine (alloca_agrees ty _).andThen fun ptr => ?_
    cases init with
    | none => exact bindLocal_agrees inside decl.name rfl
    | some init =>
      exact (store_agrees init.1 _).andThen fun _ => bindLocal_agrees inside decl.name rfl

theorem declaredTy_agrees (decl : Declarator) :
    env.bodies.Agrees within nowhere (plain (declaredTy env decl)) (declaredTy env decl) := by
  unfold declaredTy
  cases decl.type with
  | none => exact .pure _
  | some ty =>
    dsimp only
    cases env.types.resolve ty with
    | ok image => exact .pure _
    | error cause => exact .refuse _

theorem lowerDeclarator_agrees (inside : scope ∈ within) (kind : BindingKind) (decl : Declarator) :
    env.bodies.Agrees within nowhere (lowerDeclarator env scope kind decl)
      (SsaLowering.lowerDeclarator env scope kind decl) := by
  rw [lowerDeclarator_eq]
  refine (declaredTy_agrees decl).andThen fun declared => ?_
  have bound (init : Option (Operand × Ty)) : env.bodies.Agrees within nowhere
      (if kind.isMutable then bindVariable env scope decl declared init
        else bindConstant env scope decl init)
      (if kind.isMutable then SsaLowering.bindVariable env scope decl declared init
        else SsaLowering.bindConstant env scope decl init) := by
    cases kind.isMutable with
    | true => exact bindVariable_agrees inside decl declared init
    | false => exact bindConstant_agrees inside decl init
  unfold initialValue
  cases decl.init with
  | none => exact (Watch.Agrees.pure none).andThen bound
  | some expr => exact ((lowerInitializer_agrees inside declared expr).map some).andThen bound

/-! ## Control flow -/

theorem lowerReturn_agrees (inside : scope ∈ within) (value : Option Expr) (span : FileSpan) :
    env.bodies.Agrees within nowhere (lowerReturn env scope value span)
      (SsaLowering.lowerReturn env scope value span) := by
  refine builder_agrees.andThen fun b => ?_
  cases value with
  | none => exact .check (terminate_agrees _)
  | some expr =>
    refine (lowerExpr_agrees inside expr).andThen fun value => ?_
    refine (read_agrees value).andThen fun returned => ?_
    exact (operandTy_agrees returned).andThen fun found => .check (terminate_agrees _)

theorem lowerCondition_agrees (inside : scope ∈ within) (condition : Expr) :
    env.bodies.Agrees within nowhere (lowerCondition env scope condition)
      (SsaLowering.lowerCondition env scope condition) := by
  refine (lowerExpr_agrees inside condition).andThen fun value => ?_
  refine (read_agrees value).andThen fun operand => ?_
  exact (operandTy_agrees operand).andThen fun found => .check (.pure _)

theorem lowerBranch_agrees (start next : BlockId) {branch : Checked BodyState Unit}
    {branch' : LowerBody Unit} (agrees : env.bodies.Agrees within nowhere branch branch') :
    env.bodies.Agrees within nowhere (lowerBranch start next branch)
      (SsaLowering.lowerBranch start next branch') := by
  refine (positionAtEnd_agrees start).andThen fun _ => agrees.andThen fun _ => ?_
  refine builder_agrees.andThen fun b => ?_
  cases b.isTerminated with
  | true => exact .pure _
  | false => exact terminate_agrees _

theorem skip_agrees (kind : SyntaxKind) (span : FileSpan) :
    env.bodies.Agrees within nowhere (plain (skip kind span)) (skip kind span) :=
  outside_agrees (warn_agrees _)

theorem forM_agrees {α : Type} {work : α → Checked BodyState Unit} {work' : α → LowerBody Unit}
    (agrees : ∀ a, env.bodies.Agrees within nowhere (work a) (work' a)) :
    ∀ list : List α, env.bodies.Agrees within nowhere (list.forM work) (list.forM work')
  | [] => .pure _
  | a :: rest => (agrees a).andThen fun _ => forM_agrees agrees rest

/-- An expression that stands as a statement; a call among them may have no value. -/
theorem expression_agrees (inside : scope ∈ within) (expr : Expr) (span : FileSpan) :
    env.bodies.Agrees within nowhere (lowerStmt env scope (.expression expr span))
      (SsaLowering.lowerStmt env scope (.expression expr span)) := by
  cases expr with
  | call callee args callSpan =>
    rw [lowerStmt, SsaLowering.lowerStmt]
    refine (lowerExpr_agrees inside callee).andThen fun target => ?_
    exact (lowerCall_agrees callee target _ (lowerArgs_agrees inside args) _).discard
  | _ =>
    rw [lowerStmt, SsaLowering.lowerStmt]
    · exact (lowerExpr_agrees inside _).discard
    all_goals simp

mutual

theorem lowerStmt_agrees {within : List ScopeId} {scope : ScopeId} (inside : scope ∈ within) :
    ∀ stmt : Stmt, env.bodies.Agrees within nowhere (lowerStmt env scope stmt)
      (SsaLowering.lowerStmt env scope stmt)
  | .block stmts _ => by
    rw [lowerStmt, SsaLowering.lowerStmt]
    exact inScope_agrees inside fun inner => lowerStmts_agrees List.mem_cons_self stmts
  | .expression expr span => expression_agrees inside expr span
  | .ifElse condition thenBranch elseBranch span => by
    rw [lowerStmt, SsaLowering.lowerStmt]
    refine (lowerCondition_agrees inside condition).andThen fun cond => ?_
    refine (appendBlock_agrees "then").andThen fun thenBlock => ?_
    refine (appendBlock_agrees "else").andThen fun elseBlock => ?_
    refine (appendBlock_agrees "endif").andThen fun endBlock => ?_
    refine (terminate_agrees _).andThen fun _ => ?_
    refine (lowerBranch_agrees _ _ (lowerStmt_agrees inside thenBranch)).andThen fun _ => ?_
    refine (lowerBranch_agrees _ _ (lowerOptional_agrees inside elseBranch)).andThen fun _ => ?_
    exact positionAtEnd_agrees endBlock
  | .ret value span => by
    rw [lowerStmt, SsaLowering.lowerStmt]
    exact lowerReturn_agrees inside value span
  | .vars kind declarators span => by
    rw [lowerStmt, SsaLowering.lowerStmt]
    exact forM_agrees (lowerDeclarator_agrees inside kind) declarators
  | .whileLoop _ _ span => skip_agrees _ span
  | .breakLoop span => skip_agrees _ span
  | .continueLoop span => skip_agrees _ span
  | .empty span => skip_agrees _ span

theorem lowerOptional_agrees {within : List ScopeId} {scope : ScopeId} (inside : scope ∈ within) :
    ∀ stmt : Option Stmt, env.bodies.Agrees within nowhere (lowerOptional env scope stmt)
      (SsaLowering.lowerOptional env scope stmt)
  | none => .pure _
  | some stmt => lowerStmt_agrees inside stmt

theorem lowerStmts_agrees {within : List ScopeId} {scope : ScopeId} (inside : scope ∈ within) :
    ∀ stmts : List Stmt, env.bodies.Agrees within nowhere (lowerStmts env scope stmts)
      (SsaLowering.lowerStmts env scope stmts)
  | [] => .pure _
  | stmt :: rest => by
    rw [lowerStmts, SsaLowering.lowerStmts]
    refine builder_agrees.andThen fun b => ?_
    cases b.isTerminated with
    | true => exact outside_agrees (log_agrees _)
    | false =>
      exact (lowerStmt_agrees inside stmt).andThen fun _ => lowerStmts_agrees inside rest

end

/-! ## Whole bodies -/

theorem bindParams_agrees (inside : scope ∈ within) :
    ∀ (params : List Param) (values : List ValueId), env.bodies.Agrees within nowhere
      (bindParams env scope params values) (SsaLowering.bindParams env scope params values)
  | [], _ => .pure _
  | _ :: _, [] => .pure _
  | param :: params, value :: values => by
    rw [bindParams, SsaLowering.bindParams]
    refine (nameValue_agrees value _).discard.andThen fun _ => ?_
    refine (bindLocal_agrees inside param.name rfl).andThen fun _ => ?_
    exact bindParams_agrees inside params values

theorem sealBody_agrees (span : FileSpan) :
    env.bodies.Agrees within nowhere (sealBody span) (SsaLowering.sealBody span) := by
  refine builder_agrees.andThen fun b => ?_
  cases b.current with
  | none => exact .pure _
  | some block =>
    dsimp only
    cases b.hasTerminator block with
    | true => exact .pure _
    | false =>
      cases b.returnTy.isVoid with
      | true => exact terminate_agrees _
      | false =>
        cases b.function.reachable.contains block with
        | true => exact (outside_agrees (warn_agrees _)).andThen fun _ => terminate_agrees _
        | false => exact terminate_agrees _

theorem buildBody_agrees (inside : scope ∈ within) (decl : FunctionDecl) (stmts : List Stmt) :
    env.bodies.Agrees within nowhere (buildBody env scope decl stmts)
      (SsaLowering.buildBody env scope decl stmts) := by
  refine (inScope_agrees inside fun inner => ?_).andThen fun _ => sealBody_agrees decl.span
  refine builder_agrees.andThen fun b => ?_
  refine (bindParams_agrees List.mem_cons_self decl.params _).andThen fun _ => ?_
  refine (appendBlock_agrees "entry").andThen fun entry => ?_
  refine (positionAtEnd_agrees entry).andThen fun _ => ?_
  exact lowerStmts_agrees List.mem_cons_self stmts

end SsaLowering.Checked
