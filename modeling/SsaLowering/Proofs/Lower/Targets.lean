/-
# SsaLowering.Proofs.Lower.Targets -- what can be assigned to

What an assignment does with its target depends on how the name was bound.  `Binder` notes
for each visible name whether it is a parameter, a variable, a constant or comes from outside
of the function; for a constant it also notes whether its initial value is a function, which
can be read off the source (`Expr.role`).

`Visited` are the states that a body goes through.  In each of them the bindings are as the
notes say (`Visited.knows`), so an assignment to a variable goes on with the value, one to a
parameter or a constant is refused as immutable, and any other as no target at all
(`Visited.assignment_classified`).  A constant that holds a function is the exception: it is
taken for the function itself.
-/
import SsaLowering.Proofs.Lower.Members
import SsaLowering.Proofs.Lower.Naming

namespace SsaLowering

set_option autoImplicit false

open Ir (Ty FunctionTy Operand ValueId)

/-! ## How names are bound -/

/-- How a visible name was bound. -/
inductive Binder where
  /-- Around the function, or not at all. -/
  | outside
  | parameter
  | mutable
  /-- By a `const`, whose value may be a function. -/
  | constant (callable : Bool)
deriving DecidableEq, Inhabited

abbrev Binders := Symbol → Binder

/-- What a value is good for. -/
inductive Role where
  | variable_
  | function
  | other
deriving DecidableEq, Inhabited

/-- The role of what a name stands for, if it can be read. -/
def Binder.role : Binder → Role
  | outside | constant true => .function
  | parameter | constant false => .other
  | mutable => .variable_

/-- What is read from a variable is a value like any other. -/
def Role.read : Role → Role
  | variable_ => .other
  | role => role

/-- The role of the value of an expression, if it has a value. -/
def Expr.role (binders : Binders) : Expr → Role
  | .identifier name _ => (binders name).role
  | .member .. => .function
  | .binary .assign _ rhs _ => (rhs.role binders).read
  | _ => .other

def ExprValue.role : ExprValue → Role
  | .slot _ => .variable_
  | .direct (.function _) => .function
  | .direct _ => .other

/-- A binding of the kind that the note says. -/
def Binder.Fits : Binder → Option BoundValue → Prop
  | outside, found => ∀ bound, found = some bound → bound.isOuter = true
  | parameter, found => ∃ id, found = some (.direct (.value id))
  | mutable, found => ∃ home, found = some (.slot home)
  | constant callable, found => ∃ operand, found = some (.direct operand) ∧
      (ExprValue.direct operand).role = (constant callable).role

namespace Binders

/-- The names behind a declarator. -/
def declare (kind : BindingKind) (binders : Binders) (decl : Declarator) : Binders :=
  Function.update binders decl.name
    (if kind.isMutable then .mutable
      else .constant (decl.init.any fun expr => expr.role binders = .function))

mutual

/-- The names behind a statement.  A branch that is no block leaves its own to what follows. -/
def behind (binders : Binders) : Stmt → Binders
  | .ifElse _ thenBranch elseBranch _ =>
    behindOptional (binders.behind thenBranch) elseBranch
  | .vars kind declarators _ => declarators.foldl (declare kind) binders
  | _ => binders

def behindOptional (binders : Binders) : Option Stmt → Binders
  | none => binders
  | some stmt => binders.behind stmt

end

end Binders

variable {env : Environment} {s t u : BodyState} {scope : ScopeId} {binders : Binders}

/-- The bindings are as the notes say. -/
abbrev BodyState.Knows (s : BodyState) (scope : ScopeId) (binders : Binders) : Prop :=
  s.context.scopes.Tells Binder.Fits scope binders

theorem BodyState.Knows.binds {α : Type} {x : LowerBody α} {a : α}
    (knows : s.Knows scope binders) (binds : x.Binds scope []) (run : x s = .ok a t) :
    t.Knows scope binders :=
  knows.rebinds (binds run)

/-! ## Values of expressions -/

/-- What can be read outside of functions is a function. -/
theorem ExprValue.role_of_outer {value : ExprValue} (outer : value.bound.isOuter = true) :
    value.role = .function := by
  cases value with
  | direct operand =>
    obtain ⟨id, same⟩ | ⟨inner, same⟩ := BoundValue.outer_cases outer
    · cases same
      rfl
    · cases same
  | slot home => cases outer

theorem read_role {value : ExprValue} {operand : Operand}
    (run : value.read s = .ok operand t) : (ExprValue.direct operand).role = value.role.read := by
  have opened := read_ok run
  cases value with
  | direct given =>
    rw [opened.1]
    cases given <;> rfl
  | slot home =>
    obtain ⟨block, ty, -, rfl, -⟩ := opened
    rfl

/-- A name that can be read has the role of its binder. -/
theorem Binder.Fits.role {binder : Binder} {value : ExprValue}
    (fits : binder.Fits (some value.bound)) : value.role = binder.role := by
  cases binder with
  | outside => exact value.role_of_outer (fits _ rfl)
  | parameter =>
    obtain ⟨id, same⟩ := fits
    cases value <;> cases same
    rfl
  | mutable =>
    obtain ⟨home, same⟩ := fits
    cases value <;> cases same
    rfl
  | constant callable =>
    obtain ⟨operand, same, kind⟩ := fits
    cases value <;> cases same
    exact kind

/-- The role of a value can be read off the expression. -/
theorem lowerExpr_role (env : Environment) : ∀ (expr : Expr) {scope : ScopeId}
    {s t : BodyState} {value : ExprValue} {binders : Binders}, s.Knows scope binders →
      lowerExpr env scope expr s = .ok value t → value.role = expr.role binders
  | .identifier name span, scope, s, t, value, binders, knows, run => by
    rw [lowerExpr] at run
    have fits := knows.names name
    rw [(lowerIdentifier_ok knows.inside run).1] at fits
    exact fits.role
  | .member object property span, scope, s, t, value, binders, knows, run => by
    rw [lowerExpr] at run
    exact value.role_of_outer (lowerMember_outer knows run).1
  | .call callee args span, scope, s, t, value, binders, knows, run => by
    obtain ⟨target, u, operand, -, called, rfl⟩ := lowerExpr_call_ok run
    obtain ⟨id, params, operands, w, block, ty, -, -, -, -, given, -⟩ := lowerCall_ok called
    obtain ⟨-, -, rfl⟩ := Option.map_eq_some_iff.1 given.symm
    rfl
  | .binary op lhs rhs span, scope, s, t, value, binders, knows, run => by
    rcases lowerExpr_binary_ok run with rfl | rfl
    · obtain ⟨home, u, operand, v, block, first, evaluated, -, rfl, -⟩ := lowerExpr_assign_ok run
      obtain ⟨stored, w, second, read⟩ := evaluate_ok.1 evaluated
      have known := knows.binds (lowerExpr_binds env scope lhs) first
      rw [Expr.role, ← lowerExpr_role env rhs known second]
      exact read_role read
    · obtain ⟨left, u, right, v, block, ty, -, -, -, rfl, -⟩ := lowerExpr_add_ok run
      rfl
  | .string text span, scope, s, t, value, binders, knows, run => by
    rw [lowerExpr] at run
    obtain ⟨ty, -, rfl, -⟩ := lowerString_ok run
    rfl
  | .bool literal span, scope, s, t, value, binders, knows, run => by
    rw [lowerExpr] at run
    cases run
    rfl
  | .number literal span, scope, s, t, value, binders, knows, run => by
    rw [lowerExpr] at run
    cases run
    rfl
  | .unary .., _, _, _, _, _, _, run | .null .., _, _, _, _, _, _, run
  | .array .., _, _, _, _, _, _, run | .index .., _, _, _, _, _, _, run => by
    rw [lowerExpr] at run
    cases run

theorem evaluate_role (knows : s.Knows scope binders) {expr : Expr} {operand : Operand}
    (run : evaluate env scope expr s = .ok operand t) :
    (ExprValue.direct operand).role = (expr.role binders).read ∧ t.Knows scope binders := by
  obtain ⟨value, u, lowered, read⟩ := evaluate_ok.1 run
  have known := knows.binds (lowerExpr_binds env scope expr) lowered
  refine ⟨?_, known.binds (read_binds value) read⟩
  rw [read_role read, lowerExpr_role env expr knows lowered]

/-! ## Declarations -/

theorem emit_scopes {α : Type} {operation : Ir.Builder → Except Ir.BuildError (α × Ir.Builder)}
    {a : α} (run : LowerBody.emit operation s = .ok a t) : t.context.scopes = s.context.scopes := by
  rw [LowerBody.emit_run] at run
  split at run
  · cases run
    rfl
  · cases run

theorem bindName_scopes {name : Symbol} {value : BoundValue} {v : Unit}
    (run : (discard (LowerBody.outside (Lower.bind scope name value)) : LowerBody Unit) s =
      .ok v t) :
    t.context.scopes = s.context.scopes.assign scope name (some value) := by
  obtain ⟨previous, run⟩ := discard_ok.1 run
  rw [LowerBody.outside_run] at run
  split at run
  · rename_i bound
    obtain ⟨-, -, rfl⟩ := Lower.bind_scope_ok.1 bound
    cases run
    rfl
  · cases run

theorem bindConstant_scopes {decl : Declarator} {init : Option (Operand × Ty)}
    (run : bindConstant env scope decl init s = .ok () t) :
    ∃ operand ty, init = some (operand, ty) ∧
      t.context.scopes = s.context.scopes.assign scope decl.name (some (.direct operand)) := by
  rcases init with _ | ⟨operand, ty⟩
  · cases run
  · refine ⟨operand, ty, rfl, ?_⟩
    cases operand with
    | value id =>
      replace run : (discard (LowerBody.emit (·.nameValue id (env.name decl.name))) >>= fun _ =>
        discard (LowerBody.outside (Lower.bind scope decl.name (.direct (.value id))))) s =
          .ok () t := run
      obtain ⟨a, u, named, run⟩ := bind_ok.1 run
      obtain ⟨taken, named⟩ := discard_ok.1 named
      rw [bindName_scopes run, emit_scopes named]
    | constant c => exact bindName_scopes run
    | function id => exact bindName_scopes run

theorem bindVariable_scopes {decl : Declarator} {declared : Option Ty}
    {init : Option (Operand × Ty)}
    (run : bindVariable env scope decl declared init s = .ok () t) :
    ∃ home, t.context.scopes = s.context.scopes.assign scope decl.name (some (.slot home)) := by
  unfold bindVariable at run
  cases chosen : declared <|> init.map (·.2) with
  | none =>
    rw [chosen] at run
    cases run
  | some ty =>
    rw [chosen] at run
    simp only [] at run
    obtain ⟨ptr, u, reserved, run⟩ := bind_ok.1 run
    refine ⟨⟨ptr, ty⟩, ?_⟩
    rw [← emit_scopes reserved]
    rcases init with _ | ⟨operand, found⟩
    · exact bindName_scopes run
    · replace run : (LowerBody.emit_ (·.store operand (.value ptr)) >>= fun _ =>
        discard (LowerBody.outside (Lower.bind scope decl.name (.slot ⟨ptr, ty⟩)))) u =
          .ok () t := run
      obtain ⟨a, v, stored, run⟩ := bind_ok.1 run
      rw [bindName_scopes run, emit_scopes stored]

theorem lowerDeclarator_knows (knows : s.Knows scope binders) {kind : BindingKind}
    {decl : Declarator} (run : lowerDeclarator env scope kind decl s = .ok () t) :
    t.Knows scope (binders.declare kind decl) := by
  rw [lowerDeclarator_eq, bind_ok] at run
  obtain ⟨declared, u, typed, run⟩ := run
  obtain rfl := declaredTy_ok typed
  obtain ⟨init, v, initialized, run⟩ := bind_ok.1 run
  unfold Binders.declare BodyState.Knows
  have valued := initialValue_ok initialized
  cases mutability : kind.isMutable with
  | true =>
    rw [mutability] at run
    obtain ⟨home, scopes⟩ := bindVariable_scopes run
    have known : v.Knows scope binders := by
      rcases valued with ⟨-, -, rfl⟩ | ⟨expr, operand, ty, -, -, evaluated⟩
      · exact knows
      · exact (evaluate_role knows evaluated).2
    rw [scopes]
    exact known.bound decl.name nofun ⟨home, rfl⟩
  | false =>
    rw [mutability] at run
    obtain ⟨operand, ty, rfl, scopes⟩ := bindConstant_scopes run
    rcases valued with ⟨-, absurd_, -⟩ | ⟨expr, operand', ty', present, same, evaluated⟩
    · cases absurd_
    · cases same
      obtain ⟨role, known⟩ := evaluate_role knows evaluated
      rw [scopes, present]
      refine known.bound decl.name nofun ⟨operand, rfl, ?_⟩
      rw [role, Option.any_some]
      cases expr.role binders <;> rfl

theorem declarators_know (kind : BindingKind) :
    ∀ {declarators : List Declarator} {s t : BodyState} {binders : Binders},
      s.Knows scope binders → declarators.forM (lowerDeclarator env scope kind) s = .ok () t →
        t.Knows scope (declarators.foldl (Binders.declare kind) binders)
  | [], s, t, binders, knows, run => by
    cases run
    exact knows
  | decl :: rest, s, t, binders, knows, run => by
    obtain ⟨u, first, run⟩ := declarators_cons_ok run
    have others := declarators_know kind (lowerDeclarator_knows knows first) run
    exact others

/-! ## Statements -/

/-- What a branch does to the names is what its statement does. -/
theorem lowerBranch_knows {start next : Ir.BlockId} {branch : LowerBody Unit}
    {behind : Binders} (knows : s.Knows scope binders)
    (inner : ∀ {s t : BodyState}, s.Knows scope binders → branch s = .ok () t →
      t.Knows scope behind)
    (run : lowerBranch start next branch s = .ok () t) : t.Knows scope behind := by
  obtain ⟨a, u, moved, run⟩ := bind_ok.1 run
  obtain ⟨a', v, lowered, run⟩ := bind_ok.1 run
  have known : u.Knows scope binders := by
    rw [BodyState.Knows, emit_scopes moved]
    exact knows
  refine (inner known lowered).binds ?_ run
  refine LowerBody.Binds.builder.bind fun b => ?_
  split
  · exact .emitUnit _
  · exact .pure _

mutual

/-- Behind a statement the names are bound as can be read off it. -/
theorem lowerStmt_knows (env : Environment) : ∀ (stmt : Stmt) {scope : ScopeId}
    {s t : BodyState} {binders : Binders}, s.Knows scope binders →
      lowerStmt env scope stmt s = .ok () t → t.Knows scope (binders.behind stmt)
  | .ifElse condition thenBranch elseBranch span, scope, s, t, binders, knows, run => by
    rw [lowerStmt] at run
    obtain ⟨cond, u₀, evaluated, run⟩ := bind_ok.1 run
    obtain ⟨thenBlock, u₁, opened₁, run⟩ := bind_ok.1 run
    obtain ⟨elseBlock, u₂, opened₂, run⟩ := bind_ok.1 run
    obtain ⟨endBlock, u₃, opened₃, run⟩ := bind_ok.1 run
    obtain ⟨a, u₄, branched, run⟩ := bind_ok.1 run
    obtain ⟨a', v, first, run⟩ := bind_ok.1 run
    obtain ⟨a'', w, second, run⟩ := bind_ok.1 run
    have asked : u₀.Knows scope binders :=
      knows.binds (lowerCondition_binds env scope condition) evaluated
    have forked : u₄.Knows scope binders := by
      rw [BodyState.Knows, emit_scopes branched, emit_scopes opened₃, emit_scopes opened₂,
        emit_scopes opened₁]
      exact asked
    have joined :=
      lowerBranch_knows forked (fun knows run => lowerStmt_knows env thenBranch knows run) first
    have last := lowerBranch_knows joined
      (fun knows run => lowerOptional_knows env elseBranch knows run) second
    rw [BodyState.Knows, emit_scopes run, Binders.behind]
    exact last
  | .vars kind declarators span, scope, s, t, binders, knows, run => by
    rw [lowerStmt] at run
    rw [Binders.behind]
    exact declarators_know kind knows run
  | .block .., scope, s, t, binders, knows, run | .expression .., scope, s, t, binders, knows, run
  | .ret .., scope, s, t, binders, knows, run | .whileLoop .., scope, s, t, binders, knows, run
  | .breakLoop .., scope, s, t, binders, knows, run
  | .continueLoop .., scope, s, t, binders, knows, run
  | .empty .., scope, s, t, binders, knows, run =>
    knows.rebinds (lowerStmt_binds env _ scope run)

theorem lowerOptional_knows (env : Environment) : ∀ (stmt : Option Stmt) {scope : ScopeId}
    {s t : BodyState} {binders : Binders}, s.Knows scope binders →
      lowerOptional env scope stmt s = .ok () t → t.Knows scope (binders.behindOptional stmt)
  | none, scope, s, t, binders, knows, run => by
    rw [lowerOptional] at run
    cases run
    exact knows
  | some stmt, scope, s, t, binders, knows, run => by
    rw [lowerOptional] at run
    exact lowerStmt_knows env stmt knows run

end

/-! ## The states of a body -/

/-- The states that the lowering of a body goes through, each with the scope that it is in and
the notes on the names there. -/
inductive Visited (env : Environment) : BodyState → ScopeId → Binders → Prop
  /-- The function has been declared, and its parameters are bound in the scope of its body. -/
  | start {cx : Context} {scope : ScopeId} {decl : FunctionDecl} {signature : FunctionTy}
      {linkage : String} {t : BodyState} (reached : cx.Reached)
      (header : Header env scope decl cx signature linkage)
      (run :
        let s := cx.begun scope decl.name (.declare linkage signature)
        bindParams env s.home decl.params s.builder.function.params (s.entered scope) = .ok () t) :
      Visited env t (cx.begun scope decl.name (.declare linkage signature)).home
        (noteParams (fun _ => .outside) .parameter decl.params)
  /-- Whatever was emitted in between: the builder may be any. -/
  | emitted {s : BodyState} {scope : ScopeId} {binders : Binders}
      (visited : Visited env s scope binders) (builder : Ir.Builder) :
      Visited env { s with builder } scope binders
  /-- A part of an expression has been lowered. -/
  | lowered {s t : BodyState} {scope : ScopeId} {binders : Binders} {expr : Expr}
      {value : ExprValue} (visited : Visited env s scope binders)
      (run : lowerExpr env scope expr s = .ok value t) : Visited env t scope binders
  | declared {s t : BodyState} {scope : ScopeId} {binders : Binders} {kind : BindingKind}
      {decl : Declarator} (visited : Visited env s scope binders)
      (run : lowerDeclarator env scope kind decl s = .ok () t) :
      Visited env t scope (binders.declare kind decl)
  | passed {s t : BodyState} {scope : ScopeId} {binders : Binders} {stmt : Stmt}
      (visited : Visited env s scope binders) (run : lowerStmt env scope stmt s = .ok () t) :
      Visited env t scope (binders.behind stmt)
  /-- A block has been entered. -/
  | entered {s : BodyState} {scope : ScopeId} {binders : Binders}
      (visited : Visited env s scope binders) :
      Visited env (s.entered scope) s.home binders

theorem bindParams_scopes : ∀ {params : List Param} {values : List ValueId} {s t : BodyState},
    bindParams env scope params values s = .ok () t →
      t.context.scopes = s.context.scopes.bindParams scope params values
  | [], _, s, t, run => by
    cases run
    rfl
  | _ :: _, [], s, t, run => by
    cases run
    rfl
  | param :: params, value :: values, s, t, run => by
    obtain ⟨a, u, named, run⟩ := bind_ok.1 run
    obtain ⟨taken, named⟩ := discard_ok.1 named
    obtain ⟨a', v, bound, run⟩ := bind_ok.1 run
    rw [bindParams_scopes run, bindName_scopes bound, emit_scopes named]
    rfl

theorem Visited.knows (visited : Visited env s scope binders) : s.Knows scope binders := by
  induction visited with
  | start reached header run =>
    exact reached.sound.tells header nofun (fun bound outer _ same => Option.some.inj same ▸ outer)
      (fun id => ⟨id, rfl⟩) rfl (bindParams_scopes run)
  | emitted visited builder knows => exact knows
  | @lowered s t scope binders expr value visited run knows =>
    exact knows.binds (lowerExpr_binds env scope expr) run
  | declared visited run knows => exact lowerDeclarator_knows knows run
  | passed visited run knows => exact lowerStmt_knows env _ knows run
  | entered visited knows => exact knows.entered

/-! ## Targets -/

/-- What an expression is as the target of an assignment. -/
inductive Target where
  | variable_
  | immutable (name : Symbol)
  | invalid
deriving DecidableEq, Inhabited

/-- A constant that holds a function is no better than the function. -/
def Binder.target (name : Symbol) : Binder → Target
  | mutable => .variable_
  | parameter | constant false => .immutable name
  | outside | constant true => .invalid

def Binders.target (binders : Binders) : Expr → Target
  | .identifier name _ => (binders name).target name
  | _ => .invalid

/-- An assignment is refused for its target before anything else. -/
theorem lowerAssign_of_refused {lhs rhs : Expr} {span : FileSpan} {value : ExprValue}
    {cause : LowerError} (lowered : lowerExpr env scope lhs s = .ok value t)
    (refused : assignmentTarget env lhs value = LowerBody.refuse cause) :
    lowerExpr env scope (.binary .assign lhs rhs span) s = .error (.refused cause) t := by
  rw [lowerExpr, bind_run, lowered]
  simp only []
  rw [bind_run, refused]
  rfl

theorem lowerIdentifier_of_bound (inside : s.context.scopes.contains scope) {name : Symbol}
    {value : ExprValue} (found : s.context.scopes.resolve scope name = some value.bound)
    (span : FileSpan) : lowerExpr env scope (.identifier name span) s = .ok value s := by
  rw [lowerExpr, lowerIdentifier, bind_run, LowerBody.resolve_run, if_pos inside, found]
  cases value <;> rfl

/-- An assignment to a variable goes on with the value. -/
theorem lowerAssign_variable (knows : s.Knows scope binders) {name : Symbol}
    (note : binders name = .mutable) (place : FileSpan) (value : Expr) (span : FileSpan) :
    ∃ home, lowerExpr env scope (.identifier name place) s = .ok (.slot home) s ∧
      lowerExpr env scope (.binary .assign (.identifier name place) value span) s =
        (do assign home (← evaluate env scope value) value.span) s := by
  have fits := knows.names name
  rw [note] at fits
  obtain ⟨home, bound⟩ := fits
  have lowered : lowerExpr env scope (.identifier name place) s = .ok (.slot home) s :=
    lowerIdentifier_of_bound knows.inside bound place
  refine ⟨home, lowered, ?_⟩
  rw [lowerExpr, bind_run, lowered]
  simp only []
  rw [bind_run]
  exact congrFun (evaluate_bind env scope value _) s

/-- An assignment to a name that is bound to an operand, and not to a function, is refused
where it stands. -/
theorem lowerAssign_immutable (knows : s.Knows scope binders) {name : Symbol} {operand : Operand}
    (bound : s.context.scopes.resolve scope name = some (.direct operand))
    (plain : (ExprValue.direct operand).role = .other) (place : FileSpan) (value : Expr)
    (span : FileSpan) :
    lowerExpr env scope (.binary .assign (.identifier name place) value span) s =
      .error (.refused (.assignToImmutable (env.name name) place)) s := by
  have lowered : lowerExpr env scope (.identifier name place) s = .ok (.direct operand) s :=
    lowerIdentifier_of_bound knows.inside bound place
  refine lowerAssign_of_refused lowered ?_
  cases operand with
  | function id => cases plain
  | value id => rfl
  | constant c => rfl

/-- Only a variable is a place to store in. -/
theorem ExprValue.direct_of_role {value : ExprValue} (role : value.role ≠ .variable_) :
    ∃ operand, value = .direct operand := by
  cases value with
  | direct operand => exact ⟨operand, rfl⟩
  | slot home => exact absurd rfl role

theorem Role.read_ne (role : Role) : role.read ≠ .variable_ := by
  cases role <;> nofun

/-- Whether the expression names something: the targets that may be found immutable. -/
def Expr.isPath : Expr → Bool
  | .identifier .. | .member .. => true
  | _ => false

/-- A name that is no target is one of a function. -/
theorem Binder.role_of_invalid {binder : Binder} {name : Symbol}
    (invalid : binder.target name = .invalid) : binder.role = .function := by
  cases binder with
  | outside => rfl
  | parameter => cases invalid
  | mutable => cases invalid
  | constant callable =>
    cases callable
    · cases invalid
    · rfl

theorem Binders.role_of_invalid {target : Expr} (invalid : binders.target target = .invalid) :
    target.role binders ≠ .variable_ ∧ (target.isPath → target.role binders = .function) := by
  unfold Expr.role Expr.isPath
  split
  · have callable := Binder.role_of_invalid invalid
    rw [callable]
    exact ⟨nofun, fun _ => rfl⟩
  · exact ⟨nofun, fun _ => rfl⟩
  · exact ⟨Role.read_ne _, nofun⟩
  · rename_i unnamed unqualified _
    refine ⟨nofun, fun path => ?_⟩
    split at path
    · exact (unnamed _ _ rfl).elim
    · exact (unqualified _ _ _ rfl).elim
    · cases path

theorem assignmentTarget_invalid {target : Expr} {operand : Operand}
    (callable : target.isPath → (ExprValue.direct operand).role = .function) :
    assignmentTarget env target (.direct operand) =
      LowerBody.refuse (.invalidAssignmentTarget target.kind target.span) := by
  unfold assignmentTarget
  split
  · contradiction
  all_goals first | rfl | (rename_i same; cases same; cases callable rfl)

/-- An assignment to anything else is refused when its target has a value. -/
theorem lowerAssign_invalid (knows : s.Knows scope binders) {target : Expr}
    (invalid : binders.target target = .invalid) (value : Expr) (span : FileSpan)
    {found : ExprValue} (lowered : lowerExpr env scope target s = .ok found t) :
    lowerExpr env scope (.binary .assign target value span) s =
      .error (.refused (.invalidAssignmentTarget target.kind target.span)) t := by
  refine lowerAssign_of_refused lowered ?_
  have role := lowerExpr_role env target knows lowered
  obtain ⟨fixed, callable⟩ := Binders.role_of_invalid invalid
  rw [← role] at fixed callable
  obtain ⟨operand, rfl⟩ := ExprValue.direct_of_role fixed
  exact assignmentTarget_invalid callable

theorem Binders.of_target_variable {target : Expr} (class_ : binders.target target = .variable_) :
    ∃ name place, target = .identifier name place ∧ binders name = .mutable := by
  unfold Binders.target at class_
  split at class_
  · rename_i name place
    refine ⟨name, place, rfl, ?_⟩
    cases note : binders name with
    | mutable => rfl
    | outside => rw [note] at class_; cases class_
    | parameter => rw [note] at class_; cases class_
    | constant callable => rw [note] at class_; cases callable <;> cases class_
  · cases class_

theorem Binders.of_target_immutable {target : Expr} {name : Symbol}
    (class_ : binders.target target = .immutable name) :
    ∃ place, target = .identifier name place ∧
      (binders name = .parameter ∨ binders name = .constant false) := by
  unfold Binders.target at class_
  split at class_
  · rename_i name' place
    cases note : binders name' with
    | mutable => rw [note] at class_; cases class_
    | outside => rw [note] at class_; cases class_
    | parameter => rw [note] at class_; cases class_; exact ⟨place, rfl, .inl note⟩
    | constant callable =>
      rw [note] at class_
      cases callable <;> cases class_
      exact ⟨place, rfl, .inr note⟩
  · cases class_

/-- What is noted as immutable is bound to an operand that is no function. -/
theorem Binder.Fits.operand_of_immutable {binder : Binder} {found : Option BoundValue}
    (fits : binder.Fits found) (note : binder = .parameter ∨ binder = .constant false) :
    ∃ operand, found = some (.direct operand) ∧ (ExprValue.direct operand).role = .other := by
  rcases note with rfl | rfl
  · obtain ⟨id, bound⟩ := fits
    exact ⟨.value id, bound, rfl⟩
  · exact fits

/-- In every state of a body an assignment does with its target what the binding asks for.  If
the target is a name that was bound by `let` or `var`, the value is evaluated next and stored
in the slot of the variable.  If it is a parameter, or a constant that does not hold a
function, the assignment is refused as one to something immutable, and nothing has changed.
Any other target that has a value is refused as no target, in the state that its value leaves. -/
theorem Visited.assignment_classified (visited : Visited env s scope binders) (target value : Expr)
    (span : FileSpan) :
    match binders.target target with
    | .variable_ => ∃ home, lowerExpr env scope target s = .ok (.slot home) s ∧
        lowerExpr env scope (.binary .assign target value span) s =
          (do assign home (← evaluate env scope value) value.span) s
    | .immutable name => lowerExpr env scope (.binary .assign target value span) s =
        .error (.refused (.assignToImmutable (env.name name) target.span)) s
    | .invalid => ∀ found t, lowerExpr env scope target s = .ok found t →
        lowerExpr env scope (.binary .assign target value span) s =
          .error (.refused (.invalidAssignmentTarget target.kind target.span)) t := by
  have knows := visited.knows
  cases class_ : binders.target target with
  | invalid => exact fun found t lowered => lowerAssign_invalid knows class_ value span lowered
  | variable_ =>
    obtain ⟨name, place, rfl, note⟩ := Binders.of_target_variable class_
    exact lowerAssign_variable knows note place value span
  | immutable name =>
    obtain ⟨place, rfl, note⟩ := Binders.of_target_immutable class_
    obtain ⟨operand, bound, plain⟩ := (knows.names name).operand_of_immutable note
    exact lowerAssign_immutable knows bound plain place value span

namespace Sample

/-- The body of `f(x: number): number` up to a constant `y`. -/
def untilConstant (init : Expr) : LowerBody Unit := do
  bindParams standard started.home (function []).params started.builder.function.params
  lowerStmt standard started.home (declare .const init)

/-- The state behind the constant. -/
def behindConstant (init : Expr) : Option BodyState :=
  match untilConstant init (started.entered ScopeTable.global) with
  | .ok () t => some t
  | .error _ _ => none

/-- `y = x` -/
def assignment : Expr := .binary .assign y x .unplaced

/-- What is known there of the names. -/
def notes (init : Expr) : Binders :=
  Binders.behind (noteParams (fun _ => .outside) .parameter (function []).params)
    (declare .const init)

theorem started_header : Header standard ScopeTable.global (function []) (.initial "m")
    ⟨[.double], .double⟩ "f" where
  typed := by cbv
  inside := by decide
  linked := by cbv
  free := rfl

theorem visited_behindConstant {init : Expr} {t : BodyState} (runs : behindConstant init = some t) :
    Visited standard t started.home (notes init) := by
  unfold behindConstant at runs
  split at runs
  · rename_i run
    cases runs
    obtain ⟨a, u, bound, passed⟩ := bind_ok.1 run
    have reached : (Context.initial "m").Reached := ⟨"m", .refl⟩
    exact (Visited.start reached started_header bound).passed passed
  · cases runs

end Sample

/-- Behind `const y = x` an assignment to `y` is refused as one to something immutable. -/
theorem Visited.assignment_classified_sample :
    ∃ s, Visited Sample.standard s Sample.started.home (Sample.notes Sample.x) ∧
      lowerExpr Sample.standard Sample.started.home Sample.assignment s =
        .error (.refused (.assignToImmutable "y" .unplaced)) s := by
  have computed : (Sample.behindConstant Sample.x).isSome = true := by cbv
  obtain ⟨s, runs⟩ := Option.isSome_iff_exists.1 computed
  have visited := Sample.visited_behindConstant runs
  have assigned := visited.assignment_classified Sample.y Sample.x .unplaced
  exact ⟨s, visited, assigned⟩

/-- Behind `const y = f` the name `y` is bound by a constant, and an assignment to it is refused
as no target. -/
theorem Visited.function_constant :
    ∃ s, Visited Sample.standard s Sample.started.home (Sample.notes (.identifier ⟨0⟩ .unplaced)) ∧
      Sample.notes (.identifier ⟨0⟩ .unplaced) ⟨2⟩ = .constant true ∧
      lowerExpr Sample.standard Sample.started.home Sample.assignment s =
        .error (.refused (.invalidAssignmentTarget .identifier .unplaced)) s ∧
      lowerExpr Sample.standard Sample.started.home Sample.assignment s ≠
        .error (.refused (.assignToImmutable "y" .unplaced)) s := by
  have computed : (Sample.behindConstant (.identifier ⟨0⟩ .unplaced)).isSome = true := by cbv
  obtain ⟨s, runs⟩ := Option.isSome_iff_exists.1 computed
  have visited := Sample.visited_behindConstant runs
  have note : Sample.notes (.identifier ⟨0⟩ .unplaced) ⟨2⟩ = .constant true := by decide
  obtain ⟨operand, bound, callable⟩ : Binder.Fits (.constant true) _ :=
    note ▸ visited.knows.names ⟨2⟩
  have lowered : lowerExpr Sample.standard Sample.started.home Sample.y s =
      .ok (.direct operand) s :=
    lowerIdentifier_of_bound visited.knows.inside bound .unplaced
  have invalid : (Sample.notes (.identifier ⟨0⟩ .unplaced)).target Sample.y = .invalid := by
    decide
  have refused : lowerExpr Sample.standard Sample.started.home Sample.assignment s = _ :=
    lowerAssign_invalid visited.knows invalid Sample.x .unplaced lowered
  refine ⟨s, visited, note, refused, ?_⟩
  rw [refused]
  intro same
  cases same

end SsaLowering
