/-
# SsaLowering.Proofs.Lower.Shadowing -- what a statement binds in the scopes that it meets

Lowering changes the scopes by binding a name, by entering a scope and by ending the
bindings of one.  A block pairs the last two, so what is bound inside of it is gone behind
it; an expression binds nothing.  What is left are the names that a statement binds in the
scope where it stands (`Stmt.binds`): those of a variable statement, and those of a variable
statement that is a branch, since a branch opens no scope.

`LowerBody.Binds` says of a run from any state that it binds given names of a scope at most.
It is kept by `>>=`, so the proof for the statements follows their lowering line by line
(`lowerStmt_binds`).
-/
import SsaLowering.Proofs.Lower.Closure
import SsaLowering.Proofs.Lower.Run

namespace SsaLowering

set_option autoImplicit false

open Ir (Ty Operand Builder BuildError Module)

/-! ## Scope tables -/

namespace ScopeTable

variable {t t' t'' : ScopeTable} {scope other parent : ScopeId} {names : List Symbol} {x : Symbol}

/-- No scope is lost, and at most the given names of one scope are bound anew. -/
structure Rebinds (scope : ScopeId) (names : List Symbol) (t t' : ScopeTable) : Prop where
  extends_ : t.Extends t'
  lookups : ∀ other x, (other = scope → x ∉ names) → t'.lookupIn other x = t.lookupIn other x

namespace Rebinds

theorem refl (t : ScopeTable) : t.Rebinds scope names t := ⟨.refl t, fun _ _ _ => rfl⟩

theorem trans (first : Rebinds scope names t t') (second : Rebinds scope names t' t'') :
    Rebinds scope names t t'' where
  extends_ := first.extends_.trans second.extends_
  lookups := fun other x kept => (second.lookups other x kept).trans (first.lookups other x kept)

theorem mono {more : List Symbol} (rebinds : Rebinds scope names t t') (within : names ⊆ more) :
    Rebinds scope more t t' where
  extends_ := rebinds.extends_
  lookups := by
    intro other x kept
    apply rebinds.lookups other x
    intro here among
    exact kept here (within among)

theorem assign (t : ScopeTable) (scope : ScopeId) (name : Symbol) (value : Option BoundValue) :
    Rebinds scope [name] t (t.assign scope name value) where
  extends_ := extends_assign t scope name value
  lookups := by
    intro other x kept
    rw [lookupIn_assign, if_neg]
    rintro ⟨rfl, -, rfl⟩
    exact kept rfl List.mem_cons_self

/-- Whatever was bound in a new scope, nothing of it is left when its bindings have ended. -/
theorem leave (inner : Rebinds (t.enter parent none).1 names (t.enter parent none).2 t') :
    Rebinds scope [] t (t'.discard (t.enter parent none).1) where
  extends_ :=
    ((extends_enter t parent none).trans inner.extends_).trans (extends_discard t' _)
  lookups := by
    intro other x _
    rw [lookupIn_discard]
    split
    · rename_i new
      have absent : ¬ t.contains other := by
        rw [contains_iff, ← new, enter_index]
        omega
      rw [lookupIn_of_not_contains absent]
    · rename_i old
      rw [inner.lookups other x fun here => absurd here.symm old, lookupIn_enter]

/-- A name that is not bound anew in a scope means there what it meant before. -/
theorem resolve (rebinds : Rebinds scope names t t') (inside : t.contains other)
    (kept : scope ∈ t.chain other → x ∉ names) : t'.resolve other x = t.resolve other x := by
  apply resolve_congr (rebinds.extends_.chain inside)
  intro e member
  apply rebinds.lookups e x
  rintro rfl
  exact kept member

end Rebinds

end ScopeTable

/-! ## Runs -/

variable {scope : ScopeId} {names : List Symbol} {α β : Type}

/-- Where the run succeeds, it has bound at most the given names of a scope. -/
def LowerBody.Binds (scope : ScopeId) (names : List Symbol) (x : LowerBody α) : Prop :=
  ∀ ⦃s a t⦄, x s = .ok a t → s.context.scopes.Rebinds scope names t.context.scopes

namespace LowerBody.Binds

theorem pure (a : α) : Binds scope names (pure a : LowerBody α) := by
  intro s b t run
  cases run
  exact .refl _

theorem refuse (cause : LowerError) : Binds scope names (LowerBody.refuse cause : LowerBody α) := by
  intro s a t run
  cases run

theorem bind {x : LowerBody α} {f : α → LowerBody β} (first : Binds scope names x)
    (next : ∀ a, Binds scope names (f a)) : Binds scope names (x >>= f) := by
  intro s b t run
  obtain ⟨a, u, ran, rest⟩ := bind_ok.1 run
  exact (first ran).trans (next a rest)

theorem mono {more : List Symbol} {x : LowerBody α} (binds : Binds scope names x)
    (within : names ⊆ more) : Binds scope more x :=
  fun _ _ _ run => (binds run).mono within

theorem builder : Binds scope names LowerBody.builder := by
  intro s b t run
  cases run
  exact .refl _

theorem context : Binds scope names LowerBody.context := by
  intro s cx t run
  cases run
  exact .refl _

theorem emit (operation : Builder → Except BuildError (α × Builder)) :
    Binds scope names (LowerBody.emit operation) := by
  intro s a t run
  rw [emit_run] at run
  split at run
  · cases run
    exact .refl _
  · cases run

theorem emitUnit (operation : Builder → Except BuildError Builder) :
    Binds scope names (LowerBody.emit_ operation) :=
  emit _

theorem operandTy (operand : Operand) : Binds scope names (LowerBody.operandTy operand) := by
  rw [LowerBody.operandTy, ask]
  exact emit _

/-- A step over the context that changes no scope. -/
theorem outside {step : Lower α} (quiet : ∀ cx a cx', step cx = .ok a cx' → cx'.scopes = cx.scopes) :
    Binds scope names (LowerBody.outside step) := by
  intro s a t run
  rw [outside_run] at run
  split at run
  · rename_i ran
    cases run
    rw [quiet _ _ _ ran]
    exact .refl _
  · cases run

theorem requireScope (other : ScopeId) :
    Binds scope names (LowerBody.outside (Lower.requireScope other)) := by
  apply outside
  intro cx a cx' ran
  rw [(Lower.requireScope_ok.1 ran).2]

theorem bindName (scope : ScopeId) (name : Symbol) (value : BoundValue) :
    Binds scope [name] (LowerBody.outside (Lower.bind scope name value)) := by
  intro s a t run
  rw [outside_run] at run
  split at run
  · rename_i ran
    obtain ⟨-, -, rfl⟩ := Lower.bind_scope_ok.1 ran
    cases run
    exact .assign _ scope name _
  · cases run

/-- Work in a new scope binds nothing outside of it. -/
theorem inScope {parent : ScopeId} {work : ScopeId → LowerBody α} {inner : List Symbol}
    (binds : ∀ other, Binds other inner (work other)) :
    Binds scope [] (LowerBody.inScope parent work) := by
  intro s a t run
  rw [inScope_run] at run
  split at run
  · split at run
    · rename_i ran
      cases run
      exact (binds _ ran).leave
    · cases run
  · cases run

/-- The steps of expressions bind nothing. -/
theorem closed (scope : ScopeId) (names : List Symbol) :
    Closed fun _ x => Binds scope names x where
  pure := pure
  refuse := refuse
  bind := bind
  context := context
  requireScope := requireScope
  addConstant := by
    intro bytes
    apply outside
    intro cx a cx' ran
    obtain ⟨m, -, rfl⟩ := Lower.onModule_ok.1 ran
    rfl
  operandTy := operandTy
  load := fun _ _ => emit _
  store := fun _ _ => emitUnit _
  fadd := fun _ _ => emit _
  call := fun _ _ _ => emit _

end LowerBody.Binds

open LowerBody (Binds)
open LowerBody.Binds (pure refuse emit emitUnit operandTy closed)

/-! ## Expressions -/

theorem read_binds (value : ExprValue) : Binds scope names value.read :=
  (closed scope names).read value

/-- An expression binds nothing. -/
theorem lowerExpr_binds (env : Environment) (other : ScopeId) (expr : Expr) :
    Binds scope names (lowerExpr env other expr) :=
  (closed scope names).expr env other expr

theorem lowerCondition_binds (env : Environment) (other : ScopeId) (condition : Expr) :
    Binds scope names (lowerCondition env other condition) :=
  (closed scope names).condition env other condition

/-! ## Variables -/

theorem bindConstant_binds (env : Environment) (scope : ScopeId) (decl : Declarator)
    (init : Option (Operand × Ty)) :
    Binds scope [decl.name] (bindConstant env scope decl init) := by
  unfold bindConstant
  rcases init with _ | ⟨operand, ty⟩
  · exact refuse _
  · have bound :=
      (closed scope [decl.name]).discard (.bindName scope decl.name (.direct operand))
    dsimp only
    split
    · exact ((closed scope _).discard (emit _)).bind fun _ => bound
    · exact bound

theorem bindVariable_binds (env : Environment) (scope : ScopeId) (decl : Declarator)
    (declared : Option Ty) (init : Option (Operand × Ty)) :
    Binds scope [decl.name] (bindVariable env scope decl declared init) := by
  unfold bindVariable
  dsimp only
  split
  · refine (emit _).bind fun ptr => ?_
    have bound (ty : Ty) :=
      (closed scope [decl.name]).discard (.bindName scope decl.name (.slot ⟨ptr, ty⟩))
    cases init with
    | none => exact bound _
    | some given => exact (emitUnit _).bind fun _ => bound _
  · exact refuse _

/-- A declarator binds its own name. -/
theorem lowerDeclarator_binds (env : Environment) (scope : ScopeId) (kind : BindingKind)
    (decl : Declarator) : Binds scope [decl.name] (lowerDeclarator env scope kind decl) := by
  rw [lowerDeclarator_eq]
  have typed : Binds scope [decl.name] (declaredTy env decl) := by
    unfold declaredTy
    split
    · exact pure _
    · split
      · exact pure _
      · exact refuse _
  have valued (declared : Option Ty) :
      Binds scope [decl.name] (initialValue env scope declared decl) := by
    unfold initialValue
    split
    · exact pure _
    · exact (closed scope _).map _ ((closed scope _).initializer env scope declared _)
  refine typed.bind fun declared => (valued declared).bind fun init => ?_
  split
  · exact bindVariable_binds env scope decl declared init
  · exact bindConstant_binds env scope decl init

theorem declarators_bind (env : Environment) (scope : ScopeId) (kind : BindingKind) :
    ∀ declarators : List Declarator,
      Binds scope (declarators.map (·.name)) (declarators.forM (lowerDeclarator env scope kind))
  | [] => pure _
  | decl :: rest => by
    rw [List.map_cons]
    have first := (lowerDeclarator_binds env scope kind decl).mono
      (List.subset_append_left [decl.name] (rest.map (·.name)))
    have others := (declarators_bind env scope kind rest).mono
      (List.subset_append_right [decl.name] (rest.map (·.name)))
    exact first.bind fun _ => others

/-! ## Statements -/

mutual

/-- The names that a statement binds in the scope where it stands.  A branch stands where its
conditional does. -/
def Stmt.binds : Stmt → List Symbol
  | .vars _ declarators _ => declarators.map (·.name)
  | .ifElse _ thenBranch elseBranch _ => thenBranch.binds ++ Stmt.bindsOptional elseBranch
  | _ => []

def Stmt.bindsOptional : Option Stmt → List Symbol
  | none => []
  | some stmt => stmt.binds

end

theorem lowerReturn_binds (env : Environment) (other : ScopeId) (value : Option Expr)
    (span : FileSpan) : Binds scope names (lowerReturn env other value span) := by
  refine LowerBody.Binds.builder.bind fun b => ?_
  cases value with
  | none => exact (closed scope names).check (emitUnit _)
  | some expr =>
    refine (lowerExpr_binds env other expr).bind fun value => (read_binds value).bind fun found => ?_
    exact (operandTy found).bind fun ty => (closed scope names).check (emitUnit _)

theorem lowerBranch_binds (start next : Ir.BlockId) {branch : LowerBody Unit}
    (run : Binds scope names branch) : Binds scope names (lowerBranch start next branch) := by
  refine (emitUnit _).bind fun _ => run.bind fun _ => LowerBody.Binds.builder.bind fun b => ?_
  split
  · exact emitUnit _
  · exact pure _

theorem skip_binds (kind : SyntaxKind) (span : FileSpan) : Binds scope names (skip kind span) := by
  apply LowerBody.Binds.outside
  intro cx a cx' ran
  cases ran
  rfl

mutual

/-- A statement binds its names in its scope and nothing else. -/
theorem lowerStmt_binds (env : Environment) : ∀ (stmt : Stmt) (scope : ScopeId),
    Binds scope stmt.binds (lowerStmt env scope stmt)
  | .block stmts _, scope => by
    rw [lowerStmt]
    exact LowerBody.Binds.inScope fun inner => lowerStmts_bind env stmts inner
  | .expression expr span, scope => (closed scope []).statement env scope expr span
  | .ifElse condition thenBranch elseBranch _, scope => by
    rw [lowerStmt, Stmt.binds]
    have first := (lowerStmt_binds env thenBranch scope).mono
      (List.subset_append_left thenBranch.binds (Stmt.bindsOptional elseBranch))
    have second := (lowerOptional_binds env elseBranch scope).mono
      (List.subset_append_right thenBranch.binds (Stmt.bindsOptional elseBranch))
    refine (lowerCondition_binds env scope condition).bind fun cond => ?_
    refine (emit _).bind fun thenBlock => (emit _).bind fun elseBlock => ?_
    refine (emit _).bind fun endBlock => (emitUnit _).bind fun _ => ?_
    refine (lowerBranch_binds thenBlock endBlock first).bind fun _ => ?_
    refine (lowerBranch_binds elseBlock endBlock second).bind fun _ => ?_
    exact emitUnit _
  | .ret value span, scope => by
    rw [lowerStmt]
    exact lowerReturn_binds env scope value span
  | .vars kind declarators _, scope => by
    rw [lowerStmt]
    exact declarators_bind env scope kind declarators
  | .whileLoop .., _ | .breakLoop .., _ | .continueLoop .., _ | .empty .., _ => by
    rw [lowerStmt]
    exact skip_binds _ _

theorem lowerOptional_binds (env : Environment) : ∀ (stmt : Option Stmt) (scope : ScopeId),
    Binds scope (Stmt.bindsOptional stmt) (lowerOptional env scope stmt)
  | none, _ => by
    rw [lowerOptional]
    exact pure _
  | some stmt, scope => by
    rw [lowerOptional]
    exact lowerStmt_binds env stmt scope

theorem lowerStmts_bind (env : Environment) : ∀ (stmts : List Stmt) (scope : ScopeId),
    Binds scope (stmts.flatMap Stmt.binds) (lowerStmts env scope stmts)
  | [], _ => by
    rw [lowerStmts]
    exact pure _
  | stmt :: rest, scope => by
    rw [lowerStmts, List.flatMap_cons]
    have first := (lowerStmt_binds env stmt scope).mono
      (List.subset_append_left stmt.binds (rest.flatMap Stmt.binds))
    have others := (lowerStmts_bind env rest scope).mono
      (List.subset_append_right stmt.binds (rest.flatMap Stmt.binds))
    refine LowerBody.Binds.builder.bind fun b => ?_
    split
    · apply LowerBody.Binds.outside
      intro cx a cx' ran
      cases ran
      rfl
    · exact first.bind fun _ => others

end

namespace Sample

/-- The body of `f(x: number): number` up to a point, with the scope that it is in. -/
def upTo (stmts : List Stmt) : LowerBody ScopeId := do
  let inner ← LowerBody.outside (Lower.enter ScopeTable.global none)
  bindParams standard inner (function stmts).params (← LowerBody.builder).function.params
  let entry ← LowerBody.appendBlock "entry"
  LowerBody.emit_ (·.positionAtEnd entry)
  lowerStmts standard inner stmts
  return inner

/-- Where the lowering of `f` starts. -/
def started : BodyState :=
  (Context.initial "m").begun ScopeTable.global ⟨0⟩ (.declare "f" ⟨[.double], .double⟩)

/-- The scope of the body, and the states behind `let y = x` and behind one more statement. -/
def around (stmt : Stmt) : Option (ScopeId × BodyState × BodyState) :=
  match upTo [declare .let_ x] started with
  | .ok scope s =>
    match lowerStmt standard scope stmt s with
    | .ok () t => some (scope, s, t)
    | .error _ _ => none
  | .error _ _ => none

theorem around_ok {stmt : Stmt} {scope : ScopeId} {s t : BodyState}
    (runs : around stmt = some (scope, s, t)) :
    upTo [declare .let_ x] started = .ok scope s ∧
      lowerStmt standard scope stmt s = .ok () t := by
  unfold around at runs
  split at runs
  · rename_i first
    split at runs
    · rename_i second
      cases runs
      exact ⟨first, second⟩
    · cases runs
  · cases runs

/-- The slot of `y` in a scope. -/
def home? (scope : ScopeId) (s : BodyState) : Option Ir.ValueId :=
  match s.context.scopes.lookupIn scope ⟨2⟩ with
  | some (.slot home) => some home.ptr
  | _ => none

/-- `{ let y = x }` -/
def enclosed : Stmt := .block [declare .let_ x] .unplaced

/-- `if (true) let y = x` -/
def branching : Stmt := .ifElse (.bool true .unplaced) (declare .let_ x) none .unplaced

end Sample

end SsaLowering
