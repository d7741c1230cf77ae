/-
# SsaLowering.Proofs.Lower.Traffic -- memory is used as the source says

`Stmt.allTraffic` counts on the source tree what the statements of a body do with memory: a
slot for each `let` or `var`, a write for each of them that has an initial value and for each
assignment, and a read wherever a name that stands for such a variable is used.  A name that is
assigned to is not read, and neither is one that makes up a whole expression statement.  The
lowered function reserves, writes and reads exactly as often, and in no other way
(`Context.Reached.memory_traffic`): no parameter and no constant lives in memory.

Which names stand for variables is followed through the scopes of the source
(`Stmt.rebinds`).  While a body is lowered, they are those that are bound to slots
(`BodyState.Sees`).
-/
import SsaLowering.Proofs.Ir.Traffic
import SsaLowering.Proofs.Lower.Acceptance
import SsaLowering.Proofs.Lower.Opened

namespace SsaLowering

set_option autoImplicit false

open Ir (Ty Action Traffic Function Builder BlockId Operand Terminator)

/-! ## Traffic on the tree -/

/-- Which visible names stand for a `let` or `var` variable. -/
abbrev Mutables := Symbol → Bool

def Mutables.bind (mutables : Mutables) (name : Symbol) (mutability : Bool) : Mutables :=
  fun other => if other = name then mutability else mutables other

mutual

/-- The traffic of an expression.  A name is read where its value is `used`. -/
def Expr.traffic (mutables : Mutables) (used : Bool) : Expr → Traffic
  | .identifier name _ => if used && mutables name then .read else 0
  | .member object _ _ => object.traffic mutables true
  | .call callee args _ => callee.traffic mutables true + Expr.allTraffic mutables args
  | .binary .assign lhs rhs _ =>
    lhs.traffic mutables false + rhs.traffic mutables true + .write
  | .binary _ lhs rhs _ => lhs.traffic mutables true + rhs.traffic mutables true
  | .unary _ operand _ => operand.traffic mutables true
  | .array elements _ => Expr.allTraffic mutables elements
  | .index object position _ => object.traffic mutables true + position.traffic mutables true
  | .bool .. | .number .. | .string .. | .null .. => 0

def Expr.allTraffic (mutables : Mutables) : List Expr → Traffic
  | [] => 0
  | expr :: rest => expr.traffic mutables true + Expr.allTraffic mutables rest

end

/-- A variable has a slot, to which its initial value is written. -/
def Declarator.traffic (mutables : Mutables) (kind : BindingKind) (decl : Declarator) : Traffic :=
  decl.init.elim 0 (·.traffic mutables true) +
    if kind.isMutable then .slot + decl.init.elim 0 fun _ => .write else 0

/-- The names behind declarators, the last of which are the innermost. -/
def Declarator.rebinds (kind : BindingKind) : Mutables → List Declarator → Mutables
  | mutables, [] => mutables
  | mutables, decl :: rest => rebinds kind (mutables.bind decl.name kind.isMutable) rest

def Declarator.allTraffic (kind : BindingKind) : Mutables → List Declarator → Traffic
  | _, [] => 0
  | mutables, decl :: rest =>
    decl.traffic mutables kind + allTraffic kind (mutables.bind decl.name kind.isMutable) rest

mutual

/-- The names behind a statement.  A block keeps its own to itself, and a branch that is no
block does not. -/
def Stmt.rebinds (mutables : Mutables) : Stmt → Mutables
  | .ifElse _ thenBranch elseBranch _ =>
    Stmt.rebindsOptional (thenBranch.rebinds mutables) elseBranch
  | .vars kind declarators _ => Declarator.rebinds kind mutables declarators
  | _ => mutables

def Stmt.rebindsOptional (mutables : Mutables) : Option Stmt → Mutables
  | none => mutables
  | some stmt => stmt.rebinds mutables

end

mutual

/-- The traffic of a statement; one that is skipped has none. -/
def Stmt.traffic (mutables : Mutables) : Stmt → Traffic
  | .block stmts _ => Stmt.allTraffic mutables stmts
  | .expression expr _ => expr.traffic mutables false
  | .ifElse condition thenBranch elseBranch _ =>
    condition.traffic mutables true + thenBranch.traffic mutables +
      Stmt.trafficOptional (thenBranch.rebinds mutables) elseBranch
  | .ret value _ => value.elim 0 (·.traffic mutables true)
  | .vars kind declarators _ => Declarator.allTraffic kind mutables declarators
  | .whileLoop .. | .breakLoop .. | .continueLoop .. | .empty .. => 0

def Stmt.trafficOptional (mutables : Mutables) : Option Stmt → Traffic
  | none => 0
  | some stmt => stmt.traffic mutables

/-- The traffic of statements, up to the first that always returns. -/
def Stmt.allTraffic (mutables : Mutables) : List Stmt → Traffic
  | [] => 0
  | stmt :: rest =>
    stmt.traffic mutables +
      if stmt.closes then 0 else Stmt.allTraffic (stmt.rebinds mutables) rest

end

/-- The traffic of the body of a function, whose parameters are no variables; the names around
it stand for functions and namespaces. -/
def FunctionDecl.traffic (decl : FunctionDecl) : Traffic :=
  decl.body.elim 0 fun body => Stmt.allTraffic (fun _ => false) body.stmts

/-! ## Names that are bound to slots -/

def BoundValue.isSlot : BoundValue → Bool
  | .slot _ => true
  | _ => false

variable {s t u : BodyState} {scope : ScopeId} {env : Environment} {mutables : Mutables}
  {n n' : Traffic}

namespace BodyState

/-- The names that are bound to slots are those of variables, and a namespace has none. -/
structure Sees (s : BodyState) (scope : ScopeId) (mutables : Mutables) : Prop where
  names : ∀ x, (s.context.scopes.resolve scope x).any BoundValue.isSlot = mutables x
  members : ∀ inner, (s.context.scopes.name? inner).isSome → ∀ x,
    (s.context.scopes.lookupIn inner x).any BoundValue.isSlot = false

theorem Sees.congr (sees : s.Sees scope mutables)
    (scopes : t.context.scopes = s.context.scopes) : t.Sees scope mutables where
  names := by
    rw [scopes]
    exact sees.names
  members := by
    rw [scopes]
    exact sees.members

theorem Emits.sees (emits : s.Emits t) (sees : s.Sees scope mutables) : t.Sees scope mutables :=
  sees.congr emits.scopes

theorem Sees.bound (sees : s.Sees scope mutables) (inside : s.context.scopes.contains scope)
    (unnamed : s.context.scopes.name? scope = none) (name : Symbol) (value : BoundValue) :
    (s.bound scope name value).Sees scope (mutables.bind name value.isSlot) where
  names := by
    intro x
    show ((s.context.scopes.assign scope name (some value)).resolve scope x).any _ = _
    rw [ScopeTable.resolve_assign inside, Mutables.bind]
    split
    · rfl
    · exact sees.names x
  members := by
    intro inner named x
    replace named : ((s.context.scopes.assign scope name (some value)).name? inner).isSome := named
    rw [ScopeTable.name?_assign] at named
    show ((s.context.scopes.assign scope name (some value)).lookupIn inner x).any _ = _
    have apart : scope ≠ inner := by
      rintro rfl
      rw [unnamed] at named
      cases named
    rw [ScopeTable.lookupIn_assign, if_neg fun all => apart all.1]
    exact sees.members inner named x

theorem Sees.entered (sees : s.Sees scope mutables) (inside : s.context.scopes.contains scope) :
    (s.entered scope).Sees s.home mutables where
  names := by
    intro x
    have same : (s.entered scope).context.scopes.resolve s.home x =
        s.context.scopes.resolve scope x := ScopeTable.resolve_enter inside none
    rw [same]
    exact sees.names x
  members := by
    intro inner named x
    rw [BodyState.name?_entered] at named
    rw [BodyState.lookupIn_entered]
    exact sees.members inner named x

/-- Where no binding has changed, the same names stand for variables. -/
theorem Sees.spared (sees : s.Sees scope mutables) (spares : s.context.Spares scope t.context) :
    t.Sees scope mutables where
  names := by
    intro x
    have chain := congrArg (List.cons scope) (spares.enclosing scope spares.inside)
    rw [ScopeTable.resolve_congr chain fun other _ => spares.lookups other x]
    exact sees.names x
  members := by
    intro inner named x
    rw [spares.names] at named
    rw [spares.lookups]
    exact sees.members inner named x

/-! ## Traffic of a body -/

/-- Work that adds traffic, and in which each access goes through the address of a slot. -/
structure Trades (s : BodyState) (n : Traffic) (t : BodyState) : Prop where
  count : t.builder.function.traffic = s.builder.function.traffic + n
  addressed : s.builder.function.Addressed → t.builder.function.Addressed

theorem Trades.trans (first : s.Trades n t) (second : t.Trades n' u) :
    s.Trades (n + n') u where
  count := by rw [second.count, first.count, add_assoc]
  addressed := fun addressed => second.addressed (first.addressed addressed)

/-- Work that adds no instruction. -/
theorem Trades.of_instructions
    (same : t.builder.function.instructions = s.builder.function.instructions) :
    s.Trades 0 t where
  count := by rw [Function.traffic_congr same, add_zero]
  addressed := fun addressed => Function.addressed_congr addressed same

theorem Trades.refl (s : BodyState) : s.Trades 0 s := .of_instructions rfl

theorem Trades.push {block : BlockId} (selected : s.builder.Open block) (action : Action)
    (ty : Option Ty) (valid : ∀ ptr, action.address? = some ptr →
      ∃ ty, s.builder.function.IsSlot ptr ty) :
    s.Trades action.traffic (s.push block action ty) := by
  obtain ⟨-, data, known, -⟩ := selected
  have grown := Function.instructions_push known action ty
  exact ⟨Function.traffic_of_perm grown, fun addressed => addressed.of_perm grown valid⟩

/-- Code that is no access. -/
theorem Trades.pushOther {block : BlockId} (selected : s.builder.Open block) {action : Action}
    (ty : Option Ty) (other : action.traffic = 0) : s.Trades 0 (s.push block action ty) := by
  rw [← other]
  refine .push selected action ty fun ptr accesses => ?_
  cases action with
  | load ty ptr => exact absurd other (show Traffic.read ≠ 0 by decide)
  | store value ptr => exact absurd other (show Traffic.write ≠ 0 by decide)
  | _ => cases accesses

theorem withSlot_instructions (local_ : s.Local scope) (ty : Ty) (name : String) :
    (s.withSlot ty name).builder.function.instructions.Perm (s.builder.function.instructions ++
      [⟨some (s.nextSlot ty).ptr, .alloca ty⟩]) := by
  obtain ⟨entry, known⟩ := local_.entry
  exact Function.instructions_reserve known ty _

theorem Trades.withSlot (local_ : s.Local scope) (ty : Ty) (name : String) :
    s.Trades .slot (s.withSlot ty name) := by
  have grown := withSlot_instructions local_ ty name
  exact ⟨Function.traffic_of_perm grown, fun addressed => addressed.of_perm grown nofun⟩

theorem Falls.trades {next : BlockId} (falls : s.Falls next t) (start : BlockId) :
    s.Trades 0 (t.at_ start) := by
  cases falls with
  | ended ended => exact .of_instructions rfl
  | jumped selected checked => exact .of_instructions (Function.instructions_close _ _ _)

theorem Trades.fork (u : BodyState) (block : BlockId) (cond : Operand) (next : BlockId) :
    u.Trades 0 ((u.fork block cond).at_ next) :=
  .of_instructions (u.builder.instructions_fork block cond)

end BodyState

open BodyState (Trades)

/-! ## Expressions -/

/-- What is still to be done for the value of an expression. -/
def ExprValue.traffic : ExprValue → Traffic
  | .direct _ => 0
  | .slot _ => .read

theorem BoundValue.Valid.isSlot {m : Ir.Module} {t : ScopeTable} {f : Function} {home : StackSlot}
    (valid : (BoundValue.slot home).Valid m t f) : f.IsSlot (.value home.ptr) home.ty :=
  Function.isSlot_of_slotTy? valid.1

theorem read_trades {value : ExprValue} {kind : ValueKind} (stands : s.Stands value.bound kind)
    {operand : Operand} (run : value.read s = .ok operand t) : s.Trades value.traffic t := by
  have opened := read_ok run
  cases value with
  | direct given =>
    obtain ⟨-, rfl⟩ := opened
    exact .refl t
  | slot home =>
    obtain ⟨block, ty, selected, -, rfl⟩ := opened
    refine Trades.push selected (.load home.ty (.value home.ptr)) _ fun ptr accesses => ?_
    cases accesses
    exact ⟨_, stands.valid.isSlot⟩

/-- The code of an expression has the traffic of the expression, but for the read of its value
where that is a variable. -/
structure BodyState.Yields (s : BodyState) (expr : Expr) (mutables : Mutables)
    (value : ExprValue) (t : BodyState) : Prop where
  trades : s.Trades (expr.traffic mutables false) t
  whole : expr.traffic mutables true = expr.traffic mutables false + value.traffic

open BodyState (Yields)

/-- Where the value is an operand nothing is left to be read. -/
theorem BodyState.Yields.used {expr : Expr} {value : ExprValue}
    (yields : s.Yields expr mutables value t)
    (direct : value.traffic = 0) : s.Trades (expr.traffic mutables true) t := by
  rw [yields.whole, direct, add_zero]
  exact yields.trades

theorem lowerIdentifier_trades (ready : s.Ready scope) (sees : s.Sees scope mutables)
    {name : Symbol} {span : FileSpan} {value : ExprValue}
    (run : lowerIdentifier env scope name span s = .ok value t) :
    s.Yields (.identifier name span) mutables value t := by
  obtain ⟨found, rfl⟩ := lowerIdentifier_ok ready.inside run
  have named := sees.names name
  rw [found, Option.any_some] at named
  refine ⟨.refl t, ?_⟩
  simp only [Expr.traffic, ← named, Bool.false_and, Bool.true_and]
  cases value <;> rfl

/-- A member of a namespace is no variable, and neither is the namespace. -/
theorem lowerMember_trades (ready : s.Ready scope) (sees : s.Sees scope mutables)
    {object : Expr} {property : Symbol} {span : FileSpan} {value : ExprValue}
    (run : lowerMember env scope object property span s = .ok value t) :
    s.Yields (.member object property span) mutables value t := by
  obtain ⟨name, span', inner, rfl, found, here, rfl⟩ := lowerMember_ok ready run
  have named := sees.names name
  rw [found, Option.any_some] at named
  have nothing (used : Bool) :
      (Expr.member (.identifier name span') property span).traffic mutables used = 0 := by
    simp only [Expr.traffic, ← named]
    rfl
  obtain ⟨home, -, bound⟩ := ScopeTable.lookupIn_of_resolve found
  have plain := sees.members inner (ready.sound.valid home name _ bound) property
  rw [here, Option.any_some] at plain
  cases value with
  | direct operand => exact ⟨nothing false ▸ .refl t, by rw [nothing, nothing]; rfl⟩
  | slot home => cases plain

/-- The operand of an expression, given what the expression does. -/
theorem evaluate_trades {expr : Expr} (ready : s.Ready scope)
    (lowered : ∀ value u, lowerExpr env scope expr s = .ok value u →
      s.Yields expr mutables value u)
    {operand : Operand} (run : evaluate env scope expr s = .ok operand t) :
    s.Trades (expr.traffic mutables true) t := by
  obtain ⟨value, u, found, read⟩ := evaluate_ok.1 run
  obtain ⟨-, kind, stands⟩ := lowerExpr_stands ready found
  have yields := lowered value u found
  rw [yields.whole]
  exact yields.trades.trans (read_trades stands read)

/-- What is called is a function, and the call itself uses no memory. -/
theorem lowerCall_trades {callee : Expr} {value : ExprValue} {found : Nat}
    {args : List Ty → LowerBody (List Operand)} {span : FileSpan} {result : Option Operand}
    (target : s.Yields callee mutables value u)
    (lowered : ∀ params operands v, found = params.length → args params u = .ok operands v →
      u.Trades n v)
    (run : lowerCall env callee value found args span u = .ok result t) :
    s.Trades (callee.traffic mutables true + n) t := by
  obtain ⟨id, params, operands, v, block, ty, rfl, count, arguments, selected, -, rfl⟩ :=
    lowerCall_ok run
  have called : v.Trades 0 (v.push block (.call id operands) ty) := .pushOther selected ty rfl
  have all := (target.used rfl).trans ((lowered params operands v count arguments).trans called)
  rw [add_zero] at all
  exact all

/-- An assignment does not read its target, and writes to it. -/
theorem lowerAssign_trades {lhs rhs : Expr} {span : FileSpan} {value : ExprValue}
    (ready : s.Ready scope)
    (first : ∀ value u, lowerExpr env scope lhs s = .ok value u → s.Yields lhs mutables value u)
    (second : ∀ u, s.Emits u → ∀ value v, lowerExpr env scope rhs u = .ok value v →
      u.Yields rhs mutables value v)
    (run : lowerExpr env scope (.binary .assign lhs rhs span) s = .ok value t) :
    s.Yields (.binary .assign lhs rhs span) mutables value t := by
  obtain ⟨home, u, stored, v, block, lowered, evaluated, selected, rfl, rfl⟩ :=
    lowerExpr_assign_ok run
  obtain ⟨emits, kind, stands⟩ := lowerExpr_stands ready lowered
  have ready' := emits.ready ready
  have valid := (stands.emits (evaluate_stands ready' evaluated).1).valid.isSlot
  have written := Trades.push selected (.store stored (.value home.ptr)) none
    fun ptr accesses => ⟨home.ty, by cases accesses; exact valid⟩
  have operands :=
    (first _ _ lowered).trades.trans (evaluate_trades ready' (second _ emits) evaluated)
  constructor <;> simp only [Expr.traffic]
  · exact operands.trans written
  · exact (add_zero _).symm

theorem lowerAdd_trades {lhs rhs : Expr} {span : FileSpan} {value : ExprValue}
    (ready : s.Ready scope)
    (first : ∀ value u, lowerExpr env scope lhs s = .ok value u → s.Yields lhs mutables value u)
    (second : ∀ u, s.Emits u → ∀ value v, lowerExpr env scope rhs u = .ok value v →
      u.Yields rhs mutables value v)
    (run : lowerExpr env scope (.binary .add lhs rhs span) s = .ok value t) :
    s.Yields (.binary .add lhs rhs span) mutables value t := by
  obtain ⟨left, u, right, v, block, ty, evaluated, evaluated', selected, rfl, rfl⟩ :=
    lowerExpr_add_ok run
  have emits := (evaluate_stands ready evaluated).1
  have operands := (evaluate_trades ready first evaluated).trans
    (evaluate_trades (emits.ready ready) (second _ emits) evaluated')
  have summed : v.Trades 0 (v.push block (.fadd left right) (some ty)) :=
    .pushOther selected _ rfl
  have all := operands.trans summed
  rw [add_zero] at all
  constructor <;> simp only [Expr.traffic]
  · exact all
  · exact (add_zero _).symm

mutual

theorem lowerExpr_trades (env : Environment) : ∀ (expr : Expr) {scope : ScopeId}
    {s t : BodyState} {value : ExprValue} {mutables : Mutables}, s.Ready scope →
      s.Sees scope mutables → lowerExpr env scope expr s = .ok value t →
        s.Yields expr mutables value t
  | .identifier name span, scope, s, t, value, mutables, ready, sees, run => by
    rw [lowerExpr] at run
    exact lowerIdentifier_trades ready sees run
  | .member object property span, scope, s, t, value, mutables, ready, sees, run => by
    rw [lowerExpr] at run
    exact lowerMember_trades ready sees run
  | .call callee args span, scope, s, t, value, mutables, ready, sees, run => by
    obtain ⟨target, u, operand, lowered, called, rfl⟩ := lowerExpr_call_ok run
    have emits := (lowerExpr_stands ready lowered).1
    have all := lowerCall_trades (lowerExpr_trades env callee ready sees lowered)
      (fun _ _ _ => lowerArgs_trades env args (emits.ready ready) (emits.sees sees)) called
    constructor <;> simp only [Expr.traffic]
    · exact all
    · exact (add_zero _).symm
  | .binary op lhs rhs span, scope, s, t, value, mutables, ready, sees, run => by
    have first (value : ExprValue) (u : BodyState)
        (run : lowerExpr env scope lhs s = .ok value u) : s.Yields lhs mutables value u :=
      lowerExpr_trades env lhs ready sees run
    have second (u : BodyState) (emits : s.Emits u) (value : ExprValue) (v : BodyState)
        (run : lowerExpr env scope rhs u = .ok value v) : u.Yields rhs mutables value v :=
      lowerExpr_trades env rhs (emits.ready ready) (emits.sees sees) run
    rcases lowerExpr_binary_ok run with rfl | rfl
    · exact lowerAssign_trades ready first second run
    · exact lowerAdd_trades ready first second run
  | .bool literal span, scope, s, t, value, mutables, ready, sees, run => by
    rw [lowerExpr] at run
    cases run
    exact ⟨.refl s, rfl⟩
  | .number literal span, scope, s, t, value, mutables, ready, sees, run => by
    rw [lowerExpr] at run
    cases run
    exact ⟨.refl s, rfl⟩
  | .string text span, scope, s, t, value, mutables, ready, sees, run => by
    rw [lowerExpr] at run
    obtain ⟨ty, -, rfl, rfl⟩ := lowerString_ok run
    exact ⟨.of_instructions rfl, rfl⟩
  | .unary .., _, _, _, _, _, _, _, run | .null .., _, _, _, _, _, _, _, run
  | .array .., _, _, _, _, _, _, _, run | .index .., _, _, _, _, _, _, _, run => by
    rw [lowerExpr] at run
    cases run

/-- As many arguments as there are parameters are all lowered. -/
theorem lowerArgs_trades (env : Environment) : ∀ (args : List Expr) {params : List Ty}
    {scope : ScopeId} {s t : BodyState} {operands : List Operand} {mutables : Mutables},
    s.Ready scope → s.Sees scope mutables → args.length = params.length →
      lowerArgs env scope args params s = .ok operands t →
        s.Trades (Expr.allTraffic mutables args) t
  | [], params, scope, s, t, operands, mutables, ready, sees, count, run => by
    rw [lowerArgs] at run
    · cases run
      exact .refl s
    · simp
  | arg :: args, [], scope, s, t, operands, mutables, ready, sees, count, run => by
    cases count
  | arg :: args, param :: params, scope, s, t, operands, mutables, ready, sees, count, run => by
    obtain ⟨operand, u, rest, evaluated, lowered, rfl⟩ := lowerArgs_cons_ok run
    have emits := (evaluate_stands ready evaluated).1
    have first := evaluate_trades ready (fun _ _ => lowerExpr_trades env arg ready sees) evaluated
    exact first.trans (lowerArgs_trades env args (emits.ready ready) (emits.sees sees)
      (Nat.succ.inj count) lowered)

end

/-! ## Statements -/

section Statements

theorem operand_trades (ready : s.Ready scope) (sees : s.Sees scope mutables) {expr : Expr}
    {operand : Operand} (run : evaluate env scope expr s = .ok operand t) :
    s.Trades (expr.traffic mutables true) t :=
  evaluate_trades ready (fun _ _ => lowerExpr_trades env expr ready sees) run

/-- Of an expression that stands as a statement no value is read. -/
theorem expressionStatement_trades (ready : s.Ready scope) (sees : s.Sees scope mutables)
    {expr : Expr} {span : FileSpan}
    (run : lowerStmt env scope (.expression expr span) s = .ok () t) :
    s.Trades (expr.traffic mutables false) t := by
  rcases expressionStatement_ok run with
    ⟨callee, args, span', target, u, result, rfl, lowered, called⟩ | ⟨value, lowered⟩
  · have emits := (lowerExpr_stands ready lowered).1
    simp only [Expr.traffic]
    exact lowerCall_trades (lowerExpr_trades env callee ready sees lowered)
      (fun _ _ _ => lowerArgs_trades env args (emits.ready ready) (emits.sees sees)) called
  · exact (lowerExpr_trades env expr ready sees lowered).trades

theorem BodyState.Declares.trades {decl : Declarator} {kind : BindingKind}
    (declares : s.Declares env scope decl kind.isMutable t) (local_ : s.Local scope)
    (sees : s.Sees scope mutables) :
    s.Trades (decl.traffic mutables kind) t ∧
      t.Sees scope (mutables.bind decl.name kind.isMutable) := by
  unfold Declarator.traffic
  generalize kind.isMutable = mutability at declares
  cases declares with
  | @constant expr operand u b init run grown ok current blocks =>
    have emits := (evaluate_stands local_.toReady run).1
    have local' := emits.local local_
    have evaluated := operand_trades local_.toReady sees run
    have named : u.Trades 0 ((u.rebuilt b).bound scope decl.name (.direct operand)) :=
      .of_instructions (congrArg (List.flatMap _) blocks)
    have here : (u.rebuilt b).Sees scope mutables := (emits.sees sees).congr rfl
    rw [init]
    exact ⟨evaluated.trans named,
      here.bound local'.inside local'.unnamed decl.name (.direct operand)⟩
  | @blank ty init sized =>
    have reserved := Trades.withSlot local_ ty (env.name decl.name)
    have here : (s.withSlot ty (env.name decl.name)).Sees scope mutables := sees.congr rfl
    rw [init]
    refine ⟨?_, here.bound local_.inside local_.unnamed decl.name (.slot (s.nextSlot ty))⟩
    show s.Trades (0 + (.slot + 0)) _
    rw [zero_add, add_zero]
    exact ⟨reserved.count, reserved.addressed⟩
  | @stored expr operand u ty block init run sized selected checked =>
    have emits := (evaluate_stands local_.toReady run).1
    have local' := emits.local local_
    have evaluated := operand_trades local_.toReady sees run
    have reserved := Trades.withSlot local' ty (env.name decl.name)
    have slot := BodyState.withSlot_instructions local' ty (env.name decl.name)
    have written := Trades.push selected (.store operand (.value (u.nextSlot ty).ptr)) none
      fun ptr accesses => by
        cases accesses
        exact ⟨ty, _, rfl, slot.mem_iff.2 (List.mem_append_right _ (List.mem_singleton.2 rfl))⟩
    have here : ((u.withSlot ty (env.name decl.name)).push block
        (.store operand (.value (u.nextSlot ty).ptr)) none).Sees scope mutables :=
      (emits.sees sees).congr rfl
    rw [init]
    have all := evaluated.trans (reserved.trans written)
    exact ⟨⟨all.count, all.addressed⟩,
      here.bound local'.inside local'.unnamed decl.name (.slot (u.nextSlot ty))⟩

theorem declarators_trade (kind : BindingKind) :
    ∀ {declarators : List Declarator} {s t : BodyState} {mutables : Mutables}, s.Local scope →
      s.Sees scope mutables → declarators.forM (lowerDeclarator env scope kind) s = .ok () t →
        s.Trades (Declarator.allTraffic kind mutables declarators) t ∧
          t.Sees scope (Declarator.rebinds kind mutables declarators)
  | [], s, t, mutables, local_, sees, run => by
    cases run
    exact ⟨.refl s, sees⟩
  | decl :: rest, s, t, mutables, local_, sees, run => by
    obtain ⟨u, first, run⟩ := declarators_cons_ok run
    obtain ⟨names, -, done, after⟩ := (lowerDeclarator_foretold env kind local_ decl).of_ok first
    obtain ⟨declared, sees'⟩ := (lowerDeclarator_ok local_ first).trades local_ sees
    obtain ⟨others, behind⟩ := declarators_trade kind (after.local local_ done.1) sees' run
    exact ⟨declared.trans others, behind⟩

theorem lowerReturn_trades (local_ : s.Local scope) (sees : s.Sees scope mutables)
    {value : Option Expr} {span : FileSpan}
    (run : lowerReturn env scope value span s = .ok () t) :
    s.Trades (value.elim 0 (·.traffic mutables true)) t ∧ t.Sees scope mutables := by
  obtain ⟨u, operand, block, selected, checked, rfl, returns⟩ := lowerReturn_ok run
  have closed : u.Trades 0 (u.rebuilt (u.builder.closed block (.ret operand))) :=
    .of_instructions (Function.instructions_close _ _ _)
  cases returns with
  | nothing => exact ⟨closed, sees.congr rfl⟩
  | value evaluated =>
    have emits := (evaluate_stands local_.toReady evaluated).1
    have all := (operand_trades local_.toReady sees evaluated).trans closed
    rw [add_zero] at all
    exact ⟨all, (emits.sees sees).congr rfl⟩

theorem skip_trades (sees : s.Sees scope mutables) {kind : SyntaxKind} {span : FileSpan}
    (run : skip kind span s = .ok () t) : s.Trades 0 t ∧ t.Sees scope mutables := by
  obtain rfl := skip_ok run
  exact ⟨.of_instructions rfl, sees.congr rfl⟩

section Forks

variable {condition : Expr} {thenBranch : Stmt} {elseBranch : Option Stmt} {cond : Operand}
  {block : BlockId} {v v' w w' : BodyState}

theorem BodyState.Forks.thenSees
    (forks : s.Forks env scope condition thenBranch elseBranch cond block u v v' w w' t)
    (sees : s.Sees scope mutables) : ((u.fork block cond).at_ ⟨u.next⟩).Sees scope mutables :=
  (forks.emits.sees sees).congr rfl

theorem BodyState.Forks.elseSees
    (forks : s.Forks env scope condition thenBranch elseBranch cond block u v v' w w' t)
    (sees : v.Sees scope mutables) : (v'.at_ ⟨u.next + 1⟩).Sees scope mutables :=
  sees.congr (congrArg (·.scopes) forks.thenFalls.context)

theorem BodyState.Forks.sees
    (forks : s.Forks env scope condition thenBranch elseBranch cond block u v v' w w' t)
    (sees : w.Sees scope mutables) : t.Sees scope mutables := by
  rw [forks.last]
  exact sees.congr (congrArg (·.scopes) forks.elseFalls.context)

/-- The jumps of a conditional use no memory. -/
theorem BodyState.Forks.trades {branch branch' : Traffic}
    (forks : s.Forks env scope condition thenBranch elseBranch cond block u v v' w w' t)
    (condition : s.Trades n u) (first : ((u.fork block cond).at_ ⟨u.next⟩).Trades branch v)
    (second : (v'.at_ ⟨u.next + 1⟩).Trades branch' w) : s.Trades (n + branch + branch') t := by
  have start := condition.trans (.fork u block cond ⟨u.next⟩)
  have between : v.Trades 0 (v'.at_ ⟨u.next + 1⟩) := forks.thenFalls.trades _
  have behind : w.Trades 0 t := by
    rw [forks.last]
    exact forks.elseFalls.trades _
  have all := (((start.trans first).trans between).trans second).trans behind
  simpa only [add_zero] using all

end Forks

mutual

/-- The code of a statement has the traffic of the statement. -/
theorem lowerStmt_trades (env : Environment) : ∀ (stmt : Stmt) {scope : ScopeId}
    {s t : BodyState} {mutables : Mutables}, s.Local scope → s.Sees scope mutables →
      lowerStmt env scope stmt s = .ok () t →
        s.Trades (stmt.traffic mutables) t ∧ t.Sees scope (stmt.rebinds mutables)
  | .block stmts span, scope, s, t, mutables, local_, sees, run => by
    obtain ⟨u, inner, rfl⟩ := block_ok local_.inside run
    have trades := lowerStmts_trades env stmts local_.entered (sees.entered local_.inside) inner
    rw [Stmt.traffic, Stmt.rebinds]
    · exact ⟨⟨trades.count, trades.addressed⟩, sees.spared (block_spares local_ inner)⟩
    all_goals simp
  | .expression expr span, scope, s, t, mutables, local_, sees, run => by
    have emits := expressionStatement_emits local_.toReady run
    rw [Stmt.traffic, Stmt.rebinds]
    · exact ⟨expressionStatement_trades local_.toReady sees run, emits.sees sees⟩
    all_goals simp
  | .ifElse condition thenBranch elseBranch span, scope, s, t, mutables, local_, sees, run => by
    obtain ⟨cond, block, u, v, v', w, w', forks⟩ := ifElse_ok local_ run
    obtain ⟨first, behind⟩ :=
      lowerStmt_trades env thenBranch forks.thenLocal (forks.thenSees sees) forks.thenRun
    obtain ⟨second, behind'⟩ :=
      lowerOptional_trades env elseBranch forks.elseLocal (forks.elseSees behind) forks.elseRun
    rw [Stmt.traffic, Stmt.rebinds]
    exact ⟨forks.trades (operand_trades local_.toReady sees forks.condition) first second,
      forks.sees behind'⟩
  | .ret value span, scope, s, t, mutables, local_, sees, run => by
    rw [lowerStmt] at run
    rw [Stmt.traffic, Stmt.rebinds]
    · exact lowerReturn_trades local_ sees run
    all_goals simp
  | .vars kind declarators span, scope, s, t, mutables, local_, sees, run => by
    rw [lowerStmt] at run
    rw [Stmt.traffic, Stmt.rebinds]
    exact declarators_trade kind local_ sees run
  | .whileLoop .., _, _, _, _, _, sees, run | .breakLoop .., _, _, _, _, _, sees, run
  | .continueLoop .., _, _, _, _, _, sees, run | .empty .., _, _, _, _, _, sees, run => by
    rw [lowerStmt] at run
    exact skip_trades sees run

theorem lowerOptional_trades (env : Environment) : ∀ (stmt : Option Stmt) {scope : ScopeId}
    {s t : BodyState} {mutables : Mutables}, s.Local scope → s.Sees scope mutables →
      lowerOptional env scope stmt s = .ok () t →
        s.Trades (Stmt.trafficOptional mutables stmt) t ∧
          t.Sees scope (Stmt.rebindsOptional mutables stmt)
  | none, scope, s, t, mutables, local_, sees, run => by
    rw [lowerOptional] at run
    cases run
    exact ⟨.refl s, sees⟩
  | some stmt, scope, s, t, mutables, local_, sees, run => by
    rw [lowerOptional] at run
    exact lowerStmt_trades env stmt local_ sees run

theorem lowerStmts_trades (env : Environment) : ∀ (stmts : List Stmt) {scope : ScopeId}
    {s t : BodyState} {mutables : Mutables}, s.Local scope → s.Sees scope mutables →
      lowerStmts env scope stmts s = .ok () t → s.Trades (Stmt.allTraffic mutables stmts) t
  | [], scope, s, t, mutables, local_, sees, run => by
    rw [lowerStmts] at run
    cases run
    exact .refl s
  | stmt :: rest, scope, s, t, mutables, local_, sees, run => by
    obtain ⟨u, first, onward⟩ := lowerStmts_cons_cases local_ run
    obtain ⟨trades, sees'⟩ := lowerStmt_trades env stmt local_ sees first
    rw [Stmt.allTraffic]
    apply trades.trans
    rcases onward with ⟨closes, -, journal, rfl⟩ | ⟨closes, local', run⟩ <;> rw [closes]
    · exact .of_instructions rfl
    · exact lowerStmts_trades env rest local' sees' run

end

end Statements

/-! ## Bodies and functions -/

section Bodies

/-- Around a body no name stands for a variable, and its parameters do not either. -/
theorem BodyState.Starts.sees {params : List Param} {tys : List Ty}
    (starts : s.Starts scope params tys t) (fresh : ∀ id, ¬ s.Bound id) :
    t.Sees s.home fun _ => false := by
  have plain (other : ScopeId) (x : Symbol) :
      (t.context.scopes.lookupIn other x).any BoundValue.isSlot = false := by
    cases here : t.context.scopes.lookupIn other x with
    | none => rfl
    | some bound =>
      rcases starts.lookupIn here with before | ⟨id, -, rfl⟩
      · cases bound with
        | slot home => exact absurd ⟨other, x, _, before, rfl⟩ (fresh home.ptr)
        | _ => rfl
      · rfl
  refine ⟨fun x => ?_, fun inner _ x => plain inner x⟩
  cases found : t.context.scopes.resolve s.home x with
  | none => rfl
  | some bound =>
    obtain ⟨home, -, here⟩ := ScopeTable.lookupIn_of_resolve found
    rw [← here]
    exact plain home x

theorem BodyState.Sealed.trades {span : FileSpan} (sealed : s.Sealed span t) : s.Trades 0 t := by
  cases sealed with
  | ended ended => exact .refl s
  | fell selected context => exact .of_instructions (Function.instructions_close _ _ _)

/-- A body that is built has the traffic of its statements. -/
theorem buildBody_traffic {decl : FunctionDecl} {ty : Ir.FunctionTy} {stmts : List Stmt}
    (declared : s.Declared scope ty) (count : decl.params.length = ty.params.length)
    (fresh : ∀ id, ¬ s.Bound id) (run : buildBody env scope decl stmts s = .ok () t) :
    t.builder.function.traffic = Stmt.allTraffic (fun _ => false) stmts ∧
      t.builder.function.Addressed := by
  obtain ⟨p, q, starts, body, sealed⟩ := buildBody_ok declared count run
  have trades := lowerStmts_trades env stmts starts.local_ (starts.sees fresh) body
  have ended : q.Trades 0 t := ⟨sealed.trades.count, sealed.trades.addressed⟩
  obtain ⟨whole, addressed⟩ := trades.trans ended
  have blank : p.builder.function.instructions = [] := by
    obtain ⟨label, entry⟩ := starts.entry
    rw [Function.instructions, entry]
    rfl
  have nothing : p.builder.function.traffic = 0 := by
    rw [Function.traffic, blank]
    rfl
  rw [nothing, zero_add, add_zero] at whole
  refine ⟨whole, addressed fun inst member => ?_⟩
  rw [blank] at member
  cases member

end Bodies

/-- A function that is lowered uses memory as its source says: it has a slot for each variable,
a write for each initial value of one and each assignment, and a read for each use of a name
that stands for one.  The slots lead the entry block, every access goes through the address of
one at the type that it holds, and none through a parameter. -/
theorem Context.Reached.memory_traffic {cx cx' : Context} (reached : cx.Reached)
    (env : Environment) (scope : ScopeId) (decl : FunctionDecl)
    (run : lowerFunction env scope decl cx = .ok () cx') :
    ∃ f, cx'.module.functions = cx.module.functions ++ [f] ∧ f.traffic = decl.traffic ∧
      f.UsesSlots := by
  have sound := reached.sound
  have outcome : FunctionOutcome env scope decl cx (lowerFunction env scope decl cx) :=
    lowerFunction_outcome sound
  rw [run] at outcome
  cases outcome with
  | @external signature linkage header absent =>
    refine ⟨.declare linkage signature, rfl, ?_, ?_⟩
    · rw [FunctionDecl.traffic, absent]
      rfl
    · exact (Function.wellFormed_declare cx.module linkage signature).usesSlots nofun
  | @installed signature linkage body t header present build passed =>
    obtain ⟨-, -, built⟩ := building_ok sound header build
    have declared := sound.begun header.inside decl.name linkage signature
    obtain ⟨traffic, addressed⟩ := buildBody_traffic declared
      (signature?_ok.1 header.typed).params_length
      (fun id => sound.not_bound decl.name _ id) build
    refine ⟨t.builder.function, rfl, ?_, built.function.usesSlots addressed⟩
    rw [FunctionDecl.traffic, present]
    exact traffic

/-- `let y = x; y; y = y; { const y = x; y; } return y` -/
def Sample.revisiting : FunctionDecl :=
  function [declare .let_ x, .expression y .unplaced,
    .expression (.binary .assign y y .unplaced) .unplaced,
    .block [declare .const x, .expression y .unplaced] .unplaced, .ret (some y) .unplaced]

theorem Context.Reached.memory_traffic_sample :
    (Context.initial "m").Reached ∧
      ∃ f cx', lowerFunction Sample.standard ScopeTable.global Sample.revisiting (.initial "m") =
          .ok () cx' ∧ cx'.module.functions = [f] ∧ f.traffic = ⟨1, 2, 2⟩ ∧ f.UsesSlots := by
  have reached : (Context.initial "m").Reached := ⟨"m", .refl⟩
  refine ⟨reached, ?_⟩
  have passes : ((lowerFunction Sample.standard ScopeTable.global Sample.revisiting).finished?
      (.initial "m")).isSome = true := by cbv
  obtain ⟨cx', finished⟩ := Option.isSome_iff_exists.1 passes
  have run := Lower.ok_of_finished finished
  obtain ⟨f, added, traffic, uses⟩ :=
    reached.memory_traffic Sample.standard ScopeTable.global Sample.revisiting run
  have counted : Sample.revisiting.traffic = ⟨1, 2, 2⟩ := by cbv
  exact ⟨f, cx', run, added, traffic.trans counted, uses⟩

end SsaLowering
