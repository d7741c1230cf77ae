/-
# SsaLowering.Proofs.Meaning.Statement -- lowered statements do what the statements do

Over what a statement was lowered to, a machine that follows the source program arrives
where the statement ends: at the point behind it, with its memory and its names, or at a
return of its value (`lowerStmt_arrives`).  Two things are asked of a statement: none of
its parts was skipped with a warning, and no branch is directly a variable statement,
since the names of such a branch stay bound behind the conditional.
-/
import SsaLowering.Proofs.Meaning.Expression

namespace SsaLowering

set_option autoImplicit false

open Ir (Ty Module Function Builder ValueId BlockId Operand Instruction Terminator Machine Exit)
open Ir.Machine (Passes Has Continues Reaches)

/-! ## Warnings -/

/-- The warnings about constructs that were skipped. -/
def Context.unhandled (cx : Context) : List Diagnostic :=
  cx.diagnostics.filter (·.code = .unhandledSyntax)

section Warnings

variable {cx cx' cx'' : Context} {scope scope' : ScopeId}

theorem Context.Grows.unhandled (grows : cx.Grows scope cx') : cx.unhandled <+: cx'.unhandled :=
  grows.diagnostics.filter _

/-- Of two steps that skip nothing together neither does. -/
theorem Context.unhandled_between (first : cx.unhandled <+: cx'.unhandled)
    (second : cx'.unhandled <+: cx''.unhandled) (quiet : cx''.unhandled = cx.unhandled) :
    cx'.unhandled = cx.unhandled ∧ cx''.unhandled = cx'.unhandled := by
  have same : cx.unhandled = cx'.unhandled :=
    first.eq_of_length_le (quiet ▸ second.length_le)
  exact ⟨same.symm, quiet.trans same⟩

end Warnings

variable {m : Module} {world : World} {f : Function} {scope scope' : ScopeId} {env : Environment}
  {s t u v : BodyState} {c d e : Machine} {homes homes' : List ValueId} {frames frames' : Frames}
  {memory memory' : Memory} {block : BlockId} {n k : Nat} {flow : Flow}

/-- A construct that is skipped leaves a warning. -/
theorem skip_unhandled {kind : SyntaxKind} {span : FileSpan} (run : skip kind span s = .ok () t) :
    t.context.unhandled ≠ s.context.unhandled := by
  obtain rfl := skip_ok run
  intro same
  have longer := congrArg List.length same
  simp [Context.unhandled, Context.warn, List.filter_append, Diagnostic.code] at longer

/-! ## Names behind a statement -/

/-- A later state in which no binding has changed. -/
structure BodyState.SameNames (scope : ScopeId) (s t : BodyState) : Prop where
  grows : s.context.Grows scope t.context
  function : s.builder.function.Extends t.builder.function
  lookups : ∀ other x, t.context.scopes.lookupIn other x = s.context.scopes.lookupIn other x

namespace BodyState.SameNames

variable (same : s.SameNames scope t)
include same

theorem resolve (x : Symbol) :
    t.context.scopes.resolve scope x = s.context.scopes.resolve scope x :=
  ScopeTable.resolve_congr
    (congrArg (List.cons scope) (same.grows.enclosing scope same.grows.inside))
    fun other _ => same.lookups other x

theorem trans (later : t.SameNames scope u) : s.SameNames scope u where
  grows := same.grows.trans later.grows
  function := same.function.trans later.function
  lookups := fun other x => (later.lookups other x).trans (same.lookups other x)

theorem at_ (block : BlockId) : s.SameNames scope (t.at_ block) :=
  ⟨same.grows, same.function, same.lookups⟩

/-- Names that are bound as before mean the same as before. -/
theorem agrees (agrees : Agrees m homes s scope c frames)
    (unnamed : s.context.scopes.name? scope = none)
    (kept : ∀ id, id.index < s.count → d.registers id = c.registers id)
    (longer : homes <+: homes') : Agrees m homes' t scope d frames :=
  agrees.mono kept same.function.count longer (same.grows.namespaces unnamed) same.resolve

end BodyState.SameNames

mutual

/-- A statement that declares no variables changes no binding. -/
theorem lowerStmt_lookups (env : Environment) : ∀ (stmt : Stmt) {scope : ScopeId}
    {s t : BodyState}, stmt.isVars = false → stmt.bareBranch Stmt.isVars = false →
      s.Local scope → lowerStmt env scope stmt s = .ok () t →
        ∀ other x, t.context.scopes.lookupIn other x = s.context.scopes.lookupIn other x
  | .block stmts span, scope, s, t, _, _, local_, run => by
    obtain ⟨u, inner, rfl⟩ := block_ok local_.inside run
    exact (block_spares local_ inner).lookups
  | .expression expr span, scope, s, t, _, _, local_, run => by
    intro other x
    rw [(expressionStatement_emits local_.toReady run).scopes]
  | .ifElse condition thenBranch elseBranch span, scope, s, t, _, clear, local_, run => by
    obtain ⟨cond, block, u, v, v', w, w', forks⟩ := ifElse_ok local_ run
    rw [Stmt.bareBranch] at clear
    simp only [Bool.or_eq_false_iff] at clear
    obtain ⟨⟨⟨thenBare, elseBare⟩, thenClear⟩, elseClear⟩ := clear
    have first := lowerStmt_lookups env thenBranch thenBare thenClear forks.thenLocal forks.thenRun
    have second := lowerOptional_lookups env elseBranch elseBare elseClear forks.elseLocal
      forks.elseRun
    intro other x
    rw [forks.last]
    show w'.context.scopes.lookupIn other x = _
    rw [forks.elseFalls.context, second other x]
    show v'.context.scopes.lookupIn other x = _
    rw [forks.thenFalls.context, first other x]
    show u.context.scopes.lookupIn other x = _
    rw [forks.emits.scopes]
  | .ret value span, scope, s, t, _, _, local_, run => by
    rw [lowerStmt] at run
    obtain ⟨u, operand, block, -, -, rfl, returns⟩ := lowerReturn_ok run
    intro other x
    show u.context.scopes.lookupIn other x = _
    rw [(returns.emits local_.toReady).scopes]
  | .vars kind declarators span, scope, s, t, other, _, _, _ => by
    rw [Stmt.isVars] at other
    cases other
  | .whileLoop .., _, _, _, _, _, _, run | .breakLoop .., _, _, _, _, _, _, run
  | .continueLoop .., _, _, _, _, _, _, run | .empty .., _, _, _, _, _, _, run => by
    rw [lowerStmt] at run
    obtain rfl := skip_ok run
    exact fun _ _ => rfl

theorem lowerOptional_lookups (env : Environment) : ∀ (stmt : Option Stmt) {scope : ScopeId}
    {s t : BodyState}, stmt.any Stmt.isVars = false →
      Stmt.bareBranchOptional Stmt.isVars stmt = false → s.Local scope →
        lowerOptional env scope stmt s = .ok () t →
          ∀ other x, t.context.scopes.lookupIn other x = s.context.scopes.lookupIn other x
  | none, scope, s, t, _, _, local_, run => by
    rw [lowerOptional] at run
    cases run
    exact fun _ _ => rfl
  | some stmt, scope, s, t, bare, clear, local_, run => by
    rw [lowerOptional] at run
    rw [Stmt.bareBranchOptional] at clear
    exact lowerStmt_lookups env stmt bare clear local_ run

end

/-! ## Where runs arrive -/

/-- Where the machine is behind a statement: at the point of the state, with the memory and the
names there, or at a return of the value. -/
inductive Ir.Machine.Arrives (m : Module) (world : World) (f : Function) (homes : List ValueId)
    (n : Nat) (c : Machine) (t : BodyState) (scope : ScopeId) : Flow → Prop
  | normal {homes' : List ValueId} {frames : Frames} {memory : Memory} {d : Machine}
      (goes : Continues m world f n c d) (longer : homes <+: homes') (more : n ≤ t.count)
      (follows : Follows m f homes' t scope frames memory d) :
      Arrives m world f homes n c t scope (.normal frames memory)
  | returned {value : Option Value} {memory : Memory} {d : Machine}
      (reaches : Reaches m world f c d)
      (exits : d.step m world f = some (.inr (.returned value)))
      (trace : d.trace = memory.trace) :
      Arrives m world f homes n c t scope (.returned value memory)

open Ir.Machine (Arrives)

namespace Ir.Machine.Arrives

/-- The machine came from elsewhere. -/
theorem after (arrives : Arrives m world f homes' k d t scope flow)
    (goes : Continues m world f n c d) (longer : homes <+: homes') (less : n ≤ k) :
    Arrives m world f homes n c t scope flow := by
  cases arrives with
  | normal goes' longer' more follows =>
    exact .normal (goes.trans goes' less) (longer.trans longer') (Nat.le_trans less more) follows
  | returned reaches exits trace => exact .returned (goes.reaches.trans reaches) exits trace

/-- Behind a construct with names of its own the names are those before it. -/
theorem within (arrives : Arrives m world f homes n c u scope' flow)
    (builder : t.builder = u.builder)
    (agrees : ∀ homes' d, (∀ id, id.index < n → d.registers id = c.registers id) →
      homes <+: homes' → Agrees m homes' t scope d frames) :
    Arrives m world f homes n c t scope (flow.within frames) := by
  cases arrives with
  | @normal homes' _ memory d goes longer more follows =>
    have count : t.count = u.count := by rw [BodyState.count, builder, BodyState.count]
    refine .normal goes longer (count ▸ more) ⟨⟨?_, count ▸ follows.matches_.holds⟩,
      agrees homes' d goes.kept longer⟩
    exact follows.matches_.at_.congr (by rw [builder]) (by rw [builder]) rfl rfl
  | returned reaches exits trace => exact .returned reaches exits trace

end Ir.Machine.Arrives

/-! ## Variables -/

/-- A builder that has the blocks of another stands at the same point. -/
theorem Follows.rebuilt {b : Builder} (follows : Follows m f homes s scope frames memory c)
    (grown : s.builder.function.Extends b.function) (current : b.current = s.builder.current)
    (blocks : b.function.blocks = s.builder.function.blocks) :
    Follows m f homes (s.rebuilt b) scope frames memory c where
  matches_ := by
    refine ⟨follows.matches_.at_.congr current ?_ rfl rfl,
      follows.matches_.holds.congr rfl rfl grown.count⟩
    show b.function.content c.block = _
    rw [Function.content, Function.content, Function.block?, Function.block?, blocks]
  agrees := follows.agrees.mono (fun _ _ => rfl) grown.count List.prefix_rfl (.of_scopes rfl)
    fun _ => rfl

/-- A name was bound to what it means. -/
theorem Follows.bound (follows : Follows m f homes s scope frames memory c)
    (inside : s.context.scopes.contains scope) (unnamed : s.context.scopes.name? scope = none)
    (name : Symbol) {value : BoundValue} {meaning : Meaning}
    (means : Means m homes s c value meaning) :
    Follows m f homes (s.bound scope name value) scope (frames.bind name meaning) memory c where
  matches_ := ⟨follows.matches_.at_.congr rfl rfl rfl rfl, follows.matches_.holds⟩
  agrees := follows.agrees.bind inside unnamed name means

/-- A slot was reserved: it is the cell of a new variable. -/
theorem Follows.withSlot (follows : Follows m f homes s scope frames memory c)
    (local_ : s.Local scope) {ty : Ty} (sized : ty.isSized) (name : String)
    (within : (s.withSlot ty name).Within m f) :
    Follows m f (homes ++ [(s.nextSlot ty).ptr]) (s.withSlot ty name) scope frames
      (memory.allocate .unset) c := by
  have count : (s.withSlot ty name).count = s.count + 1 := by
    simp [BodyState.count, BodyState.withSlot, BodyState.rebuilt, Builder.withSlot,
      Function.reserve]
  have slot : (f.slotTy? (.value ⟨s.count⟩)).isSome := by
    have new : (s.withSlot ty name).builder.function.slotTy? (.value ⟨s.count⟩) = some ty :=
      (local_.valid_nextSlot sized name).1
    rw [within.function.slots ⟨s.count⟩ (Nat.lt_of_lt_of_eq (Nat.lt_succ_self _) count.symm), new]
    rfl
  have more : s.count ≤ (s.withSlot ty name).count := count ▸ Nat.le_succ _
  refine ⟨⟨follows.matches_.at_.congr rfl (s.builder.content_withSlot ty name c.block) rfl rfl,
    count ▸ follows.matches_.holds.allocate slot⟩, ?_⟩
  exact follows.agrees.mono (fun _ _ => rfl) more (List.prefix_append _ _) (.of_scopes rfl)
    fun _ => rfl

/-- The first value of a variable is stored in its new cell. -/
theorem Memory.store_allocate (memory : Memory) (value : Value) :
    (memory.allocate .unset).store memory.cells.length value = memory.allocate value := by
  simp [store, allocate]

/-- A variable is bound to its new cell. -/
theorem means_slot (holds : c.Holds f homes n memory) (home : StackSlot) :
    Means m (homes ++ [home.ptr]) s d (.slot home) (.cell memory.cells.length) :=
  .cell (by rw [← holds.count]; simp)

/-- A declared variable has its value, in a cell or by itself. -/
theorem BodyState.Declares.arrives {decl : Declarator} {kind : BindingKind}
    (declares : s.Declares env scope decl kind.isMutable t) (world : World) (local_ : s.Local scope)
    (within : t.Within m f) (follows : Follows m f homes s scope frames memory c) :
    ∃ frames' memory', decl.eval world kind frames memory = some (frames', memory') ∧
      Arrives m world f homes s.count c t scope (.normal frames' memory') := by
  generalize mutability : kind.isMutable = mutable at declares
  have faithful (expr : Expr) : expr.Faithful m world f homes env :=
    lowerExpr_faithful m world f homes env expr
  cases declares with
  | @constant expr operand u b init run grown ok current blocks =>
    have emits := (evaluate_stands local_.toReady run).1
    have local' := emits.local local_
    obtain ⟨value, memory', d, evaluates, passes, has⟩ :=
      evaluate_passes (faithful expr) local_.toReady run (within.congr grown rfl) follows
    have behind := (follows.passes passes emits.scopes).rebuilt grown current blocks
    refine ⟨frames.bind decl.name (.value value), memory', ?_, .normal passes.goes List.prefix_rfl
      (Nat.le_trans passes.more grown.count)
      (behind.bound local'.inside local'.unnamed decl.name (.value ?_))⟩
    · simp [Declarator.eval, Declarator.evalInit, init, evaluates, mutability]
    · exact has.mono (fun _ _ => rfl) grown.count
  | @blank ty init sized =>
    have behind := follows.withSlot local_ sized (env.name decl.name) (within.congr (.refl _) rfl)
    refine ⟨frames.bind decl.name (.cell memory.cells.length), memory.allocate .unset, ?_,
      .normal (.refl _ c) (List.prefix_append _ _) ?_
      (behind.bound local_.inside local_.unnamed decl.name (means_slot follows.matches_.holds _))⟩
    · simp [Declarator.eval, Declarator.evalInit, init, mutability]
    · exact (s.extends_withSlot ty (env.name decl.name)).count
  | @stored expr operand u ty block init run sized selected checked =>
    have emits := (evaluate_stands local_.toReady run).1
    have local' := emits.local local_
    have pushed : ((u.withSlot ty (env.name decl.name)).push block
        (.store operand (.value (u.nextSlot ty).ptr)) none).Within m f := within.congr (.refl _) rfl
    have slotted : (u.withSlot ty (env.name decl.name)).Within m f :=
      pushed.congr (Builder.extends_push_open selected _ none) rfl
    have grown := u.extends_withSlot ty (env.name decl.name)
    obtain ⟨value, memory', d, evaluates, passes, has⟩ :=
      evaluate_passes (faithful expr) local_.toReady run (slotted.congr grown rfl) follows
    have behind := (follows.passes passes emits.scopes).withSlot local' sized
      (env.name decl.name) slotted
    have place : (homes ++ [(u.nextSlot ty).ptr])[memory'.cells.length]? =
        some (u.nextSlot ty).ptr := by
      rw [← passes.matches_.holds.count]
      simp
    -- the initial value is written to the cell that was just allocated
    obtain ⟨e, passes'⟩ := behind.matches_.store world selected pushed place
      (has.mono (fun _ _ => rfl) grown.count)
    rw [Memory.store_allocate] at passes'
    have stored := behind.passes passes' rfl
    refine ⟨frames.bind decl.name (.cell memory'.cells.length), memory'.allocate value, ?_,
      .normal (passes.goes.trans passes'.goes (Nat.le_trans passes.more grown.count))
        (List.prefix_append _ _) ?_
        (stored.bound local'.inside local'.unnamed decl.name
          (means_slot passes.matches_.holds _))⟩
    · simp [Declarator.eval, Declarator.evalInit, init, evaluates, mutability]
    · exact Nat.le_trans passes.more (Nat.le_trans grown.count passes'.more)

/-- Variables are declared in order. -/
theorem declarators_arrive (world : World) (kind : BindingKind) :
    ∀ {declarators : List Declarator} {s t : BodyState} {homes : List ValueId} {frames : Frames}
      {memory : Memory} {c : Machine}, s.Local scope →
      declarators.forM (lowerDeclarator env scope kind) s = .ok () t → t.Within m f →
        Follows m f homes s scope frames memory c →
          ∃ flow, Declarator.evals world kind declarators frames memory = some flow ∧
            Arrives m world f homes s.count c t scope flow
  | [], s, t, homes, frames, memory, c, _, run, _, follows => by
    cases run
    exact ⟨.normal frames memory, by rw [Declarator.evals],
      .normal (.refl _ c) List.prefix_rfl (Nat.le_refl _) follows⟩
  | decl :: rest, s, t, homes, frames, memory, c, local_, run, within, follows => by
    obtain ⟨u, first, run⟩ := declarators_cons_ok run
    obtain ⟨names, -, done, after⟩ := (lowerDeclarator_foretold env kind local_ decl).of_ok first
    have local' := after.local local_ done.1
    obtain ⟨-, -, done', -⟩ := (lowerDeclarators_foretold env kind rest local').of_ok run
    obtain ⟨frames', memory', evaluates, arrives⟩ :=
      (lowerDeclarator_ok local_ first).arrives world local_ (within.of_done done') follows
    cases arrives with
    | normal goes longer more behind =>
      obtain ⟨flow, evaluates', arrives⟩ := declarators_arrive world kind local' run within behind
      refine ⟨flow, ?_, arrives.after goes longer more⟩
      rw [Declarator.evals]
      simp only [evaluates, evaluates', bind, Option.bind_some]

/-! ## Returns and blocks -/

/-- A return ends the run with its value. -/
theorem lowerReturn_arrives (world : World) {value : Option Expr} {span : FileSpan}
    (local_ : s.Local scope) (run : lowerReturn env scope value span s = .ok () t)
    (within : t.Within m f) (follows : Follows m f homes s scope frames memory c) :
    ∃ flow, (Stmt.ret value span).eval world frames memory = some flow ∧
      Arrives m world f homes s.count c t scope flow := by
  obtain ⟨u, operand, block, selected, checked, rfl, returns⟩ := lowerReturn_ok run
  cases returns with
  | nothing =>
    refine ⟨.returned none memory, by rw [Stmt.eval], .returned .refl ?_
      follows.matches_.holds.trace⟩
    rw [follows.matches_.at_.leaves selected within.function]
    rfl
  | @value expr operand u run =>
    have open_ : u.Within m f :=
      within.congr (selected.advances_closed (.ret (some operand))).function rfl
    obtain ⟨v, memory', d, evaluates, passes, has⟩ :=
      evaluate_passes (lowerExpr_faithful m world f homes env expr) local_.toReady run open_
        follows
    refine ⟨.returned (some v) memory', ?_, .returned passes.goes.reaches ?_
      passes.matches_.holds.trace⟩
    · rw [Stmt.eval]
      simp only [evaluates, bind, Option.bind_some]
    · rw [passes.matches_.at_.leaves selected within.function]
      simp only [Ir.Machine.leave, has.reads, Option.map_some]

/-- A block starts with the names around it. -/
theorem Follows.entered (follows : Follows m f homes s scope frames memory c)
    (inside : s.context.scopes.contains scope) :
    Follows m f homes (s.entered scope) s.home frames.push memory c where
  matches_ := ⟨follows.matches_.at_.congr rfl rfl rfl rfl, follows.matches_.holds⟩
  agrees := by
    have namespaces : s.Namespaces (s.entered scope) :=
      ⟨s.name?_entered scope, fun other _ x => s.lookupIn_entered scope other x⟩
    have agrees : Agrees m homes (s.entered scope) s.home c frames :=
      follows.agrees.mono (fun _ _ => rfl) (Nat.le_refl _) List.prefix_rfl namespaces
        fun _ => ScopeTable.resolve_enter inside none
    intro x bound found
    rw [Frames.lookup_push]
    exact agrees x bound found

/-! ## Conditionals -/

/-- The machine jumps to the point of a state. -/
structure Ir.Machine.Jumps (m : Module) (world : World) (f : Function) (c : Machine)
    (t : BodyState) (d : Machine) : Prop where
  steps : c.step m world f = some (.inl d)
  at_ : d.At f t
  registers : d.registers = c.registers
  cells : d.cells = c.cells
  trace : d.trace = c.trace

namespace Ir.Machine.Jumps

/-- A block behind the entry that has no code yet can be entered. -/
theorem of_enter (laid : f.Layout) (grown : s.builder.function.Extends f)
    (view : s.builder.function.content block = some ([], none)) (other : block ≠ ⟨0⟩)
    (steps : c.step m world f = (c.enter f block).map .inl) :
    ∃ d, Jumps m world f c (s.at_ block) d := by
  obtain ⟨d, enters, at_, registers, cells, trace⟩ := At.of_enter (c := c) laid grown view other
  exact ⟨d, by rw [steps, enters, Option.map_some], at_, registers, cells, trace⟩

variable (jumps : Ir.Machine.Jumps m world f c t d)
include jumps

theorem goes (n : Nat) : Continues m world f n c d := .of_step jumps.steps jumps.registers

theorem matches_ (matches_ : c.Matches f homes s memory) (more : s.count ≤ t.count) :
    d.Matches f homes t memory :=
  ⟨jumps.at_, matches_.holds.congr jumps.cells jumps.trace more⟩

/-- Where names are bound as before, the machine follows the source program there. -/
theorem follows (follows : Follows m f homes s scope frames memory c)
    (unnamed : s.context.scopes.name? scope = none) (same : s.SameNames scope t) :
    Follows m f homes t scope frames memory d where
  matches_ := jumps.matches_ follows.matches_ same.function.count
  agrees := same.agrees follows.agrees unnamed (fun id _ => congrFun jumps.registers id)
    List.prefix_rfl

end Ir.Machine.Jumps

open Ir.Machine (Jumps)

/-- A branch that goes on jumps behind the conditional, where the names are those before it. -/
theorem BodyState.Falls.arrives {w : BodyState} {next : BlockId} (falls : v.Falls next u)
    (arrives : Arrives m world f homes n c v scope' flow) (laid : f.Layout)
    (grown : u.builder.function.Extends f) (later : w.builder.function.Extends f)
    (view : w.builder.function.content next = some ([], none)) (other : next ≠ ⟨0⟩)
    (more : v.count ≤ w.count)
    (agrees : ∀ homes' d, (∀ id, id.index < n → d.registers id = c.registers id) →
      homes <+: homes' → Agrees m homes' (w.at_ next) scope d frames) :
    Arrives m world f homes n c (w.at_ next) scope (flow.within frames) := by
  cases arrives with
  | returned reaches exits trace => exact .returned reaches exits trace
  | @normal homes' _ memory d goes longer before follows =>
    cases falls with
    | ended ended =>
      rw [follows.matches_.at_.selected.not_terminated] at ended
      cases ended
    | jumped selected checked =>
      obtain ⟨e, jumps⟩ := Jumps.of_enter laid later view other
        (follows.matches_.at_.leaves selected grown)
      have goes' := goes.trans (jumps.goes v.count) before
      exact .normal goes' longer (Nat.le_trans before more)
        ⟨jumps.matches_ follows.matches_ more, agrees homes' e goes'.kept longer⟩

/-- A branch is entered, goes on as its statement does, and jumps behind the conditional. -/
theorem branch_arrives {p q w : BodyState} {start next : BlockId} {run : Option Flow}
    (laid : f.Layout) (follows : Follows m f homes u scope frames memory c)
    (unnamed : u.context.scopes.name? scope = none)
    (steps : c.step m world f = (c.enter f start).map .inl)
    (begun : u.SameNames scope p) (view : p.builder.function.content start = some ([], none))
    (other : start ≠ ⟨0⟩)
    (arrives : ∀ {d}, Follows m f homes (p.at_ start) scope frames memory d →
      ∃ flow, run = some flow ∧ Arrives m world f homes (p.at_ start).count d q scope flow)
    (done : p.builder.function.Extends q.builder.function) (falls : q.Falls next v)
    (grown : v.builder.function.Extends w.builder.function) (later : w.builder.function.Extends f)
    (view' : w.builder.function.content next = some ([], none)) (other' : next ≠ ⟨0⟩)
    (last : u.SameNames scope w) :
    ∃ flow, run = some flow ∧
      Arrives m world f homes u.count c (w.at_ next) scope (flow.within frames) := by
  have ends := falls.advances.function
  have function : p.builder.function.Extends f :=
    (done.trans ends).trans (grown.trans later)
  obtain ⟨d, jumps⟩ := Jumps.of_enter laid function view other steps
  obtain ⟨flow, evaluates, arrives⟩ := arrives (jumps.follows follows unnamed (begun.at_ start))
  refine ⟨flow, evaluates, Arrives.after ?_ (jumps.goes _) List.prefix_rfl begun.function.count⟩
  refine falls.arrives arrives laid (grown.trans later) later view' other'
    (Nat.le_trans ends.count grown.count) fun homes' e kept longer => ?_
  refine (last.at_ next).agrees follows.agrees unnamed (fun id old => ?_) longer
  exact (kept id (Nat.lt_of_lt_of_le old begun.function.count)).trans (congrFun jumps.registers id)

section Forks

variable {condition : Expr} {thenBranch : Stmt} {elseBranch : Option Stmt} {cond : Operand}
  {v' w w' : BodyState} {value : Value}

/-- The machine takes the branch that the condition selects. -/
theorem fork_step (world : World) (follows : Follows m f homes u scope frames memory c)
    (selected : u.builder.Open block) (has : Has m u c cond value)
    (grown : (u.fork block cond).builder.function.Extends f) :
    c.step m world f =
      (c.enter f (if value.isTrue then ⟨u.next⟩ else ⟨u.next + 1⟩)).map .inl := by
  have selected' := selected.addBlocks
  have inside : c.block.index < u.builder.function.blocks.length := by
    obtain ⟨-, data, known, -⟩ := follows.matches_.at_.selected
    exact Function.lt_of_block? known
  have at_ : c.At f (u.rebuilt
      (((u.builder.appendBlock "then").2.appendBlock "else").2.appendBlock "endif").2) := by
    refine follows.matches_.at_.congr rfl ?_ rfl rfl
    rw [Function.content, Function.content]
    exact congrArg _ (Function.block?_addBlocks_old _ _ _ inside)
  rw [at_.leaves selected' grown]
  simp only [Ir.Machine.leave, has.reads, bind, Option.bind_some]
  rfl

/-- Where the branches change no binding, the names at the start of each and behind them are
those before the conditional. -/
theorem BodyState.Forks.sameNames
    (forks : s.Forks env scope condition thenBranch elseBranch cond block u v v' w w' t)
    (inside : u.context.scopes.contains scope)
    (thenSame : ∀ other x, v.context.scopes.lookupIn other x = u.context.scopes.lookupIn other x)
    (elseSame : ∀ other x,
      w.context.scopes.lookupIn other x = v'.context.scopes.lookupIn other x) :
    u.SameNames scope (u.fork block cond) ∧ u.SameNames scope v' ∧ v'.SameNames scope w' := by
  have grown := forks.selected.extends_fork cond
  refine ⟨⟨.refl inside, grown, fun _ _ => rfl⟩, ⟨?_, ?_, ?_⟩, ?_, ?_, ?_⟩
  · exact forks.thenFalls.context ▸ forks.thenDone.1
  · exact (grown.trans forks.thenDone.2).trans forks.thenFalls.advances.function
  · exact forks.thenFalls.context ▸ thenSame
  · exact forks.elseFalls.context ▸ forks.elseDone.1
  · exact forks.elseDone.2.trans forks.elseFalls.advances.function
  · exact forks.elseFalls.context ▸ elseSame

/-- A conditional goes on as the branch does that its condition selects. -/
theorem BodyState.Forks.arrives {span : FileSpan} (laid : f.Layout)
    (forks : s.Forks env scope condition thenBranch elseBranch cond block u v v' w w' t)
    (local_ : s.Local scope) (within : t.Within m f)
    (thenSame : ∀ other x, v.context.scopes.lookupIn other x = u.context.scopes.lookupIn other x)
    (elseSame : ∀ other x, w.context.scopes.lookupIn other x = v'.context.scopes.lookupIn other x)
    (thenArrives : ∀ {memory c},
      Follows m f homes ((u.fork block cond).at_ ⟨u.next⟩) scope frames memory c →
        ∃ flow, thenBranch.eval world frames memory = some flow ∧
          Arrives m world f homes ((u.fork block cond).at_ ⟨u.next⟩).count c v scope flow)
    (elseArrives : ∀ {memory c},
      Follows m f homes (v'.at_ ⟨u.next + 1⟩) scope frames memory c →
        ∃ flow, Stmt.evalOptional world frames elseBranch memory = some flow ∧
          Arrives m world f homes (v'.at_ ⟨u.next + 1⟩).count c w scope flow)
    (follows : Follows m f homes s scope frames memory c) :
    ∃ flow, (Stmt.ifElse condition thenBranch elseBranch span).eval world frames memory =
        some flow ∧ Arrives m world f homes s.count c t scope flow := by
  have local' := forks.emits.local local_
  have inside : block.index < u.next := by
    obtain ⟨-, data, known, -⟩ := forks.selected
    exact Function.lt_of_block? known
  have behind (n : Nat) : (⟨u.next + n⟩ : BlockId) ≠ ⟨0⟩ := fun same => by
    have index : u.next + n = 0 := congrArg BlockId.index same
    omega
  obtain ⟨atFork, atElse, fromElse⟩ := forks.sameNames local'.inside thenSame elseSame
  have atEnd : u.SameNames scope w' := atElse.trans fromElse
  rw [forks.last] at within ⊢
  have later : w'.builder.function.Extends f := within.function
  have unfinished : u.Within m f := within.of_done ⟨atEnd.grows, atEnd.function⟩
  obtain ⟨value, memory', d, evaluates, passes, has⟩ := evaluate_passes
    (lowerExpr_faithful m world f homes env condition) local_.toReady forks.condition unfinished
      follows
  have reached := follows.passes passes forks.emits.scopes
  have steps := fork_step world reached forks.selected has
    ((forks.thenDone.2.trans forks.thenFalls.advances.function).trans
      (fromElse.function.trans later))
  have thenView : (u.fork block cond).builder.function.content ⟨u.next⟩ = some ([], none) :=
    Builder.content_fork_new inside cond (Nat.le_refl _) (Nat.lt_add_of_pos_right (by decide))
  have elseView : v'.builder.function.content ⟨u.next + 1⟩ = some ([], none) :=
    forks.selected.content_else forks.branched.first (Nat.lt_succ_self _) (by simp [BodyState.next])
  have lastView : w'.builder.function.content ⟨u.next + 2⟩ = some ([], none) :=
    forks.branched.content_end
  -- one branch is run: the blocks of the other one are passed over, and the last block is entered
  -- from whichever it was
  have chosen : ∃ flow, (if value.isTrue then thenBranch.eval world frames memory'
      else Stmt.evalOptional world frames elseBranch memory') = some flow ∧
        Arrives m world f homes u.count d (w'.at_ ⟨u.next + 2⟩) scope (flow.within frames) := by
    cases taken : value.isTrue with
    | true =>
      rw [taken, if_pos rfl] at steps
      rw [if_pos rfl]
      exact branch_arrives laid reached local'.unnamed steps atFork thenView (behind 0) thenArrives
        forks.thenDone.2 forks.thenFalls fromElse.function later lastView (behind 2) atEnd
    | false =>
      rw [taken, if_neg Bool.false_ne_true] at steps
      rw [if_neg Bool.false_ne_true]
      exact branch_arrives laid reached local'.unnamed steps atElse elseView (behind 1) elseArrives
        forks.elseDone.2 forks.elseFalls (.refl _) later lastView (behind 2) atEnd
  obtain ⟨flow, evaluates', arrives⟩ := chosen
  refine ⟨flow.within frames, ?_, arrives.after passes.goes List.prefix_rfl passes.more⟩
  rw [Stmt.eval]
  simp only [evaluates, bind, Option.bind_some]
  by_cases taken : value.isTrue
  · rw [if_pos taken] at evaluates' ⊢
    rw [evaluates', Option.bind_some]
  · rw [if_neg taken] at evaluates' ⊢
    rw [evaluates', Option.bind_some]

/-- Both branches are finished when the conditional is. -/
theorem BodyState.Forks.within
    (forks : s.Forks env scope condition thenBranch elseBranch cond block u v v' w w' t)
    (within : t.Within m f) : v.Within m f ∧ w.Within m f := by
  have behind : w'.Within m f := by
    rw [forks.last] at within
    exact within.congr (.refl _) rfl
  have second : w.Within m f :=
    behind.congr forks.elseFalls.advances.function (by rw [forks.elseFalls.context])
  have between : v'.Within m f := (second.of_done forks.elseDone).congr (.refl _) rfl
  exact ⟨between.congr forks.thenFalls.advances.function (by rw [forks.thenFalls.context]), second⟩

/-- A conditional that skips nothing skips nothing in its branches. -/
theorem BodyState.Forks.quiet
    (forks : s.Forks env scope condition thenBranch elseBranch cond block u v v' w w' t)
    (quiet : t.context.unhandled = s.context.unhandled) :
    v.context.unhandled = u.context.unhandled ∧ w.context.unhandled = v'.context.unhandled := by
  have emitted : u.context.unhandled = s.context.unhandled := by
    obtain ⟨more, same⟩ := forks.emits.context
    rw [same]
    rfl
  have last : t.context.unhandled = w.context.unhandled := by
    rw [forks.last, ← forks.elseFalls.context]
    rfl
  have first : u.context.unhandled <+: v.context.unhandled := forks.thenDone.1.unhandled
  have second : v'.context.unhandled <+: w.context.unhandled := forks.elseDone.1.unhandled
  rw [forks.thenFalls.context] at second ⊢
  exact Context.unhandled_between first second (last.symm.trans (quiet.trans emitted.symm))

end Forks

/-! ## Statements -/

/-- An expression that stands as a statement is evaluated. -/
theorem expressionStatement_arrives (world : World) {expr : Expr} {span : FileSpan}
    (local_ : s.Local scope) (run : lowerStmt env scope (.expression expr span) s = .ok () t)
    (within : t.Within m f) (follows : Follows m f homes s scope frames memory c) :
    ∃ flow, (Stmt.expression expr span).eval world frames memory = some flow ∧
      Arrives m world f homes s.count c t scope flow := by
  have emits := expressionStatement_emits local_.toReady run
  have goes : ∃ v memory' d, expr.eval world frames memory = some (v, memory') ∧
      Passes m world f homes s c t memory' d := by
    rcases expressionStatement_ok run with
      ⟨callee, args, span', target, u, result, rfl, lowered, called⟩ | ⟨value, lowered⟩
    · have faithful : callee.Faithful m world f homes env :=
        lowerExpr_faithful m world f homes env callee
      obtain ⟨v, memory', d, evaluates, passes, -⟩ := lowerCall_passes faithful
        (lowerArgs_faithful m world f homes env args) local_.toReady lowered called within follows
      exact ⟨v, memory', d, evaluates, passes⟩
    · obtain ⟨v, memory', d, evaluates, passes, -⟩ :=
        lowerExpr_faithful m world f homes env expr local_.toReady lowered within follows
      exact ⟨v, memory', d, evaluates, passes⟩
  obtain ⟨v, memory', d, evaluates, passes⟩ := goes
  refine ⟨.normal frames memory', ?_, .normal passes.goes List.prefix_rfl passes.more
    (follows.passes passes emits.scopes)⟩
  rw [Stmt.eval]
  simp only [evaluates, bind, Option.bind_some]

/-- What a block does is seen behind it, save its names. -/
theorem block_arrives {stmts : List Stmt} {span : FileSpan} (local_ : s.Local scope)
    (done : (statementProgress s.home).Done (s.entered scope) u)
    (arrives : ∃ flow, Stmt.evals world frames.push stmts memory = some flow ∧
      Arrives m world f homes s.count c u s.home flow)
    (follows : Follows m f homes s scope frames memory c) :
    ∃ flow, (Stmt.block stmts span).eval world frames memory = some flow ∧
      Arrives m world f homes s.count c (u.leave s.home) scope flow := by
  obtain ⟨flow, evaluates, arrives⟩ := arrives
  obtain ⟨grows, lookups⟩ := Context.Grows.leave rfl local_.inside done.1
  have same : s.SameNames scope (u.leave s.home) := ⟨grows, done.2, lookups⟩
  refine ⟨flow.within frames, ?_, arrives.within rfl fun homes' d kept longer =>
    same.agrees follows.agrees local_.unnamed kept longer⟩
  rw [Stmt.eval, evaluates, Option.map_some]

mutual

/-- A machine that follows the source program over a statement arrives where the statement
ends, and the statement does end. -/
theorem lowerStmt_arrives (m : Module) (world : World) (laid : f.Layout) (env : Environment) :
    ∀ (stmt : Stmt) {scope : ScopeId} {s t : BodyState} {homes : List ValueId} {frames : Frames}
      {memory : Memory} {c : Machine}, stmt.bareBranch Stmt.isVars = false → s.Local scope →
      lowerStmt env scope stmt s = .ok () t → t.Within m f →
        t.context.unhandled = s.context.unhandled → Follows m f homes s scope frames memory c →
          ∃ flow, stmt.eval world frames memory = some flow ∧
            Arrives m world f homes s.count c t scope flow
  | .block stmts span, scope, s, t, homes, frames, memory, c, clear, local_, run, within, quiet,
      follows => by
    obtain ⟨u, inner, rfl⟩ := block_ok local_.inside run
    obtain ⟨names, -, done, -⟩ :=
      (lowerStmts_foretold env stmts s.home _ local_.entered).of_ok inner
    rw [Stmt.bareBranch] at clear
    have arrives : ∃ flow, Stmt.evals world frames.push stmts memory = some flow ∧
        Arrives m world f homes (s.entered scope).count c u s.home flow :=
      lowerStmts_arrives m world laid env stmts clear local_.entered inner
        (within.congr (.refl _) rfl) quiet (follows.entered local_.inside)
    exact block_arrives local_ done arrives follows
  | .expression expr span, scope, s, t, homes, frames, memory, c, _, local_, run, within, _,
      follows => expressionStatement_arrives world local_ run within follows
  | .ifElse condition thenBranch elseBranch span, scope, s, t, homes, frames, memory, c, clear,
      local_, run, within, quiet, follows => by
    obtain ⟨cond, block, u, v, v', w, w', forks⟩ := ifElse_ok local_ run
    rw [Stmt.bareBranch] at clear
    simp only [Bool.or_eq_false_iff] at clear
    obtain ⟨⟨⟨thenBare, elseBare⟩, thenClear⟩, elseClear⟩ := clear
    obtain ⟨thenWithin, elseWithin⟩ := forks.within within
    obtain ⟨thenQuiet, elseQuiet⟩ := forks.quiet quiet
    have thenSame :=
      lowerStmt_lookups env thenBranch thenBare thenClear forks.thenLocal forks.thenRun
    have elseSame :=
      lowerOptional_lookups env elseBranch elseBare elseClear forks.elseLocal forks.elseRun
    exact forks.arrives laid local_ within thenSame elseSame
      (lowerStmt_arrives m world laid env thenBranch thenClear forks.thenLocal forks.thenRun
        thenWithin thenQuiet)
      (lowerOptional_arrives m world laid env elseBranch elseClear forks.elseLocal forks.elseRun
        elseWithin elseQuiet) follows
  | .ret value span, scope, s, t, homes, frames, memory, c, _, local_, run, within, _,
      follows => by
    rw [lowerStmt] at run
    exact lowerReturn_arrives world local_ run within follows
  | .vars kind declarators span, scope, s, t, homes, frames, memory, c, _, local_, run, within, _,
      follows => by
    rw [lowerStmt] at run
    rw [Stmt.eval]
    exact declarators_arrive world kind local_ run within follows
  | .whileLoop .., _, _, _, _, _, _, _, _, _, run, _, quiet, _
  | .breakLoop .., _, _, _, _, _, _, _, _, _, run, _, quiet, _
  | .continueLoop .., _, _, _, _, _, _, _, _, _, run, _, quiet, _
  | .empty .., _, _, _, _, _, _, _, _, _, run, _, quiet, _ => by
    rw [lowerStmt] at run
    exact absurd quiet (skip_unhandled run)

theorem lowerOptional_arrives (m : Module) (world : World) (laid : f.Layout) (env : Environment) :
    ∀ (stmt : Option Stmt) {scope : ScopeId} {s t : BodyState} {homes : List ValueId}
      {frames : Frames} {memory : Memory} {c : Machine},
      Stmt.bareBranchOptional Stmt.isVars stmt = false → s.Local scope →
      lowerOptional env scope stmt s = .ok () t → t.Within m f →
        t.context.unhandled = s.context.unhandled → Follows m f homes s scope frames memory c →
          ∃ flow, Stmt.evalOptional world frames stmt memory = some flow ∧
            Arrives m world f homes s.count c t scope flow
  | none, scope, s, t, homes, frames, memory, c, _, _, run, _, _, follows => by
    rw [lowerOptional] at run
    cases run
    exact ⟨.normal frames memory, by rw [Stmt.evalOptional],
      .normal (.refl _ c) List.prefix_rfl (Nat.le_refl _) follows⟩
  | some stmt, scope, s, t, homes, frames, memory, c, clear, local_, run, within, quiet,
      follows => by
    rw [lowerOptional] at run
    rw [Stmt.bareBranchOptional] at clear
    rw [Stmt.evalOptional]
    exact lowerStmt_arrives m world laid env stmt clear local_ run within quiet follows

theorem lowerStmts_arrives (m : Module) (world : World) (laid : f.Layout) (env : Environment) :
    ∀ (stmts : List Stmt) {scope : ScopeId} {s t : BodyState} {homes : List ValueId}
      {frames : Frames} {memory : Memory} {c : Machine},
      Stmt.bareBranches Stmt.isVars stmts = false → s.Local scope →
      lowerStmts env scope stmts s = .ok () t → t.Within m f →
        t.context.unhandled = s.context.unhandled → Follows m f homes s scope frames memory c →
          ∃ flow, Stmt.evals world frames stmts memory = some flow ∧
            Arrives m world f homes s.count c t scope flow
  | [], scope, s, t, homes, frames, memory, c, _, _, run, _, _, follows => by
    rw [lowerStmts] at run
    cases run
    exact ⟨.normal frames memory, by rw [Stmt.evals],
      .normal (.refl _ c) List.prefix_rfl (Nat.le_refl _) follows⟩
  | stmt :: rest, scope, s, t, homes, frames, memory, c, clear, local_, run, within, quiet,
      follows => by
    obtain ⟨u, first, run⟩ := lowerStmts_cons_ok local_ run
    obtain ⟨names, -, done, after⟩ := (lowerStmt_foretold env stmt scope s local_).of_ok first
    rw [Stmt.bareBranches, Bool.or_eq_false_iff] at clear
    rw [Stmt.evals]
    cases closes : stmt.closes with
    | true =>
      rw [closes] at after
      have same : t.builder = u.builder ∧ t.context.module = u.context.module ∧
          t.context.unhandled = u.context.unhandled := by
        obtain ⟨journal, rfl⟩ := lowerStmts_closed_ok after.closed run
        exact ⟨rfl, rfl, rfl⟩
      obtain ⟨builder, module, unhandled⟩ := same
      obtain ⟨flow, evaluates, arrives⟩ := lowerStmt_arrives m world laid env stmt clear.1 local_
        first (within.congr (builder ▸ .refl _) (by rw [module])) (unhandled ▸ quiet) follows
      cases arrives with
      | normal goes longer more behind =>
        have open_ := behind.matches_.at_.selected.not_terminated
        rw [after.closed] at open_
        cases open_
      | @returned value memory' d reaches exits trace =>
        refine ⟨.returned value memory', ?_, .returned reaches exits trace⟩
        simp only [evaluates, bind, Option.bind_some]
    | false =>
      rw [closes] at after
      have local' := after.local local_ done.1
      obtain ⟨-, -, done', -⟩ := (lowerStmts_foretold env rest scope u local').of_ok run
      obtain ⟨firstQuiet, restQuiet⟩ :=
        Context.unhandled_between done.1.unhandled done'.1.unhandled quiet
      obtain ⟨flow, evaluates, arrives⟩ := lowerStmt_arrives m world laid env stmt clear.1 local_
        first (within.of_done done') firstQuiet follows
      cases arrives with
      | normal goes longer more behind =>
        obtain ⟨flow, evaluates', arrives⟩ := lowerStmts_arrives m world laid env rest clear.2
          local' run within restQuiet behind
        refine ⟨flow, ?_, arrives.after goes longer more⟩
        simp only [evaluates, evaluates', bind, Option.bind_some]
      | @returned value memory' d reaches exits trace =>
        refine ⟨.returned value memory', ?_, .returned reaches exits trace⟩
        simp only [evaluates, bind, Option.bind_some]

end

end SsaLowering
