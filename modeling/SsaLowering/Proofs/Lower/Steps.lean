/-
# SsaLowering.Proofs.Lower.Steps -- the primitive steps of lowering

One equation for every primitive step: what it needs and what it leaves behind.
The lowering functions are chains of these steps, so their proofs never look
inside the two monads.
-/
import SsaLowering.Lower.Context
import SsaLowering.Proofs.Outcome

namespace SsaLowering

set_option autoImplicit false

open Ir (Builder BuildError Module)

/-! ## Steps at the level of declarations -/

namespace Lower

theorem refuse_run {α : Type} (cause : LowerError) (cx : Context) :
    (refuse cause : Lower α) cx = .error (.refused cause) cx :=
  rfl

theorem log_run (event : Event) (cx : Context) : log event cx = .ok () (cx.log event) := rfl

theorem onModule_run {α : Type} (operation : Module → Except BuildError (α × Module))
    (cx : Context) :
    onModule operation cx = match operation cx.module with
      | .ok (a, module) => .ok a { cx with module }
      | .error cause => .error (.refused (.build cause)) cx := by
  simp only [onModule, bind_run, get_run]
  cases operation cx.module <;> rfl

theorem requireScope_run (scope : ScopeId) (cx : Context) :
    requireScope scope cx =
      if cx.scopes.contains scope then .ok () cx
      else .error (.fault (.missingScope scope.index)) cx := by
  simp only [requireScope, bind_run, get_run]
  cases cx.scopes.contains scope <;> rfl

theorem bind_scope_run (scope : ScopeId) (name : Symbol) (value : BoundValue) (cx : Context) :
    Lower.bind scope name value cx =
      if cx.scopes.contains scope then
        .ok (cx.scopes.lookupIn scope name)
          { cx with scopes := cx.scopes.assign scope name (some value) }
      else .error (.fault (.missingScope scope.index)) cx := by
  simp only [Lower.bind, bind_run, requireScope_run]
  cases cx.scopes.contains scope <;> rfl

theorem enter_run (parent : ScopeId) (name : Option Symbol) (cx : Context) :
    enter parent name cx =
      if cx.scopes.contains parent then .ok (cx.enter parent name).1 (cx.enter parent name).2
      else .error (.fault (.missingScope parent.index)) cx := by
  simp only [enter, bind_run, requireScope_run]
  cases cx.scopes.contains parent <;> rfl

theorem lift_run {ε α : Type} (widen : ε → LowerError) (result : Except (Failure ε) α)
    (cx : Context) :
    lift widen result cx = match result with
      | .ok a => .ok a cx
      | .error failure => .error (failure.map widen) cx := by
  cases result <;> rfl

section

variable {cx cx' : Context} {scope parent : ScopeId} {u : Unit}

theorem onModule_ok {α : Type} {operation : Module → Except BuildError (α × Module)} {a : α} :
    onModule operation cx = .ok a cx' ↔
      ∃ module, operation cx.module = .ok (a, module) ∧ cx' = { cx with module } := by
  rw [onModule_run]
  cases operation cx.module <;> simp [Prod.ext_iff, eq_comm]

theorem requireScope_ok :
    requireScope scope cx = .ok u cx' ↔ cx.scopes.contains scope ∧ cx' = cx := by
  rw [requireScope_run]
  by_cases inside : cx.scopes.contains scope <;> simp [inside, eq_comm]

theorem bind_scope_ok {name : Symbol} {value : BoundValue} {previous : Option BoundValue} :
    Lower.bind scope name value cx = .ok previous cx' ↔
      cx.scopes.contains scope ∧ previous = cx.scopes.lookupIn scope name ∧
        cx' = { cx with scopes := cx.scopes.assign scope name (some value) } := by
  rw [bind_scope_run]
  by_cases inside : cx.scopes.contains scope <;> simp [inside, eq_comm]

theorem enter_ok {name : Option Symbol} :
    enter parent name cx = .ok scope cx' ↔
      cx.scopes.contains parent ∧ scope = (cx.enter parent name).1 ∧
        cx' = (cx.enter parent name).2 := by
  rw [enter_run]
  by_cases inside : cx.scopes.contains parent <;> simp [inside, eq_comm]

theorem lift_ok {ε α : Type} {widen : ε → LowerError} {result : Except (Failure ε) α} {a : α} :
    lift widen result cx = .ok a cx' ↔ result = .ok a ∧ cx' = cx := by
  rw [lift_run]
  cases result <;> simp [eq_comm]

end

end Lower

/-! ## Steps inside a function -/

/-- The state after the bindings of a scope have ended. -/
def BodyState.leave (s : BodyState) (scope : ScopeId) : BodyState :=
  { s with context := { s.context with scopes := s.context.scopes.discard scope } }

namespace LowerBody

theorem refuse_run {α : Type} (cause : LowerError) (s : BodyState) :
    (refuse cause : LowerBody α) s = .error (.refused cause) s :=
  rfl

theorem outside_run {α : Type} (step : Lower α) (s : BodyState) :
    outside step s = match step s.context with
      | .ok a context => .ok a { s with context }
      | .error failure context => .error failure { s with context } :=
  rfl

theorem context_run (s : BodyState) : context s = .ok s.context s := rfl

theorem builder_run (s : BodyState) : builder s = .ok s.builder s := rfl

theorem emit_run {α : Type} (operation : Builder → Except BuildError (α × Builder))
    (s : BodyState) :
    emit operation s = match operation s.builder with
      | .ok (a, builder) => .ok a { s with builder }
      | .error cause => .error (.refused (.build cause)) s := by
  simp only [emit, bind_run, get_run]
  cases operation s.builder <;> rfl

theorem emitUnit_run (operation : Builder → Except BuildError Builder) (s : BodyState) :
    emit_ operation s = match operation s.builder with
      | .ok builder => .ok () { s with builder }
      | .error cause => .error (.refused (.build cause)) s := by
  rw [emit_, emit_run]
  cases operation s.builder <;> rfl

theorem ask_run {α : Type} (question : Builder → Except BuildError α) (s : BodyState) :
    ask question s = match question s.builder with
      | .ok a => .ok a s
      | .error cause => .error (.refused (.build cause)) s := by
  rw [ask, emit_run]
  cases question s.builder <;> rfl

theorem resolve_run (scope : ScopeId) (name : Symbol) (s : BodyState) :
    resolve scope name s =
      if s.context.scopes.contains scope then .ok (s.context.scopes.resolve scope name) s
      else .error (.fault (.missingScope scope.index)) s := by
  simp only [resolve, bind_run, outside_run, Lower.requireScope_run]
  cases s.context.scopes.contains scope <;> rfl

theorem lookupIn_run (scope : ScopeId) (name : Symbol) (s : BodyState) :
    lookupIn scope name s =
      if s.context.scopes.contains scope then .ok (s.context.scopes.lookupIn scope name) s
      else .error (.fault (.missingScope scope.index)) s := by
  simp only [lookupIn, bind_run, outside_run, Lower.requireScope_run]
  cases s.context.scopes.contains scope <;> rfl

theorem inScope_run {α : Type} (parent : ScopeId) (work : ScopeId → LowerBody α)
    (s : BodyState) :
    inScope parent work s =
      if s.context.scopes.contains parent then
        match work (s.context.enter parent none).1
            { s with context := (s.context.enter parent none).2 } with
        | .ok a t => .ok a (t.leave (s.context.enter parent none).1)
        | .error failure t => .error failure (t.leave (s.context.enter parent none).1)
      else .error (.fault (.missingScope parent.index)) s := by
  refine (bind_run (outside (Lower.enter parent none)) _ s).trans ?_
  rw [outside_run, Lower.enter_run]
  cases s.context.scopes.contains parent <;> rfl

end LowerBody

end SsaLowering
