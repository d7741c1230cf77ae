/-
# SsaLowering.Proofs.Renaming.Mirror -- two runs that mirror each other

Lowering compares symbols and asks for their texts, and does nothing else with
them.  Two runs over trees that differ by a `Renaming` therefore keep the same
module, the same warnings and the same journal, and scopes that bind the same
values to corresponding names (`Context.Mirrors`); they end with one result or
with one failure (`Mirrored`).  This module has the rules for the two monads and
one lemma for every primitive step; a lowering function is a chain of these.
-/
import SsaLowering.Proofs.Lower.Steps
import SsaLowering.Proofs.Scope

namespace SsaLowering

set_option autoImplicit false

open Ir (Builder BuildError Module)

/-! ## Renamings -/

/-- Other symbols for the ones in use, which stay apart. -/
structure Renaming where
  map : Symbol → Symbol
  used : Set Symbol
  apart : Set.InjOn map used

/-- All of the symbols are in use. -/
def Renaming.Covers (ρ : Renaming) (symbols : List Symbol) : Prop := ∀ x ∈ symbols, x ∈ ρ.used

namespace Renaming

variable {ρ : Renaming}

@[simp] theorem covers_cons {x : Symbol} {rest : List Symbol} :
    ρ.Covers (x :: rest) ↔ x ∈ ρ.used ∧ ρ.Covers rest :=
  List.forall_mem_cons

@[simp] theorem covers_append {xs ys : List Symbol} :
    ρ.Covers (xs ++ ys) ↔ ρ.Covers xs ∧ ρ.Covers ys :=
  List.forall_mem_append

theorem covers_flatMap {α : Type} {f : α → List Symbol} {as : List α} :
    ρ.Covers (as.flatMap f) ↔ ∀ a ∈ as, ρ.Covers (f a) :=
  List.forall_mem_flatMap

end Renaming

/-- A fault is about a symbol of the tree at hand. -/
def Fault.rename (σ : Symbol → Symbol) : Fault → Fault
  | unknownSymbol symbol => unknownSymbol (σ symbol)
  | missingScope index => missingScope index

/-- A cause speaks in texts, so it is the same under other symbols. -/
def Failure.rename {ε : Type} (σ : Symbol → Symbol) : Failure ε → Failure ε
  | refused cause => refused cause
  | fault f => fault (f.rename σ)

/-! ## Results and computations -/

section

variable {ε State α β : Type} (ρ : Renaming) (Alike : State → State → Prop)

/-- One result, or one failure in the terms of each side, and states that are alike. -/
inductive Mirrored : EStateM.Result (Failure ε) State α → EStateM.Result (Failure ε) State α → Prop
  | ok {a : α} {s t : State} (alike : Alike s t) : Mirrored (.ok a s) (.ok a t)
  | error {failure : Failure ε} {s t : State} (alike : Alike s t) :
    Mirrored (.error failure s) (.error (failure.rename ρ.map) t)

/-- Two computations that end alike from any states that are alike. -/
def Mirrors (x y : EStateM (Failure ε) State α) : Prop :=
  ∀ s t, Alike s t → Mirrored ρ Alike (x s) (y t)

variable {ρ Alike}

namespace Mirrors

theorem pure (a : α) : Mirrors (ε := ε) ρ Alike (pure a) (pure a) := fun _ _ => .ok

theorem throw (failure : Failure ε) :
    Mirrors (α := α) ρ Alike (throw failure) (throw (failure.rename ρ.map)) :=
  fun _ _ => .error

theorem bind {x y : EStateM (Failure ε) State α} {f g : α → EStateM (Failure ε) State β}
    (first : Mirrors ρ Alike x y) (next : ∀ a, Mirrors ρ Alike (f a) (g a)) :
    Mirrors ρ Alike (x >>= f) (y >>= g) := by
  intro s t alike
  rw [bind_run, bind_run]
  have ends := first s t alike
  generalize x s = r, y t = r' at ends
  cases ends with
  | ok alike => exact next _ _ _ alike
  | error alike => exact .error alike

theorem get_bind {f g : State → EStateM (Failure ε) State β}
    (next : ∀ s t, Alike s t → Mirrors ρ Alike (f s) (g t)) :
    Mirrors ρ Alike (get >>= f) (get >>= g) :=
  fun s t alike => next s t alike s t alike

theorem modify {f g : State → State} (step : ∀ s t, Alike s t → Alike (f s) (g t)) :
    Mirrors (ε := ε) ρ Alike (modify f) (modify g) :=
  fun s t alike => .ok (step s t alike)

theorem map {x y : EStateM (Failure ε) State α} (f : α → β) (run : Mirrors ρ Alike x y) :
    Mirrors ρ Alike (f <$> x) (f <$> y) := by
  intro s t alike
  rw [map_run, map_run]
  exact run.bind (fun a => .pure (f a)) s t alike

theorem discard {x y : EStateM (Failure ε) State α} (run : Mirrors ρ Alike x y) :
    Mirrors ρ Alike (discard x) (discard y) :=
  run.map fun _ => ()

theorem forM {f g : β → EStateM (Failure ε) State Unit} {view : β → β} : ∀ {as : List β},
    (∀ a ∈ as, Mirrors ρ Alike (f a) (g (view a))) →
      Mirrors ρ Alike (as.forM f) ((as.map view).forM g)
  | [], _ => .pure ()
  | _ :: _, step => by
    rw [List.forall_mem_cons] at step
    exact step.1.bind fun _ => forM step.2

end Mirrors

end

/-! ## Scopes -/

/-- Scopes of one shape that bind the same values to corresponding names. -/
structure ScopeTable.Mirrors (ρ : Renaming) (t t' : ScopeTable) : Prop where
  length : t'.frames.length = t.frames.length
  enclosing : ∀ scope, t'.enclosing scope = t.enclosing scope
  name? : ∀ scope, t'.name? scope = (t.name? scope).map ρ.map
  named : ∀ scope given, t.name? scope = some given → given ∈ ρ.used
  lookups : ∀ scope, ∀ x ∈ ρ.used, t'.lookupIn scope (ρ.map x) = t.lookupIn scope x

namespace ScopeTable.Mirrors

variable {ρ : Renaming} {t t' : ScopeTable}

theorem initial (ρ : Renaming) : Mirrors ρ ScopeTable.initial ScopeTable.initial := by
  have unnamed : ∀ scope, ScopeTable.initial.name? scope = none := by
    intro scope
    cases scope with | mk i =>
    cases i <;> rfl
  have unbound : ∀ scope x, ScopeTable.initial.lookupIn scope x = none := by
    intro scope x
    cases scope with | mk i =>
    cases i <;> rfl
  exact {
    length := rfl
    enclosing := fun _ => rfl
    name? := fun scope => by rw [unnamed]; rfl
    named := fun scope given here => by rw [unnamed] at here; cases here
    lookups := fun scope x _ => by rw [unbound, unbound] }

variable (scopes : t.Mirrors ρ t')

include scopes

theorem contains (scope : ScopeId) : t'.contains scope = t.contains scope := by
  rw [ScopeTable.contains, ScopeTable.contains, scopes.length]

theorem chain (scope : ScopeId) : t'.chain scope = t.chain scope := by
  rw [ScopeTable.chain, ScopeTable.chain, scopes.enclosing]

theorem resolve (scope : ScopeId) {x : Symbol} (used : x ∈ ρ.used) :
    t'.resolve scope (ρ.map x) = t.resolve scope x := by
  rw [ScopeTable.resolve, ScopeTable.resolve, scopes.chain]
  exact congrArg (List.findSome? · _) (funext fun e => scopes.lookups e x used)

theorem namespacePath (scope : ScopeId) :
    t'.namespacePath scope = (t.namespacePath scope).map ρ.map := by
  rw [ScopeTable.namespacePath, ScopeTable.namespacePath, scopes.chain, List.map_reverse,
    List.map_filterMap]
  exact congrArg (fun f => (List.filterMap f _).reverse) (funext scopes.name?)

theorem covers_namespacePath (scope : ScopeId) : ρ.Covers (t.namespacePath scope) := by
  intro x member
  rw [ScopeTable.namespacePath, List.mem_reverse, List.mem_filterMap] at member
  obtain ⟨e, -, here⟩ := member
  exact scopes.named e x here

theorem enter (parent : ScopeId) {given : Option Symbol} (used : ∀ x ∈ given, x ∈ ρ.used) :
    (t.enter parent given).2.Mirrors ρ (t'.enter parent (given.map ρ.map)).2 where
  length := by
    simp only [ScopeTable.enter, List.length_append, scopes.length, List.length_singleton]
  enclosing := fun other => by
    rw [enclosing_enter, enclosing_enter, scopes.length, scopes.chain, scopes.enclosing]
  name? := fun other => by
    rw [name?_enter, name?_enter, scopes.length, scopes.name?]
    split <;> rfl
  named := fun other x here => by
    rw [name?_enter] at here
    split at here
    · exact used x here
    · exact scopes.named other x here
  lookups := fun other x hx => by
    rw [lookupIn_enter, lookupIn_enter, scopes.lookups other x hx]

theorem assign (scope : ScopeId) {name : Symbol} (used : name ∈ ρ.used)
    (value : Option BoundValue) :
    (t.assign scope name value).Mirrors ρ (t'.assign scope (ρ.map name) value) where
  length := by
    rw [ScopeTable.assign, ScopeTable.assign, List.length_modify, List.length_modify,
      scopes.length]
  enclosing := fun other => by
    rw [enclosing_assign, enclosing_assign, scopes.enclosing]
  name? := fun other => by rw [name?_assign, name?_assign, scopes.name?]
  named := fun other given here => by
    rw [name?_assign] at here
    exact scopes.named other given here
  lookups := fun other x hx => by
    simp only [lookupIn_assign, scopes.lookups other x hx, scopes.contains,
      ρ.apart.eq_iff hx used]

theorem discard (scope : ScopeId) : (t.discard scope).Mirrors ρ (t'.discard scope) where
  length := by
    rw [ScopeTable.discard, ScopeTable.discard, List.length_modify, List.length_modify,
      scopes.length]
  enclosing := fun other => by
    rw [enclosing_discard, enclosing_discard, scopes.enclosing]
  name? := fun other => by rw [name?_discard, name?_discard, scopes.name?]
  named := fun other given here => by
    rw [name?_discard] at here
    exact scopes.named other given here
  lookups := fun other x hx => by
    rw [lookupIn_discard, lookupIn_discard, scopes.lookups other x hx]

end ScopeTable.Mirrors

/-! ## Steps at the level of declarations -/

/-- Contexts that differ in the names of their scopes and bindings alone. -/
structure Context.Mirrors (ρ : Renaming) (cx cx' : Context) : Prop where
  module : cx'.module = cx.module
  scopes : cx.scopes.Mirrors ρ cx'.scopes
  diagnostics : cx'.diagnostics = cx.diagnostics
  journal : cx'.journal = cx.journal

theorem Context.Mirrors.initial (ρ : Renaming) (name : String) :
    Context.Mirrors ρ (.initial name) (.initial name) :=
  ⟨rfl, .initial ρ, rfl, rfl⟩

variable {ρ : Renaming} {α : Type}

namespace Lower

/-- The same step of lowering on two sides. -/
abbrev Mirrors (ρ : Renaming) (x y : Lower α) : Prop :=
  SsaLowering.Mirrors ρ (Context.Mirrors ρ) x y

theorem refuse_mirrors (cause : LowerError) :
    Mirrors (α := α) ρ (refuse cause) (refuse cause) :=
  .throw (.refused cause)

theorem log_mirrors (event : Event) : Mirrors ρ (log event) (log event) :=
  .modify fun _ _ alike =>
    ⟨alike.module, alike.scopes, alike.diagnostics, congrArg (· ++ [event]) alike.journal⟩

theorem warn_mirrors (diagnostic : Diagnostic) :
    Mirrors ρ (modify (·.warn diagnostic)) (modify (·.warn diagnostic)) :=
  .modify fun _ _ alike =>
    ⟨alike.module, alike.scopes, congrArg (· ++ [diagnostic]) alike.diagnostics,
      congrArg (· ++ [Event.warned diagnostic]) alike.journal⟩

theorem lift_mirrors {ε : Type} (widen : ε → LowerError) (result : Except (Failure ε) α) :
    Mirrors ρ (lift widen result) (lift widen (result.mapError (Failure.rename ρ.map))) := by
  rcases result with (cause | fault) | a
  · exact .throw (.refused (widen cause))
  · exact .throw (.fault fault)
  · exact .pure a

theorem onModule_mirrors (operation : Module → Except BuildError (α × Module)) :
    Mirrors ρ (onModule operation) (onModule operation) := by
  intro cx cx' alike
  rw [onModule_run, onModule_run, alike.module]
  cases operation cx.module with
  | ok result => exact .ok ⟨rfl, alike.scopes, alike.diagnostics, alike.journal⟩
  | error cause => exact .error alike

theorem requireScope_mirrors (scope : ScopeId) :
    Mirrors ρ (requireScope scope) (requireScope scope) := by
  intro cx cx' alike
  rw [requireScope_run, requireScope_run, alike.scopes.contains]
  split
  · exact .ok alike
  · exact .error alike

theorem bind_mirrors (scope : ScopeId) {name : Symbol} (used : name ∈ ρ.used)
    (value : BoundValue) :
    Mirrors ρ (Lower.bind scope name value) (Lower.bind scope (ρ.map name) value) := by
  intro cx cx' alike
  rw [bind_scope_run, bind_scope_run, alike.scopes.contains,
    alike.scopes.lookups scope name used]
  split
  · exact .ok ⟨alike.module, alike.scopes.assign scope used _, alike.diagnostics,
      alike.journal⟩
  · exact .error alike

theorem enter_mirrors (parent : ScopeId) {given : Option Symbol}
    (used : ∀ x ∈ given, x ∈ ρ.used) :
    Mirrors ρ (enter parent given) (enter parent (given.map ρ.map)) := by
  intro cx cx' alike
  -- scopes are numbered in the order in which they are entered, on both sides alike
  have first : (cx'.enter parent (given.map ρ.map)).1 = (cx.enter parent given).1 :=
    congrArg ScopeId.mk alike.scopes.length
  rw [enter_run, enter_run, alike.scopes.contains, first]
  split
  · refine .ok ⟨alike.module, alike.scopes.enter parent used, alike.diagnostics, ?_⟩
    simp only [Context.enter, ScopeTable.enter, alike.scopes.length, alike.journal]
  · exact .error alike

end Lower

/-! ## Steps inside a function -/

/-- The same body over contexts that mirror each other. -/
structure BodyState.Mirrors (ρ : Renaming) (s t : BodyState) : Prop where
  context : s.context.Mirrors ρ t.context
  builder : t.builder = s.builder

namespace LowerBody

/-- The same step of lowering on two sides. -/
abbrev Mirrors (ρ : Renaming) (x y : LowerBody α) : Prop :=
  SsaLowering.Mirrors ρ (BodyState.Mirrors ρ) x y

theorem refuse_mirrors (cause : LowerError) :
    Mirrors (α := α) ρ (refuse cause) (refuse cause) :=
  .throw (.refused cause)

/-- A check that refuses, before the rest of the work. -/
theorem check_mirrors (failed : Prop) [Decidable failed] (cause : LowerError)
    {x y : PUnit → LowerBody α} (rest : Mirrors ρ (x ⟨⟩) (y ⟨⟩)) :
    Mirrors ρ (if failed then refuse cause >>= x else x ⟨⟩)
      (if failed then refuse cause >>= y else y ⟨⟩) := by
  split
  · exact refuse_mirrors cause
  · exact rest

theorem outside_mirrors {x y : Lower α} (run : Lower.Mirrors ρ x y) :
    Mirrors ρ (outside x) (outside y) := by
  intro s t alike
  rw [outside_run, outside_run]
  have ends := run _ _ alike.context
  generalize x s.context = r, y t.context = r' at ends
  cases ends with
  | ok context => exact .ok ⟨context, alike.builder⟩
  | error context => exact .error ⟨context, alike.builder⟩

theorem context_bind_mirrors {β : Type} {f g : Context → LowerBody β}
    (next : ∀ cx cx', cx.Mirrors ρ cx' → Mirrors ρ (f cx) (g cx')) :
    Mirrors ρ (context >>= f) (context >>= g) :=
  fun s t alike => next s.context t.context alike.context s t alike

theorem builder_mirrors : Mirrors ρ builder builder := by
  intro s t alike
  rw [builder_run, builder_run, alike.builder]
  exact .ok alike

theorem emit_mirrors (operation : Builder → Except BuildError (α × Builder)) :
    Mirrors ρ (emit operation) (emit operation) := by
  intro s t alike
  rw [emit_run, emit_run, alike.builder]
  cases operation s.builder with
  | ok result => exact .ok ⟨alike.context, rfl⟩
  | error cause => exact .error alike

theorem emitUnit_mirrors (operation : Builder → Except BuildError Builder) :
    Mirrors ρ (emit_ operation) (emit_ operation) :=
  emit_mirrors _

theorem operandTy_mirrors (operand : Ir.Operand) :
    Mirrors ρ (operandTy operand) (operandTy operand) := by
  rw [operandTy, ask]
  exact emit_mirrors _

theorem resolve_mirrors (scope : ScopeId) {name : Symbol} (used : name ∈ ρ.used) :
    Mirrors ρ (resolve scope name) (resolve scope (ρ.map name)) := by
  refine (outside_mirrors (Lower.requireScope_mirrors scope)).bind fun _ => ?_
  refine context_bind_mirrors fun cx cx' alike => ?_
  rw [alike.scopes.resolve scope used]
  exact .pure _

theorem lookupIn_mirrors (scope : ScopeId) {name : Symbol} (used : name ∈ ρ.used) :
    Mirrors ρ (lookupIn scope name) (lookupIn scope (ρ.map name)) := by
  refine (outside_mirrors (Lower.requireScope_mirrors scope)).bind fun _ => ?_
  refine context_bind_mirrors fun cx cx' alike => ?_
  rw [alike.scopes.lookups scope name used]
  exact .pure _

theorem inScope_mirrors (parent : ScopeId) {work work' : ScopeId → LowerBody α}
    (inner : ∀ scope, Mirrors ρ (work scope) (work' scope)) :
    Mirrors ρ (inScope parent work) (inScope parent work') := by
  refine (outside_mirrors (Lower.enter_mirrors parent (by simp))).bind fun scope => ?_
  intro s t alike
  have ends := inner scope s t alike
  -- the bindings of the scope end on both sides, however the work ended
  have left {s t : BodyState} (alike : s.Mirrors ρ t) : (s.leave scope).Mirrors ρ (t.leave scope) :=
    ⟨⟨alike.context.module, alike.context.scopes.discard scope, alike.context.diagnostics,
      alike.context.journal⟩, alike.builder⟩
  simp only
  generalize work scope s = r, work' scope t = r' at ends
  cases ends with
  | ok alike => exact .ok (left alike)
  | error alike => exact .error (left alike)

end LowerBody

end SsaLowering
