/-
# SsaLowering.Proofs.Checked.Safety -- states from which no step slips

The scopes are safe when they are threaded, when what is bound as a namespace is a scope
of the table, and when the name of every namespace has a text (`ScopeTable.Safe`).  The
builder has to be `Counted`.  Every primitive step of lowering keeps this, and from a state
that has it each checked step is the one of lowering.
-/
import SsaLowering.Proofs.Checked.Emission

namespace SsaLowering

set_option autoImplicit false

open Ir (Ty BlockId ValueId Operand Builder BuildError Action Terminator Function FunctionTy Module)

/-! ## Scopes -/

/-- The scope that a binding leads to. -/
def innerScope : Option BoundValue → List ScopeId
  | some (.namespace_ inner) => [inner]
  | _ => []

theorem mem_innerScope {bound : Option BoundValue} {inner : ScopeId} :
    inner ∈ innerScope bound ↔ bound = some (.namespace_ inner) := by
  unfold innerScope
  split
  · rw [List.mem_singleton, Option.some.injEq, BoundValue.namespace_.injEq, eq_comm]
  · rename_i other
    constructor
    · intro absent
      cases absent
    · rintro rfl
      exact absurd rfl (other inner)

namespace ScopeTable

variable {symbols : SymbolTable} {t : ScopeTable} {scope parent : ScopeId} {name : Symbol}

/-- Scopes in which every access has an answer. -/
structure Safe (symbols : SymbolTable) (t : ScopeTable) : Prop where
  threaded : t.Threaded
  inner : ∀ scope name, ∀ inner ∈ innerScope (t.lookupIn scope name), t.contains inner
  named : ∀ scope name, t.name? scope = some name → (symbols.resolve? name).isSome

theorem safe_initial (symbols : SymbolTable) : initial.Safe symbols where
  threaded := threaded_initial
  inner := by
    rintro ⟨_ | i⟩ name inner member <;> cases member
  named := by
    rintro ⟨_ | i⟩ name named <;> cases named

namespace Safe

variable (safe : t.Safe symbols)

include safe

theorem enter (inside : t.contains parent) {given : Option Symbol}
    (issued : ∀ name, given = some name → (symbols.resolve? name).isSome) :
    (t.enter parent given).2.Safe symbols where
  threaded := safe.threaded.enter inside given
  inner := by
    intro scope name inner member
    rw [lookupIn_enter] at member
    exact (t.extends_enter parent given).contains inner (safe.inner scope name inner member)
  named := by
    intro scope name named
    rw [name?_enter] at named
    split at named
    · exact issued name named
    · exact safe.named scope name named

theorem assign (scope : ScopeId) (name : Symbol) {value : Option BoundValue}
    (known : ∀ inner ∈ innerScope value, t.contains inner) :
    (t.assign scope name value).Safe symbols where
  threaded := safe.threaded.congr (length_assign ..) fun _ => enclosing_assign _
  inner := by
    intro other x inner member
    refine (t.extends_assign scope name value).contains inner ?_
    rw [lookupIn_assign] at member
    split at member
    · exact known inner member
    · exact safe.inner other x inner member
  named := by
    intro other x named
    rw [name?_assign] at named
    exact safe.named other x named

theorem discard (scope : ScopeId) : (t.discard scope).Safe symbols where
  threaded := safe.threaded.congr (List.length_modify ..) fun _ => enclosing_discard
  inner := by
    intro other x inner member
    refine (t.extends_discard scope).contains inner ?_
    rw [lookupIn_discard] at member
    split at member
    · cases member
    · exact safe.inner other x inner member
  named := by
    intro other x named
    rw [name?_discard] at named
    exact safe.named other x named

theorem inner_of_resolve (scope : ScopeId) (name : Symbol) :
    ∀ inner ∈ innerScope (t.resolve scope name), t.contains inner := by
  intro inner member
  obtain ⟨place, -, found⟩ := lookupIn_of_resolve (mem_innerScope.1 member)
  exact safe.inner place name inner (mem_innerScope.2 found)

end Safe

end ScopeTable

/-! ## States -/

namespace Environment

/-- Contexts with safe scopes. -/
def contexts (env : Environment) : Watch Context where
  safe cx := cx.scopes.Safe env.symbols
  scopes cx := cx.scopes

/-- Bodies in such a context, under construction by a builder that counts its names. -/
def bodies (env : Environment) : Watch BodyState where
  safe s := s.context.scopes.Safe env.symbols ∧ s.builder.Counted
  scopes s := s.context.scopes

end Environment

namespace Checked

open Watch (nowhere)

variable {env : Environment} {within : List ScopeId} {scope parent : ScopeId} {α : Type}

/-! ## Steps at the level of declarations -/

/-- A step that leaves the scopes alone. -/
theorem agrees_of_scopes {step : Lower α}
    (ends : ∀ cx, (∃ a cx', step cx = .ok a cx' ∧ cx'.scopes = cx.scopes) ∨
      ∃ cause cx', step cx = .error (.refused cause) cx' ∧ cx'.scopes = cx.scopes) :
    env.contexts.Agrees within nowhere (plain step) step := by
  refine .of_settles fun cx safe _ => ?_
  have reaches {cx' : Context} (same : cx'.scopes = cx.scopes) : env.contexts.Reaches cx cx' := by
    constructor
    · show cx'.scopes.Safe env.symbols
      rw [same]
      exact safe
    · show cx.scopes.Extends cx'.scopes
      rw [same]
      exact .refl _
  obtain ⟨a, cx', run, same⟩ | ⟨cause, cx', run, same⟩ := ends cx
  · rw [run]
    exact .ok (reaches same) (Watch.has_nowhere _ _ _)
  · rw [run]
    exact .refused (reaches same)

theorem log_agrees (event : Event) :
    env.contexts.Agrees within nowhere (plain (Lower.log event)) (Lower.log event) :=
  agrees_of_scopes fun _ => .inl ⟨_, _, rfl, rfl⟩

theorem warn_agrees (diagnostic : Diagnostic) :
    env.contexts.Agrees within nowhere (plain (modify (·.warn diagnostic)))
      (modify (·.warn diagnostic)) :=
  agrees_of_scopes fun _ => .inl ⟨_, _, rfl, rfl⟩

theorem onModule_agrees (operation : Module → Except BuildError (α × Module)) :
    env.contexts.Agrees within nowhere (plain (Lower.onModule operation))
      (Lower.onModule operation) := by
  refine agrees_of_scopes fun cx => ?_
  rw [Lower.onModule_run]
  cases operation cx.module with
  | ok made => exact .inl ⟨_, _, rfl, rfl⟩
  | error cause => exact .inr ⟨_, _, rfl, rfl⟩

/-- The new scope is there. -/
theorem enter_agrees (inside : parent ∈ within) {given : Option Symbol}
    (issued : ∀ name, given = some name → (env.symbols.resolve? name).isSome) :
    env.contexts.Agrees within (fun scope => [scope]) (plain (Lower.enter parent given))
      (Lower.enter parent given) := by
  refine .of_settles fun cx safe has => ?_
  have there : cx.scopes.contains parent := has parent inside
  rw [Lower.enter_run, if_pos there]
  refine .ok ⟨safe.enter there issued, cx.scopes.extends_enter parent given⟩ ?_
  intro scope member
  rw [List.mem_singleton.1 member]
  exact cx.scopes.contains_enter_new parent given

/-- What a new binding replaces leads to a scope that is there. -/
theorem bind_agrees (inside : scope ∈ within) (name : Symbol) {value : BoundValue}
    (known : ∀ inner ∈ innerScope (some value), inner ∈ within) :
    env.contexts.Agrees within innerScope (plain (Lower.bind scope name value))
      (Lower.bind scope name value) := by
  refine .of_settles fun cx safe has => ?_
  have there : cx.scopes.contains scope := has scope inside
  have extends_ := cx.scopes.extends_assign scope name (some value)
  rw [Lower.bind_scope_run, if_pos there]
  refine .ok ⟨safe.assign scope name fun inner member => has inner (known inner member),
    extends_⟩ fun inner member => ?_
  exact extends_.contains inner (safe.inner scope name inner member)

theorem restore_agrees (inside : scope ∈ within) (name : Symbol) {previous : Option BoundValue}
    (known : ∀ inner ∈ innerScope previous, inner ∈ within) :
    env.contexts.Agrees within nowhere (restore scope name previous)
      (modify fun cx => { cx with scopes := cx.scopes.restore scope name previous }) := by
  intro cx safe has
  have there : cx.scopes.contains scope := has scope inside
  obtain ⟨frame, found, -⟩ := ScopeTable.frame_of_contains there
  constructor
  · rw [restore, bind_run, get_run]
    show (discard (answer (cx.scopes.frame scope)) >>= _ : Checked Context Unit) cx = _
    rw [found]
    rfl
  · exact .ok ⟨safe.assign scope name fun inner member => has inner (known inner member),
      cx.scopes.extends_assign scope name previous⟩ (Watch.has_nowhere _ _ _)

/-! ## Steps inside a function -/

theorem outside_agrees {step : Lower α} {leads : α → List ScopeId}
    (agrees : env.contexts.Agrees within leads (plain step) step) :
    env.bodies.Agrees within leads (plain (LowerBody.outside step)) (LowerBody.outside step) := by
  refine .of_settles fun s safe has => ?_
  have settles := (agrees s.context safe.1 has).2
  rw [LowerBody.outside_run]
  generalize step s.context = outcome at settles
  cases settles with
  | ok reaches has' => exact .ok ⟨⟨reaches.safe, safe.2⟩, reaches.extends_⟩ has'
  | refused reaches => exact .refused ⟨⟨reaches.safe, safe.2⟩, reaches.extends_⟩

theorem context_agrees :
    env.bodies.Agrees within nowhere (plain LowerBody.context) LowerBody.context :=
  .of_settles fun _ safe _ => .ok (.refl safe) (Watch.has_nowhere _ _ _)

theorem builder_agrees :
    env.bodies.Agrees within nowhere (plain LowerBody.builder) LowerBody.builder :=
  .of_settles fun _ safe _ => .ok (.refl safe) (Watch.has_nowhere _ _ _)

theorem resolve_agrees (inside : scope ∈ within) (name : Symbol) :
    env.bodies.Agrees within innerScope (resolve scope name) (LowerBody.resolve scope name) := by
  intro s safe has
  have there : s.context.scopes.contains scope := has scope inside
  rw [plain, LowerBody.resolve_run, if_pos there]
  constructor
  · rw [resolve, bind_run, get_run]
    show (answer (s.context.scopes.resolveUp name s.context.scopes.frames.length scope) :
      Checked BodyState (Option BoundValue)) s = _
    rw [safe.1.threaded.resolveUp_eq name _ scope there (ScopeTable.contains_iff.1 there)]
    rfl
  · exact .ok (.refl safe) (safe.1.inner_of_resolve scope name)

theorem lookupIn_agrees (inside : scope ∈ within) (name : Symbol) :
    env.bodies.Agrees within nowhere (plain (LowerBody.lookupIn scope name))
      (LowerBody.lookupIn scope name) := by
  refine .of_settles fun s safe has => ?_
  have there : s.context.scopes.contains scope := has scope inside
  rw [LowerBody.lookupIn_run, if_pos there]
  exact .ok (.refl safe) (Watch.has_nowhere _ _ _)

theorem leave_run {s : BodyState} (there : s.context.scopes.contains scope) :
    leave scope s = .ok () (s.leave scope) := by
  obtain ⟨frame, found, -⟩ := ScopeTable.frame_of_contains there
  rw [leave, bind_run, get_run]
  show (discard (answer (s.context.scopes.frame scope)) >>= _ : Checked BodyState Unit) s = _
  rw [found]
  rfl

theorem inScope_agrees (inside : parent ∈ within) {work : ScopeId → Checked BodyState α}
    {work' : ScopeId → LowerBody α}
    (agrees : ∀ inner, env.bodies.Agrees (inner :: within) nowhere (work inner) (work' inner)) :
    env.bodies.Agrees within nowhere (inScope parent work) (LowerBody.inScope parent work') := by
  refine (outside_agrees (enter_agrees inside fun _ absent => by cases absent)).bind
    fun inner s safe has => ?_
  obtain ⟨same, settles⟩ := agrees inner s safe has
  have here : (s.context.scopes).contains inner := has inner List.mem_cons_self
  have left {t : BodyState} (reaches : env.bodies.Reaches s t) :
      leave inner t = .ok () (t.leave inner) ∧ env.bodies.Reaches s (t.leave inner) :=
    ⟨leave_run (reaches.extends_.contains inner here),
      ⟨reaches.safe.1.discard inner, reaches.safe.2⟩,
      reaches.extends_.trans (t.context.scopes.extends_discard inner)⟩
  dsimp only [plain]
  rw [same, plain]
  generalize work' inner s = outcome at settles
  cases settles with
  | @ok a t reaches _ =>
    refine ⟨?_, .ok (left reaches).2 (Watch.has_nowhere _ _ _)⟩
    show (leave inner >>= fun _ => pure a) t = _
    rw [bind_run, (left reaches).1]
    rfl
  | @refused cause t reaches =>
    refine ⟨?_, .refused (left reaches).2⟩
    show (leave inner >>= fun _ => refuse cause) t = _
    rw [bind_run, (left reaches).1]
    rfl

/-! ## Emissions -/

/-- An operation of the builder that goes on counting. -/
theorem builds {operation : Builder → Except BuildError (α × Builder)}
    (counts : ∀ b a b', b.Counted → operation b = .ok (a, b') → b'.Counted) :
    env.bodies.Agrees within nowhere (plain (LowerBody.emit operation))
      (LowerBody.emit operation) := by
  refine .of_settles fun s safe _ => ?_
  rw [LowerBody.emit_run]
  cases made : operation s.builder with
  | error cause => exact .refused (.refl safe)
  | ok made' =>
    obtain ⟨a, b⟩ := made'
    exact .ok ⟨⟨safe.1, counts s.builder a b safe.2 made⟩, .refl _⟩ (Watch.has_nowhere _ _ _)

theorem ask_agrees (question : Builder → Except BuildError α) :
    env.bodies.Agrees within nowhere (ask question) (LowerBody.ask question) := by
  refine builds fun b a b' counted asked => ?_
  obtain ⟨_, -, same⟩ := except_bind_ok.1 asked
  cases same
  exact counted

theorem operandTy_agrees (operand : Operand) :
    env.bodies.Agrees within nowhere (plain (LowerBody.operandTy operand))
      (LowerBody.operandTy operand) :=
  ask_agrees _

theorem emit_agrees (action : Action) (signature : Option FunctionTy) :
    env.bodies.Agrees within nowhere (emit action signature)
      (LowerBody.emit (·.emit action signature)) := by
  refine .of_eq (fun s _ => emit_eq action signature s) (builds ?_)
  rintro b result b' counted made
  obtain ⟨block, ty, -, -, -, rfl⟩ := Builder.emit_ok.1 made
  exact counted.push block action ty

theorem emitValue_agrees {action : Action}
    (valued : ∀ f : Function, f.checkAction none action ≠ .ok none) :
    env.bodies.Agrees within nowhere (emitValue action)
      (LowerBody.emit (·.emitValue action)) := by
  refine .of_eq (fun s _ => emitValue_eq valued s) (builds ?_)
  rintro b value b' counted made
  obtain ⟨block, ty, -, -, -, rfl⟩ := Builder.emitValue_ok.1 made
  exact counted.push block action (some ty)

theorem store_agrees (value ptr : Operand) :
    env.bodies.Agrees within nowhere (store value ptr) (LowerBody.emit_ (·.store value ptr)) := by
  refine .of_eq (fun s _ => store_eq value ptr s) (builds ?_)
  rintro b ⟨⟩ b' counted made
  obtain ⟨b, stored, same⟩ := except_bind_ok.1 made
  cases same
  obtain ⟨block, -, -, rfl⟩ := Builder.store_ok.1 stored
  exact counted.push block _ none

theorem terminate_agrees (terminator : Terminator) :
    env.bodies.Agrees within nowhere (terminate terminator)
      (LowerBody.emit_ (·.terminate terminator)) := by
  refine .of_eq (fun s _ => terminate_eq terminator s) (builds ?_)
  rintro b ⟨⟩ b' counted made
  obtain ⟨b, ended, same⟩ := except_bind_ok.1 made
  cases same
  obtain ⟨block, -, -, rfl⟩ := Builder.terminate_ok.1 ended
  exact counted.close block terminator

theorem positionAtEnd_agrees (block : BlockId) :
    env.bodies.Agrees within nowhere (plain (LowerBody.emit_ (·.positionAtEnd block)))
      (LowerBody.emit_ (·.positionAtEnd block)) := by
  refine builds ?_
  rintro b ⟨⟩ b' counted made
  obtain ⟨b, selected, same⟩ := except_bind_ok.1 made
  cases same
  obtain ⟨-, rfl⟩ := Builder.positionAtEnd_ok.1 selected
  exact ⟨counted.labels, counted.names⟩

theorem appendBlock_agrees (name : String) :
    env.bodies.Agrees within nowhere (appendBlock name) (LowerBody.appendBlock name) := by
  refine .of_eq (fun s safe => appendBlock_eq safe.2 name) (builds ?_)
  rintro b block b' counted made
  cases made
  exact counted.appendBlock name

theorem nameValue_agrees (value : ValueId) (name : String) :
    env.bodies.Agrees within nowhere (nameValue value name)
      (LowerBody.emit (·.nameValue value name)) := by
  refine .of_eq (fun s safe => nameValue_eq safe.2 value name) (builds ?_)
  rintro b named b' counted made
  obtain ⟨data, known, ⟨-, -, rfl⟩ | ⟨unnamed, -, rfl⟩⟩ := Builder.nameValue_ok.1 made
  · exact counted
  · exact counted.rename known unnamed name

theorem alloca_agrees (ty : Ty) (name : String) :
    env.bodies.Agrees within nowhere (alloca ty name) (LowerBody.emit (·.alloca ty name)) := by
  refine .of_eq (fun s safe => alloca_eq safe.2 ty name) (builds ?_)
  rintro b ptr b' counted made
  obtain ⟨-, -, -, rfl⟩ := Builder.alloca_ok.1 made
  exact counted.reserve ty name

end Checked

end SsaLowering
