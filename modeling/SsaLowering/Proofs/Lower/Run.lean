/-
# SsaLowering.Proofs.Lower.Run -- contexts that lowering can reach

Lowering a unit is a walk along small steps (`Step`): events, warnings, new
namespaces, bindings of namespaces, and functions, which are lowered or refused.
Every step keeps a context sound and everything that was there, so the module of
every context that is reached passes verification, and every function in it stems
from a declaration that was lowered (`Lowered.module_verified`).
-/
import SsaLowering.Program
import SsaLowering.Proofs.Lower.Declaration

namespace SsaLowering

set_option autoImplicit false

open Ir (Function)

variable {cx cx' cx'' : Context} {scope : ScopeId} {env : Environment}

/-! ## Steps -/

/-- The context that work leads to, however it ends. -/
def Lower.after {α : Type} (work : Lower α) (cx : Context) : Context :=
  match work cx with
  | .ok _ cx' => cx'
  | .error _ cx' => cx'

theorem Lower.after_ok {α : Type} {work : Lower α} {a : α} (run : work cx = .ok a cx') :
    work.after cx = cx' := by
  rw [after, run]

theorem Lower.after_error {α : Type} {work : Lower α} {failure : Failure LowerError}
    (run : work cx = .error failure cx') : work.after cx = cx' := by
  rw [after, run]

/-- The context that work leads to when it does not fail. -/
def Lower.finished? {α : Type} (work : Lower α) (cx : Context) : Option Context :=
  match work cx with
  | .ok _ cx' => some cx'
  | .error _ _ => none

theorem Lower.ok_of_finished {work : Lower Unit} (finished : work.finished? cx = some cx') :
    work cx = .ok () cx' := by
  unfold Lower.finished? at finished
  split at finished
  · rename_i run
    cases finished
    exact run
  · cases finished

mutual

/-- The function declarations of an item, those inside of namespaces included. -/
def Item.functions : Item → List FunctionDecl
  | .function decl => [decl]
  | .namespace_ _ items _ => Item.allFunctions items
  | _ => []

def Item.allFunctions : List Item → List FunctionDecl
  | [] => []
  | item :: rest => item.functions ++ Item.allFunctions rest

end

/-- One step of lowering, where `calls` says which declarations there are. -/
inductive Step (calls : Environment → FunctionDecl → Prop) : Context → Context → Prop
  | log (cx : Context) (event : Event) : Step calls cx (cx.log event)
  | warn (cx : Context) (diagnostic : Diagnostic) : Step calls cx (cx.warn diagnostic)
  | enter (cx : Context) {scope : ScopeId} (inside : cx.scopes.contains scope) (name : Symbol) :
      Step calls cx (cx.enter scope (some name)).2
  | bind (cx : Context) (scope : ScopeId) (name : Symbol) {inner : ScopeId}
      (named : (cx.scopes.name? inner).isSome) :
      Step calls cx
        { cx with scopes := cx.scopes.assign scope name (some (.namespace_ inner)) }
  | function (cx : Context) {env : Environment} {decl : FunctionDecl} (call : calls env decl)
      (scope : ScopeId) : Step calls cx ((lowerFunction env scope decl).after cx)

/-- Steps in a row. -/
abbrev Run (calls : Environment → FunctionDecl → Prop) : Context → Context → Prop :=
  Relation.ReflTransGen (Step calls)

variable {calls : Environment → FunctionDecl → Prop}

theorem Run.mono {more : Environment → FunctionDecl → Prop}
    (wider : ∀ env decl, calls env decl → more env decl) (run : Run calls cx cx') :
    Run more cx cx' := by
  refine Relation.ReflTransGen.mono (fun _ _ step => ?_) _ _ run
  cases step with
  | log event => exact .log _ event
  | warn diagnostic => exact .warn _ diagnostic
  | enter inside name => exact .enter _ inside name
  | bind scope name named => exact .bind _ scope name named
  | function call scope => exact .function _ (wider _ _ call) scope

/-! ## What a step keeps -/

theorem Context.Sound.enter (sound : cx.Sound) (inside : cx.scopes.contains scope)
    (name : Symbol) :
    (cx.enter scope (some name)).2.Sound ∧ cx.Follows (cx.enter scope (some name)).2 := by
  have names : ∀ other, (cx.scopes.name? other).isSome →
      ((cx.scopes.enter scope (some name)).2.name? other).isSome := by
    intro other named
    rw [ScopeTable.name?, ScopeTable.frame?_enter]
    split
    · rfl
    · exact named
  have contains : ∀ other, cx.scopes.contains other →
      (cx.scopes.enter scope (some name)).2.contains other := by
    intro other known
    rw [ScopeTable.contains_iff] at known ⊢
    simp only [ScopeTable.enter, List.length_append, List.length_singleton]
    omega
  refine ⟨⟨sound.ordered.enter inside _, contains _ sound.root, fun other x bound here => ?_,
    sound.indexed, sound.verified⟩, List.prefix_rfl, contains, names⟩
  have before : cx.scopes.lookupIn other x = some bound :=
    (ScopeTable.lookupIn_enter _).symm.trans here
  exact (sound.standing other x bound before).mono (fun _ _ known => known) names

theorem Context.Sound.bind (sound : cx.Sound) (scope : ScopeId) (name : Symbol)
    {inner : ScopeId} (named : (cx.scopes.name? inner).isSome) :
    Sound { cx with scopes := cx.scopes.assign scope name (some (.namespace_ inner)) } ∧
      cx.Follows { cx with scopes := cx.scopes.assign scope name (some (.namespace_ inner)) } := by
  have names : ∀ other, (cx.scopes.name? other).isSome →
      ((cx.scopes.assign scope name (some (.namespace_ inner))).name? other).isSome := by
    intro other named
    rwa [ScopeTable.name?_assign]
  have contains : ∀ other, cx.scopes.contains other →
      (cx.scopes.assign scope name (some (.namespace_ inner))).contains other := by
    intro other known
    rw [ScopeTable.contains_iff] at known ⊢
    rwa [ScopeTable.assign, List.length_modify]
  refine ⟨⟨sound.ordered.congr fun _ => ScopeTable.enclosing_assign _, contains _ sound.root,
    fun other x bound here => ?_, sound.indexed, sound.verified⟩, List.prefix_rfl, contains, names⟩
  simp only [ScopeTable.lookupIn_assign] at here
  split at here
  · cases here
    exact names inner named
  · exact (sound.standing other x bound here).mono (fun _ _ known => known) names

theorem Step.sound (step : Step calls cx cx') (sound : cx.Sound) :
    cx'.Sound ∧ cx.Follows cx' := by
  cases step with
  | log event => exact ⟨sound.restored (cx.restored_log event), (cx.restored_log event).follows⟩
  | warn diagnostic =>
    exact ⟨sound.restored (cx.restored_warn diagnostic), (cx.restored_warn diagnostic).follows⟩
  | enter inside name => exact sound.enter inside name
  | bind scope name named => exact sound.bind scope name named
  | @function env decl call scope =>
    have next := lowerFunction_sound env scope decl sound
    unfold Lower.after
    split at next
    · rename_i run
      rw [run]
      exact ⟨next.1, next.2.1⟩
    · rename_i run
      rw [run]
      exact ⟨next.1, next.2.1⟩

theorem Run.sound (run : Run calls cx cx') (sound : cx.Sound) : cx'.Sound ∧ cx.Follows cx' := by
  induction run with
  | refl => exact ⟨sound, .refl _⟩
  | tail _ step ih =>
    obtain ⟨before, follows⟩ := ih
    obtain ⟨next, follows'⟩ := step.sound before
    exact ⟨next, follows.trans follows'⟩

/-! ## Lowering walks along steps -/

/-- Work that walks along steps from a sound context. -/
def Lower.Walks (calls : Environment → FunctionDecl → Prop) (cx : Context) {α : Type}
    (work : Lower α) : Prop :=
  Run calls cx (work.after cx)

theorem Lower.Walks.bind {α β : Type} {work : Lower α} {next : α → Lower β}
    (first : work.Walks calls cx)
    (second : ∀ a cx', work cx = .ok a cx' → (next a).Walks calls cx') :
    (work >>= next).Walks calls cx := by
  unfold Lower.Walks Lower.after at *
  rw [bind_run]
  cases run : work cx with
  | error failure cx' =>
    rw [run] at first
    exact first
  | ok a cx' =>
    rw [run] at first
    have rest := second a cx' run
    simp only []
    exact first.trans rest

theorem Lower.Walks.step {α : Type} {work : Lower α} (step : Step calls cx (work.after cx)) :
    work.Walks calls cx :=
  .single step

/-- Binding a namespace fails only in a scope that does not exist. -/
theorem bindNamespace_walks {name : Symbol} {inner : ScopeId}
    (named : (cx.scopes.name? inner).isSome) :
    Lower.Walks calls cx (do discard <| Lower.bind scope name (.namespace_ inner)) := by
  by_cases here : cx.scopes.contains scope
  · have bound : (Functor.discard (Lower.bind scope name (.namespace_ inner)) : Lower Unit) cx =
        .ok () { cx with scopes := cx.scopes.assign scope name (some (.namespace_ inner)) } :=
      discard_ok.2 ⟨_, (Lower.bind_scope_run scope name _ cx).trans (if_pos here)⟩
    refine .step ?_
    rw [Lower.after_ok bound]
    exact .bind cx scope name named
  · have missing : (Functor.discard (Lower.bind scope name (.namespace_ inner)) : Lower Unit) cx =
        .error (.fault (.missingScope scope.index)) cx := by
      show EStateM.map _ _ cx = _
      unfold EStateM.map
      rw [Lower.bind_scope_run, if_neg here]
    rw [Lower.Walks, Lower.after_error missing]

/-- A namespace is entered, filled and then bound. -/
theorem namespace_walks (event : Event) (sound : cx.Sound) (inside : cx.scopes.contains scope)
    (name : Symbol) (work : ScopeId → Lower Unit)
    (walks : ∀ inner cx, cx.Sound → cx.scopes.contains inner → (work inner).Walks calls cx) :
    Lower.Walks calls cx (do
      Lower.log event
      let inner ← Lower.enter scope (some name)
      work inner
      discard <| Lower.bind scope name (.namespace_ inner)) := by
  have logged := cx.restored_log event
  have within : (cx.log event).scopes.contains scope := logged.contains scope inside
  refine .bind (.step (.log cx event)) fun _ next run => ?_
  rw [Lower.log_run] at run
  cases run
  refine .bind (.step ?_) fun inner entered run => ?_
  · rw [Lower.after_ok (Lower.enter_ok.2 ⟨within, rfl, rfl⟩)]
    exact .enter _ within name
  · obtain ⟨_, rfl, rfl⟩ := Lower.enter_ok.1 run
    have sound' := ((sound.restored logged).enter within name).1
    have named : (((cx.log event).scopes.enter scope (some name)).2.name?
        ((cx.log event).scopes.enter scope (some name)).1).isSome := by
      rw [ScopeTable.name?_enter_new]
      rfl
    have filled : (work ((cx.log event).enter scope (some name)).1).Walks calls _ :=
      walks _ _ sound' (ScopeTable.contains_enter_new _ scope (some name))
    refine .bind filled fun _ done run => ?_
    have follows := (Run.sound filled sound').2
    rw [Lower.after_ok run] at follows
    exact bindNamespace_walks (follows.names _ named)

mutual

theorem lowerItem_walks (env : Environment) : ∀ (item : Item) (scope : ScopeId) (cx : Context),
    cx.Sound → cx.scopes.contains scope → (∀ decl ∈ item.functions, calls env decl) →
    (lowerItem env scope item).Walks calls cx
  | .function decl, scope, cx, _, _, listed => by
    rw [lowerItem]
    exact .step (.function cx (listed decl (by simp [Item.functions])) scope)
  | .namespace_ name items span, scope, cx, sound, inside, listed => by
    rw [lowerItem]
    refine namespace_walks _ sound inside name (lowerItems env · items)
      fun inner cx sound known => ?_
    refine lowerItems_walks env items inner cx sound known fun decl member => ?_
    exact listed decl (by rwa [Item.functions])
  | .class_ name span, scope, cx, _, _, _ => by
    rw [lowerItem]
    exact .step (.warn cx _)
  | .interface name span, scope, cx, _, _, _ => by
    rw [lowerItem]
    exact .step (.warn cx _)
  | .typeAlias name type span, scope, cx, _, _, _ => by
    rw [lowerItem]
    exact .step (.warn cx _)

theorem lowerItems_walks (env : Environment) : ∀ (items : List Item) (scope : ScopeId)
    (cx : Context), cx.Sound → cx.scopes.contains scope →
    (∀ decl ∈ Item.allFunctions items, calls env decl) →
    (lowerItems env scope items).Walks calls cx
  | [], scope, cx, _, _, _ => by
    rw [lowerItems]
    exact .refl
  | item :: rest, scope, cx, sound, inside, listed => by
    rw [Item.allFunctions] at listed
    have first := lowerItem_walks env item scope cx sound inside fun decl member =>
      listed decl (List.mem_append_left _ member)
    rw [lowerItems]
    refine .bind first fun _ cx' run => ?_
    have next := Run.sound first sound
    rw [Lower.after_ok run] at next
    exact lowerItems_walks env rest scope cx' next.1 (next.2.contains scope inside)
      fun decl member => listed decl (List.mem_append_right _ member)

end

/-! ## Units -/

/-- A unit that lies before one of the calls of a run. -/
def calledBy (units : List (Environment × SourceUnit)) (env : Environment)
    (decl : FunctionDecl) : Prop :=
  ∃ unit, (env, unit) ∈ units ∧ decl ∈ Item.allFunctions unit.items

theorem lowerUnit_walks (env : Environment) (unit : SourceUnit) (sound : cx.Sound)
    (listed : ∀ decl ∈ Item.allFunctions unit.items, calls env decl) :
    (lowerUnit env unit).Walks calls cx := by
  rw [lowerUnit]
  refine .bind (.step (.log cx _)) fun _ logged run => ?_
  cases run
  exact lowerItems_walks env unit.items _ _ (sound.restored (cx.restored_log _)) sound.root listed

/-- The contexts between units, each of which was lowered or ended in an error. -/
inductive Lowered (name : String) : List (Environment × SourceUnit) → Context → Prop
  | initial : Lowered name [] (.initial name)
  | unit {units : List (Environment × SourceUnit)} {cx : Context} (before : Lowered name units cx)
      (env : Environment) (unit : SourceUnit) :
      Lowered name (units ++ [(env, unit)]) ((lowerUnit env unit).after cx)

variable {name : String} {units : List (Environment × SourceUnit)}

theorem Lowered.run (lowered : Lowered name units cx) :
    Run (calledBy units) (.initial name) cx := by
  induction lowered with
  | initial => exact .refl
  | @unit units cx before env unit ih =>
    have sound := (Run.sound ih (Context.sound_initial name)).1
    refine (ih.mono fun env decl ⟨unit, member, among⟩ =>
      ⟨unit, List.mem_append_left _ member, among⟩).trans ?_
    exact lowerUnit_walks env unit sound fun decl among =>
      ⟨unit, List.mem_append_right _ (List.mem_singleton.2 rfl), among⟩

/-- A context that lowering can be in, between units or inside of one. -/
def Context.Reached (cx : Context) : Prop :=
  ∃ name, Run (fun _ _ => True) (.initial name) cx

theorem Context.Reached.sound (reached : cx.Reached) : cx.Sound := by
  obtain ⟨name, run⟩ := reached
  exact (Run.sound run (Context.sound_initial name)).1

theorem Lowered.reached (lowered : Lowered name units cx) : cx.Reached :=
  ⟨name, lowered.run.mono fun _ _ _ => trivial⟩

/-- Units that are lowered follow on those before them. -/
theorem lowerUnits_lowered {env : Environment} : ∀ {more : List SourceUnit}
    {units : List (Environment × SourceUnit)} {cx cx' : Context}, Lowered name units cx →
      lowerUnits env more cx = .ok () cx' → Lowered name (units ++ more.map (env, ·)) cx'
  | [], units, cx, cx', lowered, run => by
    rw [lowerUnits] at run
    cases run
    rwa [List.map_nil, List.append_nil]
  | source :: rest, units, cx, cx', lowered, run => by
    rw [lowerUnits, bind_ok] at run
    obtain ⟨_, next, first, run⟩ := run
    have begun := lowered.unit env source
    rw [Lower.after_ok first] at begun
    rw [List.map_cons, List.append_cons]
    exact lowerUnits_lowered begun run

/-- A program that is lowered is the module and the warnings after its units. -/
theorem lowerProgram_lowered {env : Environment} {sources : List SourceUnit}
    {program : LoweredProgram} (run : (lowerProgram env name sources).1 = .ok program) :
    ∃ cx, Lowered name (sources.map (env, ·)) cx ∧ program = ⟨cx.module, cx.diagnostics⟩ := by
  unfold lowerProgram at run
  split at run <;> cases run
  rename_i after lowered
  rw [lowerAll, bind_ok] at lowered
  obtain ⟨_, cx, units, lowered⟩ := lowered
  rw [bind_run, get_run] at lowered
  cases verified : cx.module.verify with
  | error defect =>
    simp only [verified] at lowered
    cases lowered
  | ok u =>
    simp only [verified] at lowered
    cases lowered
    exact ⟨cx, lowerUnits_lowered .initial units, rfl⟩

/-! ## Where functions come from -/

/-- Function `i` of a context was added by the lowering of a declaration, and has a body
exactly when its declaration has one. -/
def Stems (calls : Environment → FunctionDecl → Prop) (start cx : Context) (i : Nat)
    (f : Function) : Prop :=
  ∃ env decl scope before after, calls env decl ∧ Run calls start before ∧
    lowerFunction env scope decl before = .ok () after ∧ Run calls after cx ∧
    before.module.functions.length = i ∧ after.module.functions[i]? = some f ∧
    (f.isDeclaration ↔ decl.body = none)

theorem Stems.step {start : Context} {i : Nat} {f : Function} (stems : Stems calls start cx i f)
    (step : Step calls cx cx') : Stems calls start cx' i f := by
  obtain ⟨env, decl, scope, before, after, call, run, lowered, rest, place⟩ := stems
  exact ⟨env, decl, scope, before, after, call, run, lowered, rest.tail step, place⟩

/-- A step adds no function, or one that it lowers. -/
theorem Step.functions (step : Step calls cx cx') (sound : cx.Sound) :
    cx'.module.functions = cx.module.functions ∨
      ∃ env decl scope f, calls env decl ∧ lowerFunction env scope decl cx = .ok () cx' ∧
        cx'.module.functions = cx.module.functions ++ [f] ∧
        (f.isDeclaration ↔ decl.body = none) := by
  cases step with
  | log event => exact Or.inl rfl
  | warn diagnostic => exact Or.inl rfl
  | enter inside name => exact Or.inl rfl
  | bind scope name named => exact Or.inl rfl
  | @function env decl call scope =>
    have next := lowerFunction_sound env scope decl sound
    unfold Lower.after
    split at next
    · rename_i cx' run
      obtain ⟨-, -, f, added, body⟩ := next
      exact Or.inr ⟨env, decl, scope, f, call, by rw [run], by rw [run]; exact added, body⟩
    · rename_i run
      rw [run]
      exact Or.inl (congrArg _ next.2.2)

theorem Run.stems {start : Context} (run : Run calls start cx) (sound : start.Sound)
    (empty : start.module.functions = []) {i : Nat} {f : Function}
    (known : cx.module.functions[i]? = some f) : Stems calls start cx i f := by
  induction run generalizing i f with
  | refl =>
    rw [empty] at known
    cases known
  | @tail before after path step ih =>
    rcases step.functions (Run.sound path sound).1 with
      same | ⟨env, decl, scope, g, call, lowered, added, body⟩
    · exact (ih (same ▸ known)).step step
    · rcases Nat.lt_or_ge i before.module.functions.length with old | new
      · rw [added, List.getElem?_append_left old] at known
        exact (ih known).step step
      · obtain ⟨bound, -⟩ := List.getElem?_eq_some_iff.1 known
        rw [added, List.length_append, List.length_singleton] at bound
        obtain rfl : i = before.module.functions.length := by omega
        have last : after.module.functions[before.module.functions.length]? = some g := by
          rw [added]
          simp
        obtain rfl := Option.some.inj (last.symm.trans known)
        exact ⟨env, decl, scope, before, after, call, path, lowered, .refl, rfl, last, body⟩

/-! ## The module is always verified -/

theorem lowerUnits_walks (env : Environment) : ∀ (units : List SourceUnit) (cx : Context),
    cx.Sound → (lowerUnits env units).Walks (fun _ _ => True) cx
  | [], cx, _ => by
    rw [lowerUnits]
    exact .refl
  | unit :: rest, cx, sound => by
    rw [lowerUnits]
    have first : (lowerUnit env unit).Walks (fun _ _ => True) cx :=
      lowerUnit_walks env unit sound fun _ _ => trivial
    refine .bind first fun _ cx' run => ?_
    have next := (Run.sound first sound).1
    rw [Lower.after_ok run] at next
    exact lowerUnits_walks env rest cx' next

/-- After any units, whether they were lowered or ended in an error, the module passes
verification, and each of its functions stems from a declaration of a unit that was lowered,
with a body exactly when the declaration has one.  So the verification at the end of
`lowerAll` never fails. -/
theorem Lowered.module_verified (lowered : Lowered name units cx) :
    cx.module.verify = .ok () ∧
      (∀ i f, cx.module.functions[i]? = some f →
        Stems (calledBy units) (.initial name) cx i f) ∧
      ∀ env more cx', lowerUnits env more cx = .ok () cx' →
        ∃ cx'', lowerAll env more cx = .ok ⟨cx'.module, cx'.diagnostics⟩ cx'' := by
  have sound := lowered.reached.sound
  refine ⟨sound.verified, fun i f known => ?_, fun env more cx' run => ?_⟩
  · exact lowered.run.stems (Context.sound_initial name) rfl known
  · have walked := lowerUnits_walks env more cx sound
    have next := (Run.sound walked sound).1
    rw [Lower.after_ok run] at next
    refine ⟨cx'.log (.programLowered more.length cx'.module.name cx'.module.functions.length
      cx'.diagnostics.length), ?_⟩
    rw [lowerAll, bind_run, run]
    simp only []
    rw [bind_run, get_run]
    simp only [next.verified]
    rfl

/-! ## A small program -/

namespace Sample

/-- The names `f`, `x` and `y`. -/
def symbols : SymbolTable := ⟨["f", "x", "y"], by simp⟩

def standard : Environment := .standard symbols .usual

def x : Expr := .identifier ⟨1⟩ .unplaced

def y : Expr := .identifier ⟨2⟩ .unplaced

/-- A variable `y`. -/
def declare (kind : BindingKind) (init : Expr) : Stmt :=
  .vars kind [⟨⟨2⟩, none, some init, .unplaced⟩] .unplaced

/-- `function f(x: number): number` with a body. -/
def function (stmts : List Stmt) : FunctionDecl where
  name := ⟨0⟩
  params := [⟨⟨1⟩, .number, .unplaced⟩]
  returnType := some .number
  body := some ⟨stmts, .unplaced⟩
  span := .unplaced

/-- `const y = x + x; return y` -/
def double : FunctionDecl :=
  function [declare .const (.binary .add x x .unplaced), .ret (some y) .unplaced]

def unit : SourceUnit := ⟨⟨0⟩, "sample", [.function double]⟩

end Sample

theorem Lowered.module_verified_sample :
    Lowered "m" [(Sample.standard, Sample.unit)]
        ((lowerUnit Sample.standard Sample.unit).after (.initial "m")) ∧
      ((lowerUnit Sample.standard Sample.unit).after (.initial "m")).module.functions.length = 1 ∧
      ((lowerUnit Sample.standard Sample.unit).after (.initial "m")).module.verify = .ok () := by
  have lowered : Lowered "m" [(Sample.standard, Sample.unit)] _ :=
    .unit .initial Sample.standard Sample.unit
  exact ⟨lowered, by cbv, lowered.module_verified.1⟩

end SsaLowering
