/-
# SsaLowering.Proofs.Lower.References -- handles never dangle and never change meaning

Handles are positions that are given out again after a rollback, so a handle that
was kept from work that failed would later lead to something else.  None is: the
code of an installed function mentions only what the module has
(`OperandRule.linked`), and what is kept of a context outside of bodies is linked
and bound under the right names (`Context.Linked`).  Functions and constant data
that are there stay under their handles (`Lowered.handles_stable`).
-/
import SsaLowering.Proofs.Lower.Operands

namespace SsaLowering

set_option autoImplicit false

open Ir (Module Function)

variable {env : Environment}

/-! ## Bodies -/

/-- What a binding mentions of the module. -/
def BoundValue.references : BoundValue → List Ir.Reference
  | .direct operand => operand.references
  | _ => []

/-- The module has what an operand mentions. -/
def OperandRule.linked : OperandRule where
  Holds m operand := m.HasAll operand.references
  widen has wider := has.widen wider
  value m _ := m.hasAll_nil
  bool m _ := m.hasAll_nil
  double m _ := m.hasAll_nil
  function m _ known := Module.hasAll_cons.2 ⟨known, m.hasAll_nil⟩

/-- The bytes of a string literal are new constant data. -/
theorem OperandRule.linked_admits (string : Ir.Ty) : OperandRule.linked.Admits string := by
  intro ty m bytes same
  simp [linked, Ir.Operand.references, Ir.Constant.references, Ir.Constant.allReferences,
    Module.HasAll, Module.Has, Module.addConstant]

section Contexts

variable {cx cx' : Context} {scope : ScopeId} {decl : FunctionDecl} {f : Function}

/-- What is bound outside of functions mentions functions alone, and known ones. -/
theorem BoundValue.Standing.references {m : Module} {table : ScopeTable} {bound : BoundValue}
    (standing : bound.Standing m table) : m.HasAll bound.references := by
  have covers : OperandRule.linked.Covers m bound := OperandRule.covers_of_standing standing
  cases bound with
  | direct operand => exact covers
  | _ => exact m.hasAll_nil

/-- An installed function mentions what the module has. -/
theorem lowerFunction_linked (sound : cx.Sound) (run : lowerFunction env scope decl cx = .ok () cx')
    (added : cx'.module.functions = cx.module.functions ++ [f]) : f.Linked cx'.module :=
  Function.linked_iff.2 (lowerFunction_obeys (OperandRule.linked_admits _) sound run added)

/-! ## Contexts between functions -/

/-- A handle that is bound to a name in a scope leads to a function under the linkage name of
this name there, which is the linkage name of one of the declarations that were lowered. -/
def Context.Leads (calls : Environment → FunctionDecl → Prop) (cx : Context) (scope : ScopeId)
    (name : Symbol) (id : Ir.FuncId) : Prop :=
  ∃ env decl f, calls env decl ∧ decl.name = name ∧ cx.module.function? id = some f ∧
    env.mangler.mangle (ε := LowerError) env.symbols cx.scopes scope (env.name name) = .ok f.name

/-- Every function mentions what the module has, and every binding leads to a function of the
right name. -/
structure Context.Linked (calls : Environment → FunctionDecl → Prop) (cx : Context) : Prop where
  functions : ∀ f ∈ cx.module.functions, f.Linked cx.module
  bindings : ∀ scope x id, cx.scopes.lookupIn scope x = some (.direct (.function id)) →
    cx.Leads calls scope x id

variable {calls : Environment → FunctionDecl → Prop}

/-- A linkage name is made of the namespaces around a scope. -/
theorem mangle_congr {ε : Type} {mangler : Mangler} {symbols : SymbolTable}
    {scopes scopes' : ScopeTable} {scope : ScopeId} {name : String}
    (path : scopes'.namespacePath scope = scopes.namespacePath scope) :
    mangler.mangle (ε := ε) symbols scopes' scope name =
      mangler.mangle symbols scopes scope name := by
  rw [Mangler.mangle, path]
  rfl

namespace Context

theorem Leads.mono {x : Symbol} {id : Ir.FuncId} (leads : cx.Leads calls scope x id)
    (functions : cx.module.functions <+: cx'.module.functions)
    (path : cx'.scopes.namespacePath scope = cx.scopes.namespacePath scope) :
    cx'.Leads calls scope x id := by
  obtain ⟨env, decl, f, call, same, known, linked⟩ := leads
  refine ⟨env, decl, f, call, same, ?_, (mangle_congr path).trans linked⟩
  obtain ⟨more, longer⟩ := functions
  obtain ⟨bound, -⟩ := List.getElem?_eq_some_iff.1 known
  rw [Ir.Module.function?, ← longer, List.getElem?_append_left bound]
  exact known

/-- A change of the scopes that binds no function. -/
theorem Linked.rescoped (linked : cx.Linked calls) (sound : cx.Sound)
    (module : cx'.module = cx.module) (scopes : cx.scopes.Extends cx'.scopes)
    (names : ∀ other x id, cx'.scopes.lookupIn other x = some (.direct (.function id)) →
      cx.scopes.lookupIn other x = some (.direct (.function id))) : cx'.Linked calls where
  functions := by
    rw [module]
    exact linked.functions
  bindings := by
    intro other x id here
    have before := names other x id here
    have inside : cx.scopes.contains other := by
      by_contra outside
      rw [ScopeTable.lookupIn_of_not_contains outside] at before
      cases before
    exact (linked.bindings other x id before).mono (module ▸ List.prefix_rfl)
      (scopes.namespacePath sound.ordered inside)

theorem Linked.unchanged (linked : cx.Linked calls) (sound : cx.Sound)
    (unchanged : cx.Unchanged cx') : cx'.Linked calls := by
  refine linked.rescoped sound unchanged.module (.of_frames unchanged.frames) ?_
  intro other x id here
  by_cases old : cx.scopes.contains other
  · rwa [ScopeTable.lookupIn_congr (unchanged.frames other old)] at here
  · rw [unchanged.fresh other x old] at here
    cases here

/-- A new function is linked, and bound to the name it was declared under. -/
theorem Linked.installs (linked : cx.Linked calls) (sound : cx.Sound) (call : calls env decl)
    (installs : cx.Installs env scope decl f cx') (code : f.Linked cx'.module) :
    cx'.Linked calls where
  functions := by
    rw [installs.functions, List.forall_mem_append]
    refine ⟨fun g member => (linked.functions g member).widen installs.widens, ?_⟩
    rwa [List.forall_mem_singleton]
  bindings := by
    intro other x id here
    have old : cx.scopes.contains other := by
      by_contra outside
      rw [installs.fresh other x outside] at here
      cases here
    have path := installs.extends_.namespacePath sound.ordered old
    rw [ScopeTable.lookupIn_congr (installs.frames other old), ScopeTable.lookupIn_assign] at here
    split at here
    · rename_i new
      obtain ⟨rfl, -, rfl⟩ := new
      cases here
      refine ⟨env, decl, f, call, rfl, ?_, (mangle_congr path).trans installs.linked⟩
      simp [Ir.Module.function?, installs.functions]
    · exact (linked.bindings other x id here).mono
        (installs.functions ▸ List.prefix_append _ _) path

end Context

theorem Step.linked (step : Step calls cx cx') (sound : cx.Sound) (linked : cx.Linked calls) :
    cx'.Linked calls := by
  cases step with
  | log event => exact linked.rescoped sound rfl (.refl _) fun _ _ _ here => here
  | warn diagnostic => exact linked.rescoped sound rfl (.refl _) fun _ _ _ here => here
  | @enter scope inside name =>
    refine linked.rescoped sound rfl (cx.scopes.extends_enter scope (some name)) ?_
    intro other x id here
    exact (ScopeTable.lookupIn_enter _).symm.trans here
  | bind scope name named =>
    refine linked.rescoped sound rfl (cx.scopes.extends_assign scope name _) ?_
    intro other x id here
    simp only [ScopeTable.lookupIn_assign] at here
    split at here
    · cases here
    · exact here
  | @function env decl call scope =>
    have leaves := lowerFunction_leaves env scope decl sound
    cases run : lowerFunction env scope decl cx with
    | error failure after =>
      rw [run] at leaves
      rw [Lower.after_error run]
      exact linked.unchanged sound leaves
    | ok u after =>
      rw [run] at leaves
      obtain ⟨f, installs⟩ := leaves
      rw [Lower.after_ok run]
      exact linked.installs sound call installs
        (lowerFunction_linked sound run installs.functions)

theorem Run.linked (run : Run calls cx cx') (sound : cx.Sound) (linked : cx.Linked calls) :
    cx'.Linked calls := by
  induction run with
  | refl => exact linked
  | tail path step ih => exact step.linked (Run.sound path sound).1 ih

/-- A step adds constant data at the end, if any. -/
theorem Step.globals (step : Step calls cx cx') (sound : cx.Sound) :
    cx.module.globals <+: cx'.module.globals := by
  cases step with
  | log event => exact List.prefix_rfl
  | warn diagnostic => exact List.prefix_rfl
  | enter inside name => exact List.prefix_rfl
  | bind scope name named => exact List.prefix_rfl
  | @function env decl call scope =>
    have leaves := lowerFunction_leaves env scope decl sound
    cases run : lowerFunction env scope decl cx with
    | error failure after =>
      rw [run] at leaves
      rw [Lower.after_error run, leaves.module]
    | ok u after =>
      rw [run] at leaves
      obtain ⟨f, installs⟩ := leaves
      rw [Lower.after_ok run]
      exact installs.globals

theorem Run.globals (run : Run calls cx cx') (sound : cx.Sound) :
    cx.module.globals <+: cx'.module.globals := by
  induction run with
  | refl => exact List.prefix_rfl
  | tail path step ih => exact ih.trans (step.globals (Run.sound path sound).1)

end Contexts

/-- After any units, whether they were lowered or ended in an error, every handle in a function
or a binding leads somewhere, every handle that is bound to a name leads to the function
under the linkage name of this name, and another unit leaves all functions and constant data
under their handles. -/
theorem Lowered.handles_stable {name : String} {units : List (Environment × SourceUnit)}
    {cx : Context} (lowered : Lowered name units cx) :
    (∀ f ∈ cx.module.functions, f.Linked cx.module) ∧
    (∀ scope x bound, cx.scopes.lookupIn scope x = some bound →
      cx.module.HasAll bound.references) ∧
    (∀ scope x id, cx.scopes.lookupIn scope x = some (.direct (.function id)) →
      ∃ env unit f, (env, unit) ∈ units ∧ cx.module.function? id = some f ∧
        env.mangler.mangle (ε := LowerError) env.symbols cx.scopes scope (env.name x) =
          .ok f.name ∧
        cx.module.functionNamed? f.name = some id) ∧
    ∀ env unit,
      cx.module.functions <+: ((lowerUnit env unit).after cx).module.functions ∧
        cx.module.globals <+: ((lowerUnit env unit).after cx).module.globals := by
  have sound := lowered.reached.sound
  have linked : cx.Linked (calledBy units) := by
    refine lowered.run.linked (Context.sound_initial name) ⟨nofun, ?_⟩
    intro scope x id here
    have standing := (Context.sound_initial name).standing scope x _ here
    obtain ⟨signature, known⟩ := Option.isSome_iff_exists.1 standing
    cases known
  refine ⟨linked.functions, ?_, ?_, ?_⟩
  · intro scope x bound here
    exact (sound.standing scope x bound here).references
  · intro scope x id here
    obtain ⟨env, decl, f, ⟨unit, member, -⟩, -, known, mangled⟩ := linked.bindings scope x id here
    exact ⟨env, unit, f, member, known, mangled,
      Module.functionNamed?_of_function? sound.indexed
        (Module.verify_ok.1 sound.verified).1 known⟩
  · intro env unit
    have walked : (lowerUnit env unit).Walks (fun _ _ => True) cx :=
      lowerUnit_walks env unit sound fun _ _ => trivial
    exact ⟨(Run.sound walked sound).2.functions, Run.globals walked sound⟩

/-- `let y = "x"; return x`, which takes the handles that `Sample.unresolved` gave up -/
def Sample.resolved : FunctionDecl :=
  function [declare .let_ (.string "x" .unplaced), .ret (some x) .unplaced]

/-- The unit of one function. -/
def Sample.alone (decl : FunctionDecl) : SourceUnit := ⟨⟨0⟩, "sample", [.function decl]⟩

theorem Lowered.handles_stable_sample :
    ∃ cx, Lowered "m" [(Sample.standard, Sample.alone Sample.unresolved),
        (Sample.standard, Sample.alone Sample.resolved)] cx ∧
      ∃ f, cx.module.functions = [f] ∧ f.name = "f" ∧ f.references = [.global ⟨0⟩] ∧
        f.Linked cx.module ∧ cx.scopes.lookupIn ScopeTable.global ⟨0⟩ =
          some (.direct (.function ⟨0⟩)) ∧ cx.module.functionNamed? "f" = some ⟨0⟩ := by
  have first : Lowered "m" [(Sample.standard, Sample.alone Sample.unresolved)] _ :=
    .unit .initial Sample.standard (Sample.alone Sample.unresolved)
  have lowered := first.unit Sample.standard (Sample.alone Sample.resolved)
  refine ⟨_, lowered, ?_⟩
  obtain ⟨linked, -, named, -⟩ := lowered.handles_stable
  have left : (fun cx : Context => (cx.module.functions.map fun f => (f.name, f.references),
      cx.scopes.lookupIn ScopeTable.global ⟨0⟩))
      ((lowerUnit Sample.standard (Sample.alone Sample.resolved)).after
        ((lowerUnit Sample.standard (Sample.alone Sample.unresolved)).after (.initial "m"))) =
        ([("f", [.global ⟨0⟩])], some (.direct (.function ⟨0⟩))) := by cbv
  obtain ⟨functions, bound⟩ := Prod.mk.inj left
  obtain ⟨f, rest, added, here, nothing⟩ := List.map_eq_cons_iff.1 functions
  obtain rfl := List.map_eq_nil_iff.1 nothing
  obtain ⟨name, references⟩ := Prod.mk.inj here
  obtain ⟨env, unit, g, -, known, -, found⟩ := named _ _ _ bound
  rw [Ir.Module.function?, added] at known
  cases known
  rw [name] at found
  exact ⟨f, added, name, references, linked f (added ▸ List.mem_singleton_self f), bound, found⟩

end SsaLowering
