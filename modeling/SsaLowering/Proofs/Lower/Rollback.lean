/-
# SsaLowering.Proofs.Lower.Rollback -- a failed function leaves no trace

A function is declared and bound before its body is lowered, so a failure has three
things to take back: the function, the constant data of the body, and a binding
that may have replaced another.  `attemptFunction` is the same work with nothing
taken back.  The two fail on the same declarations with the same error
(`attempt_error_iff`); after a failure the module and every scope are as they were
(`Context.Unchanged`), and after a success one function and one binding are new
(`Context.Installs`).
-/
import SsaLowering.Proofs.Lower.Run

namespace SsaLowering

set_option autoImplicit false

open Ir (Function FuncId FunctionTy)

variable {cx cx' after : Context} {scope : ScopeId} {env : Environment} {decl : FunctionDecl}
  {signature : FunctionTy} {linkage : String} {failure : Failure LowerError}

/-! ## The work without the rollback -/

/-- What is known of a function once it is declared and bound. -/
structure DeclaredFunction where
  linkage : String
  id : FuncId
  previous : Option BoundValue

/-- The part of `lowerFunction` that comes before the body. -/
def declareFunction (env : Environment) (scope : ScopeId) (decl : FunctionDecl) :
    Lower DeclaredFunction := do
  let signature ← Lower.lift .type (decl.signature? env.types env.symbols)
  Lower.requireScope scope
  let linkage ← Lower.lift id
    (env.mangler.mangle env.symbols (← get).scopes scope (env.name decl.name))
  Lower.log (.functionDeclared linkage signature)
  let id ← Lower.onModule (·.declare linkage signature)
  let previous ← Lower.bind scope decl.name (.direct (.function id))
  return ⟨linkage, id, previous⟩

/-- Declare a function and lower its body, and leave everything in place if that fails. -/
def attemptFunction (env : Environment) (scope : ScopeId) (decl : FunctionDecl) : Lower Unit := do
  let declared ← declareFunction env scope decl
  match decl.body with
  | none => return ()
  | some body =>
    lowerBody env scope declared.id decl body.stmts
    Lower.log (.functionLowered declared.linkage)

/-- `lowerFunction` is the attempt with the body's failures undone. -/
theorem lowerFunction_eq (env : Environment) (scope : ScopeId) (decl : FunctionDecl) :
    lowerFunction env scope decl = (do
      let declared ← declareFunction env scope decl
      match decl.body with
      | none => return ()
      | some body =>
        let globals := (← get).module.globals.length
        (lowerBody env scope declared.id decl body.stmts).orUndo fun cause => do
          Lower.log (.functionDropped declared.linkage cause)
          retractDeclaration scope decl.name declared.id globals declared.previous
        Lower.log (.functionLowered declared.linkage)) := by
  simp only [declareFunction, bind_assoc, pure_bind]
  rfl

/-- A function that was declared had a header. -/
theorem declareFunction_ok {declared : DeclaredFunction}
    (run : declareFunction env scope decl cx = .ok declared cx') :
    ∃ signature, Header env scope decl cx signature declared.linkage ∧
      declared.id = ⟨cx.module.functions.length⟩ ∧
      declared.previous = cx.scopes.lookupIn scope decl.name ∧
      cx' = cx.declare scope decl.name (.declare declared.linkage signature) := by
  rw [declareFunction, bind_ok] at run
  obtain ⟨signature, _, typed, run⟩ := run
  obtain ⟨signed, rfl⟩ := Lower.lift_ok.1 typed
  rw [bind_ok] at run
  obtain ⟨_, _, required, run⟩ := run
  obtain ⟨inside, rfl⟩ := Lower.requireScope_ok.1 required
  rw [bind_run, get_run, bind_ok] at run
  obtain ⟨linkage, _, mangled, run⟩ := run
  obtain ⟨linked, rfl⟩ := Lower.lift_ok.1 mangled
  rw [bind_run, Lower.log_run, bind_ok] at run
  obtain ⟨id, _, appended, run⟩ := run
  obtain ⟨module, named, rfl⟩ := Lower.onModule_ok.1 appended
  obtain ⟨free, rfl, rfl⟩ := Ir.Module.declare_ok.1 named
  rw [bind_ok] at run
  obtain ⟨previous, _, bound, run⟩ := run
  obtain ⟨-, rfl, rfl⟩ := Lower.bind_scope_ok.1 bound
  cases run
  exact ⟨signature, ⟨signed, inside, linked, free⟩, rfl, rfl, rfl⟩

/-- A body that is refused has touched nothing outside of its own scopes. -/
theorem lowerBody_refused (sound : cx.Sound) (header : Header env scope decl cx signature linkage)
    {stmts : List Stmt} {cause : LowerError}
    (run : lowerBody env scope ⟨cx.module.functions.length⟩ decl stmts
      (cx.declare scope decl.name (.declare linkage signature)) = .error (.refused cause) after) :
    (cx.declare scope decl.name (.declare linkage signature)).Spares scope after := by
  rw [lowerBody_run] at run
  split at run
  · rename_i t build
    obtain ⟨-, done, -⟩ := building_ok sound header build
    split at run
    · cases run
      exact done.1
    · rw [define_built done] at run
      cases run
  · rename_i failure t build
    cases run
    exact (building_refused sound header build).2.2

/-- Undoing adds no error of its own. -/
theorem Lower.orUndo_error_iff {work : Lower Unit} {undo : LowerError → Lower Unit}
    (undone : ∀ cause after, work cx = .error (.refused cause) after →
      ∃ cx', undo cause after = .ok () cx') :
    (∃ cx', work.orUndo undo cx = .error failure cx') ↔
      ∃ after, work cx = .error failure after := by
  rw [Lower.orUndo]
  cases run : work cx with
  | ok a cx' => simp
  | error failure' after =>
    cases failure' with
    | fault fault => simp
    | refused cause =>
      obtain ⟨cx', kept⟩ := undone cause after run
      simp [kept]

/-- The event after a piece of work is no reason to fail. -/
theorem Lower.log_error_iff {work : Lower Unit} {event : Event} :
    (∃ cx', (work >>= fun _ => Lower.log event) cx = .error failure cx') ↔
      ∃ cx', work cx = .error failure cx' := by
  rw [bind_run]
  cases work cx <;> simp [Lower.log_run]

/-- A function fails to be lowered exactly when the attempt fails, and with the error that
the attempt met. -/
theorem attempt_error_iff (sound : cx.Sound) :
    (∃ cx', lowerFunction env scope decl cx = .error failure cx') ↔
      ∃ after, attemptFunction env scope decl cx = .error failure after := by
  rw [lowerFunction_eq, attemptFunction, bind_run, bind_run]
  cases run : declareFunction env scope decl cx with
  | error failure' cx' => rfl
  | ok declared cx' =>
    obtain ⟨signature, header, id, previous, rfl⟩ := declareFunction_ok run
    cases decl.body with
    | none => rfl
    | some body =>
      -- what is undone is the declaration, in the state in which its body was refused
      have undone : ∀ cause after, lowerBody env scope declared.id decl body.stmts
          (cx.declare scope decl.name (.declare declared.linkage signature)) =
            .error (.refused cause) after →
          ∃ cx', (do
            Lower.log (.functionDropped declared.linkage cause)
            retractDeclaration scope decl.name declared.id cx.module.globals.length
              declared.previous : Lower Unit) after = .ok () cx' := by
        intro cause after refused
        rw [id] at refused ⊢
        rw [previous]
        exact ⟨_, undo_run sound header (lowerBody_refused sound header refused) cause⟩
      refine Lower.log_error_iff.trans ?_
      refine Iff.trans ?_ Lower.log_error_iff.symm
      exact Lower.orUndo_error_iff undone

/-! ## What is left behind -/

/-- A context in which nothing can be found that was not there before, apart from warnings
and events. -/
structure Context.Unchanged (cx cx' : Context) : Prop where
  module : cx'.module = cx.module
  frames : ∀ other, cx.scopes.contains other → cx'.scopes.frame? other = cx.scopes.frame? other
  fresh : ∀ other x, ¬ cx.scopes.contains other → cx'.scopes.lookupIn other x = none
  diagnostics : cx.diagnostics <+: cx'.diagnostics

/-- A context with the function of a declaration, which is bound to its name. -/
structure Context.Installs (cx : Context) (env : Environment) (scope : ScopeId)
    (decl : FunctionDecl) (f : Function) (cx' : Context) : Prop where
  inside : cx.scopes.contains scope
  linked : env.mangler.mangle (ε := LowerError) env.symbols cx.scopes scope
    (env.name decl.name) = .ok f.name
  free : cx.module.functionNamed? f.name = none
  body : f.isDeclaration ↔ decl.body = none
  module : ∃ more, cx'.module = (cx.module.appended f).withGlobals more
  frames : ∀ other, cx.scopes.contains other →
    cx'.scopes.frame? other = (cx.scopes.assign scope decl.name
      (some (.direct (.function ⟨cx.module.functions.length⟩)))).frame? other
  fresh : ∀ other x, ¬ cx.scopes.contains other → cx'.scopes.lookupIn other x = none
  diagnostics : cx.diagnostics <+: cx'.diagnostics

namespace Context

theorem Unchanged.of_scopes (module : cx'.module = cx.module) (scopes : cx'.scopes = cx.scopes)
    (diagnostics : cx.diagnostics <+: cx'.diagnostics) : cx.Unchanged cx' where
  module := module
  frames := fun _ _ => by rw [scopes]
  fresh := fun other x outside => by
    rw [scopes]
    exact ScopeTable.lookupIn_of_not_contains outside
  diagnostics := diagnostics

/-- A whole body leaves every frame around it as it was. -/
theorem Spares.frame?_eq (spares : cx.Spares scope cx') {other : ScopeId}
    (old : cx.scopes.contains other) : cx'.scopes.frame? other = cx.scopes.frame? other :=
  ScopeTable.frame?_congr old (spares.contains old) (spares.names other)
    (spares.enclosing other old) (spares.lookups other)

/-- The binding that a declaration replaced is put back. -/
theorem unchanged_dropped (inside : cx.scopes.contains scope) {name : Symbol}
    (spares : (cx.declare scope name (.declare linkage signature)).Spares scope after)
    (cause : LowerError) : cx.Unchanged (cx.dropped scope name linkage cause after) where
  module := rfl
  frames := by
    intro other old
    have declared : (cx.declare scope name (.declare linkage signature)).scopes.contains other :=
      (gains_declare inside name (.declare linkage signature)).contains other old
    rw [dropped, ScopeTable.restore, ScopeTable.frame?_assign, spares.frame?_eq declared,
      ← ScopeTable.frame?_assign]
    exact congrArg (ScopeTable.frame? · other) (cx.scopes.restore_bind scope name _)
  fresh := by
    intro other x outside
    rw [(restored_dropped inside spares cause).lookups]
    exact ScopeTable.lookupIn_of_not_contains outside
  diagnostics := spares.diagnostics

theorem Installs.functions {f : Function} (installs : cx.Installs env scope decl f cx') :
    cx'.module.functions = cx.module.functions ++ [f] := by
  obtain ⟨more, same⟩ := installs.module
  rw [same]
  rfl

theorem Installs.globals {f : Function} (installs : cx.Installs env scope decl f cx') :
    cx.module.globals <+: cx'.module.globals := by
  obtain ⟨more, same⟩ := installs.module
  rw [same]
  exact List.prefix_append _ _

/-- One more function under one name is all that a success adds. -/
theorem Gains.installs {f : Function} (gains : cx.Gains scope decl.name f cx')
    (header : Header env scope decl cx signature f.name)
    (body : f.isDeclaration ↔ decl.body = none)
    (enclosing : ∀ other, cx.scopes.contains other →
      cx'.scopes.enclosing other = cx.scopes.enclosing other)
    (diagnostics : cx.diagnostics <+: cx'.diagnostics) : cx.Installs env scope decl f cx' where
  inside := header.inside
  linked := header.linked
  free := header.free
  body := body
  module := gains.module
  frames := by
    intro other old
    have bound : (cx.scopes.assign scope decl.name
        (some (.direct (.function ⟨cx.module.functions.length⟩)))).contains other :=
      (gains_declare header.inside decl.name f).contains other old
    apply ScopeTable.frame?_congr bound (gains.contains other old)
    · rw [gains.names, ScopeTable.name?_assign]
    · rw [enclosing other old, ScopeTable.enclosing_assign]
    · exact gains.lookups other
  fresh := by
    intro other x outside
    have differs : scope ≠ other := fun same => outside (same ▸ header.inside)
    rw [gains.lookups, ScopeTable.lookupIn_assign, if_neg fun all => differs all.1]
    exact ScopeTable.lookupIn_of_not_contains outside
  diagnostics := diagnostics

end Context

/-- What the lowering of a function leaves, however it ends. -/
theorem lowerFunction_leaves (env : Environment) (scope : ScopeId) (decl : FunctionDecl)
    (sound : cx.Sound) :
    match lowerFunction env scope decl cx with
    | .ok () cx' => ∃ f, cx.Installs env scope decl f cx'
    | .error _ cx' => cx.Unchanged cx' := by
  have outcome : FunctionOutcome env scope decl cx (lowerFunction env scope decl cx) :=
    lowerFunction_outcome sound
  generalize lowerFunction env scope decl cx = r at outcome
  cases outcome with
  | unheaded none_ other kept =>
    rcases kept with rfl | ⟨event, rfl⟩
    · exact .of_scopes rfl rfl List.prefix_rfl
    · exact .of_scopes rfl rfl List.prefix_rfl
  | @external signature linkage header absent =>
    have gains := Context.gains_declare header.inside decl.name (.declare linkage signature)
    refine ⟨_, gains.installs header ?_ (fun _ _ => ScopeTable.enclosing_assign _)
      List.prefix_rfl⟩
    simp [absent]
    rfl
  | refused header present build =>
    exact Context.unchanged_dropped header.inside (building_refused sound header build).2.2 _
  | defective header present build found =>
    obtain ⟨-, done, -⟩ := building_ok sound header build
    exact Context.unchanged_dropped header.inside done.1 _
  | @installed signature linkage body t header present build passed =>
    obtain ⟨-, done, ready⟩ := building_ok sound header build
    have gains := Context.gains_finished header.inside done
    have named : t.builder.function.name = linkage := done.2.name
    refine ⟨_, gains.installs (named ▸ header) ?_ ?_ done.1.diagnostics⟩
    · simp [present, Function.isDeclaration, ready.nonempty]
    · intro other old
      have declared := (Context.gains_declare header.inside decl.name
        (.declare linkage signature)).contains other old
      exact (done.1.enclosing other declared).trans (ScopeTable.enclosing_assign _)

/-- A function that fails to be lowered leaves no trace: the module, every scope and every
binding are as before, a scope of its body is empty, the warnings before stay, and the error
is the one that the work met, never one of taking it back.  A function that is lowered
changes no binding but its own. -/
theorem Context.Reached.rolls_back (reached : cx.Reached) (env : Environment) (scope : ScopeId)
    (decl : FunctionDecl) :
    (∀ failure cx', lowerFunction env scope decl cx = .error failure cx' →
      cx.Unchanged cx' ∧ ∃ after, attemptFunction env scope decl cx = .error failure after) ∧
    ∀ cx', lowerFunction env scope decl cx = .ok () cx' →
      ∀ other x, cx.scopes.contains other →
        cx'.scopes.lookupIn other x ≠ cx.scopes.lookupIn other x →
        other = scope ∧ x = decl.name := by
  have leaves := lowerFunction_leaves env scope decl reached.sound
  constructor
  · intro failure cx' run
    rw [run] at leaves
    exact ⟨leaves, (attempt_error_iff reached.sound).1 ⟨cx', run⟩⟩
  · intro cx' run other x old changed
    rw [run] at leaves
    obtain ⟨f, installs⟩ := leaves
    rw [ScopeTable.lookupIn_congr (installs.frames other old),
      ScopeTable.lookupIn_assign] at changed
    by_contra elsewhere
    rw [if_neg fun all => elsewhere ⟨all.1.symm, all.2.2⟩] at changed
    exact changed rfl

theorem Lower.error_of_unfinished {work : Lower Unit} (unfinished : work.finished? cx = none) :
    ∃ failure cx', work cx = .error failure cx' := by
  unfold Lower.finished? at unfinished
  split at unfinished
  · cases unfinished
  · exact ⟨_, _, ‹_›⟩

/-- A context in which `f` is a namespace. -/
def Sample.taken : Context :=
  (lowerItem standard ScopeTable.global (.namespace_ ⟨0⟩ [] .unplaced)).after (.initial "m")

/-- `"x"; return y`, where nothing is called `y` -/
def Sample.unresolved : FunctionDecl :=
  function [.expression (.string "x" .unplaced) .unplaced, .ret (some y) .unplaced]

theorem Context.Reached.rolls_back_sample :
    Sample.taken.Reached ∧
      ∃ failure cx', lowerFunction Sample.standard ScopeTable.global Sample.unresolved
          Sample.taken = .error failure cx' ∧
        Sample.taken.Unchanged cx' ∧
        ∃ after, attemptFunction Sample.standard ScopeTable.global Sample.unresolved
            Sample.taken = .error failure after ∧
          after.module.functions.length = 1 ∧ after.module.globals.length = 1 := by
  have reached : Sample.taken.Reached :=
    ⟨"m", lowerItem_walks Sample.standard (.namespace_ ⟨0⟩ [] .unplaced) ScopeTable.global _
      (Context.sound_initial "m") rfl fun _ _ => trivial⟩
  have stops : (lowerFunction Sample.standard ScopeTable.global Sample.unresolved).finished?
      Sample.taken = none := by cbv
  obtain ⟨failure, cx', run⟩ := Lower.error_of_unfinished stops
  obtain ⟨unchanged, after, attempt⟩ := (reached.rolls_back Sample.standard ScopeTable.global
    Sample.unresolved).1 failure cx' run
  have left : (fun cx : Context => (cx.module.functions.length, cx.module.globals.length))
      ((attemptFunction Sample.standard ScopeTable.global Sample.unresolved).after
        Sample.taken) = (1, 1) := by cbv
  rw [Lower.after_error attempt, Prod.mk.injEq] at left
  exact ⟨reached, failure, cx', run, unchanged, after, attempt, left⟩

end SsaLowering
