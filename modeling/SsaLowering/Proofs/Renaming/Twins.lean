/-
# SsaLowering.Proofs.Renaming.Twins -- two runs that differ in the names of locals

A body and its copy under other names of parameters and variables are lowered from one
context.  The two runs bind the same values to corresponding names in the scopes that they
enter, and leave the scopes that there were before alone (`ScopeTable.Twins`).  Their builders
differ in the names of values (`BodyState.Twins`), and where one run is refused the other is
too, in words of its own (`Concurs`).  This module has the rules for such pairs of runs and
one lemma for every primitive step.
-/
import SsaLowering.Proofs.Ir.Unnamed
import SsaLowering.Proofs.Renaming.Mirror

namespace SsaLowering

set_option autoImplicit false

open Ir (Builder BuildError Module)

/-! ## Results and computations -/

section

variable {ε State α β : Type} (Alike : State → State → Prop)

/-- One result and states that are alike, or a failure on both sides. -/
inductive Concurs : EStateM.Result ε State α → EStateM.Result ε State α → Prop
  | ok {a : α} {s t : State} (alike : Alike s t) : Concurs (.ok a s) (.ok a t)
  | error {e e' : ε} {s t : State} : Concurs (.error e s) (.error e' t)

/-- Two computations that concur from any states that are alike. -/
def Concur (x y : EStateM ε State α) : Prop := ∀ s t, Alike s t → Concurs Alike (x s) (y t)

variable {Alike}

/-- Where one run has a result, the other has the same. -/
theorem Concurs.of_ok {r r' : EStateM.Result ε State α} {a : α} {s : State}
    (ends : Concurs Alike r r') (run : r = .ok a s) : ∃ t, r' = .ok a t ∧ Alike s t := by
  subst run
  cases ends with
  | ok alike => exact ⟨_, rfl, alike⟩

/-- After one result the two go on alike. -/
theorem Concurs.bind {x y : EStateM ε State α} {f g : α → EStateM ε State β} {s t : State}
    (first : Concurs Alike (x s) (y t)) (next : ∀ a, Concur Alike (f a) (g a)) :
    Concurs Alike ((x >>= f) s) ((y >>= g) t) := by
  rw [bind_run, bind_run]
  generalize x s = r, y t = r' at first
  cases first with
  | ok alike => exact next _ _ _ alike
  | error => exact .error

namespace Concur

theorem pure (a : α) : Concur (ε := ε) Alike (pure a) (pure a) := fun _ _ => .ok

theorem throw (e e' : ε) :
    Concur Alike (throw e : EStateM ε State α) (throw e' : EStateM ε State α) :=
  fun _ _ _ => .error

theorem bind {x y : EStateM ε State α} {f g : α → EStateM ε State β}
    (first : Concur Alike x y) (next : ∀ a, Concur Alike (f a) (g a)) :
    Concur Alike (x >>= f) (y >>= g) :=
  fun s t alike => (first s t alike).bind next

theorem map {x y : EStateM ε State α} (f : α → β) (run : Concur Alike x y) :
    Concur Alike (f <$> x) (f <$> y) := by
  intro s t alike
  rw [map_run, map_run]
  exact run.bind (fun a => .pure (f a)) s t alike

theorem discard {x y : EStateM ε State α} (run : Concur Alike x y) :
    Concur Alike (discard x) (discard y) :=
  run.map fun _ => ()

theorem forM {f g : β → EStateM ε State Unit} {view : β → β} : ∀ {as : List β},
    (∀ a ∈ as, Concur Alike (f a) (g (view a))) →
      Concur Alike (as.forM f) ((as.map view).forM g)
  | [], _ => .pure ()
  | _ :: _, step => by
    rw [List.forall_mem_cons] at step
    exact step.1.bind fun _ => forM step.2

end Concur

end

/-! ## Scopes -/

/-- The scopes that there were before a body, and those around it. -/
structure Outside where
  count : Nat
  around : List ScopeId

/-- A scope that was entered for the body. -/
def Outside.New (o : Outside) (scope : ScopeId) : Prop := o.count ≤ scope.index

/-- A scope in which a name of the body may be looked up. -/
def Outside.Visible (o : Outside) (scope : ScopeId) : Prop := o.New scope ∨ scope ∈ o.around

/-- Scopes of one shape that bind the same values to corresponding names where the body looks
them up, and do not differ outside of the body. -/
structure ScopeTable.Twins (ρ : Renaming) (o : Outside) (t t' : ScopeTable) : Prop where
  length : t'.frames.length = t.frames.length
  longer : o.count ≤ t.frames.length
  enclosing : ∀ e, t'.enclosing e = t.enclosing e
  old : ∀ e, ¬ o.New e → t'.frame? e = t.frame? e
  lookups : ∀ e, o.Visible e → ∀ x ∈ ρ.used, t'.lookupIn e (ρ.map x) = t.lookupIn e x
  closed : ∀ e, o.New e → ∀ d ∈ t.enclosing e, o.Visible d
  namespaces : ∀ e x inner, t.lookupIn e x = some (.namespace_ inner) → ¬ o.New inner

namespace ScopeTable.Twins

variable {ρ : Renaming} {o : Outside} {t t' : ScopeTable}

/-- Before the body the two runs have one table. -/
theorem refl {t : ScopeTable} {around : List ScopeId}
    (lookups : ∀ e ∈ around, ∀ x ∈ ρ.used, t.lookupIn e (ρ.map x) = t.lookupIn e x)
    (namespaces : ∀ e x inner, t.lookupIn e x = some (.namespace_ inner) → t.contains inner) :
    t.Twins ρ ⟨t.frames.length, around⟩ t where
  length := rfl
  longer := Nat.le_refl _
  enclosing := fun _ => rfl
  old := fun _ _ => rfl
  lookups := by
    intro e visible x used
    rcases visible with new | outer
    · have absent : ¬ t.contains e := by
        rw [contains_iff]
        exact Nat.not_lt.2 new
      rw [lookupIn_of_not_contains absent, lookupIn_of_not_contains absent]
    · exact lookups e outer x used
  closed := by
    intro e new d member
    have absent : t.frame? e = none := List.getElem?_eq_none new
    rw [ScopeTable.enclosing, absent] at member
    cases member
  namespaces := by
    intro e x inner here
    exact Nat.not_le.2 (contains_iff.1 (namespaces e x inner here))

variable (twins : t.Twins ρ o t')

include twins

theorem contains (scope : ScopeId) : t'.contains scope = t.contains scope := by
  rw [ScopeTable.contains, ScopeTable.contains, twins.length]

theorem chain (scope : ScopeId) : t'.chain scope = t.chain scope := by
  rw [ScopeTable.chain, ScopeTable.chain, twins.enclosing]

theorem visible {scope : ScopeId} (new : o.New scope) : ∀ e ∈ t.chain scope, o.Visible e := by
  intro e member
  rcases List.mem_cons.1 member with rfl | outer
  · exact Or.inl new
  · exact twins.closed scope new e outer

/-- A name of the body means in one run what the other name means in the other. -/
theorem resolve {scope : ScopeId} (new : o.New scope) {x : Symbol} (used : x ∈ ρ.used) :
    t'.resolve scope (ρ.map x) = t.resolve scope x := by
  rw [ScopeTable.resolve, ScopeTable.resolve, twins.chain]
  have same : ∀ e ∈ t.chain scope, t'.lookupIn e (ρ.map x) = t.lookupIn e x :=
    fun e member => twins.lookups e (twins.visible new e member) x used
  generalize t.chain scope = scopes at same
  induction scopes with
  | nil => rfl
  | cons e rest ih =>
    rw [List.forall_mem_cons] at same
    rw [List.findSome?_cons, List.findSome?_cons, same.1, ih same.2]

/-- A member of a namespace is the same in both runs. -/
theorem member {scope inner : ScopeId} {x : Symbol}
    (found : t.resolve scope x = some (.namespace_ inner)) (property : Symbol) :
    t'.lookupIn inner property = t.lookupIn inner property := by
  obtain ⟨e, -, here⟩ := lookupIn_of_resolve found
  exact lookupIn_congr (twins.old inner (twins.namespaces e x inner here))

theorem enter {parent : ScopeId} (seen : ∀ e ∈ t.chain parent, o.Visible e) :
    (t.enter parent none).2.Twins ρ o (t'.enter parent none).2 where
  length := by
    simp only [ScopeTable.enter, List.length_append, twins.length, List.length_singleton]
  longer := by
    have := twins.longer
    simp only [ScopeTable.enter, List.length_append, List.length_singleton]
    omega
  enclosing := by
    intro e
    rw [enclosing_enter, enclosing_enter, twins.length, twins.chain, twins.enclosing]
  old := by
    intro e old
    rw [frame?_enter, frame?_enter, twins.length, twins.chain, twins.old e old]
  lookups := by
    intro e visible x used
    rw [lookupIn_enter, lookupIn_enter, twins.lookups e visible x used]
  closed := by
    intro e new d member
    rw [enclosing_enter] at member
    split at member
    · exact seen d member
    · exact twins.closed e new d member
  namespaces := by
    intro e x inner here
    rw [lookupIn_enter] at here
    exact twins.namespaces e x inner here

theorem assign {scope : ScopeId} (new : o.New scope) {name : Symbol} (used : name ∈ ρ.used)
    {value : BoundValue} (plain : ∀ inner, value ≠ .namespace_ inner) :
    (t.assign scope name (some value)).Twins ρ o
      (t'.assign scope (ρ.map name) (some value)) where
  length := by
    rw [ScopeTable.assign, ScopeTable.assign, List.length_modify, List.length_modify,
      twins.length]
  longer := by
    rw [ScopeTable.assign, List.length_modify]
    exact twins.longer
  enclosing := by
    intro e
    rw [enclosing_assign, enclosing_assign, twins.enclosing]
  old := by
    intro e old
    have apart : scope ≠ e := by
      rintro rfl
      exact old new
    simp only [frame?_assign, if_neg apart, twins.old e old]
  lookups := by
    intro e visible x hx
    simp only [lookupIn_assign, twins.lookups e visible x hx, twins.contains,
      ρ.apart.eq_iff hx used]
  closed := by
    intro e here d member
    rw [enclosing_assign] at member
    exact twins.closed e here d member
  namespaces := by
    intro e x inner here
    rw [lookupIn_assign] at here
    split at here
    · exact absurd (Option.some_inj.1 here) (plain inner)
    · exact twins.namespaces e x inner here

theorem discard {scope : ScopeId} (new : o.New scope) :
    (t.discard scope).Twins ρ o (t'.discard scope) where
  length := by
    rw [ScopeTable.discard, ScopeTable.discard, List.length_modify, List.length_modify,
      twins.length]
  longer := by
    rw [ScopeTable.discard, List.length_modify]
    exact twins.longer
  enclosing := by
    intro e
    rw [enclosing_discard, enclosing_discard, twins.enclosing]
  old := by
    intro e old
    have apart : scope ≠ e := by
      rintro rfl
      exact old new
    simp only [frame?_discard, if_neg apart, twins.old e old]
  lookups := by
    intro e visible x used
    rw [lookupIn_discard, lookupIn_discard, twins.lookups e visible x used]
  closed := by
    intro e here d member
    rw [enclosing_discard] at member
    exact twins.closed e here d member
  namespaces := by
    intro e x inner here
    rw [lookupIn_discard] at here
    split at here
    · cases here
    · exact twins.namespaces e x inner here

end ScopeTable.Twins

/-! ## Steps at the level of declarations -/

/-- Contexts of two runs whose scopes are twins. -/
structure Context.Twins (ρ : Renaming) (o : Outside) (cx cx' : Context) : Prop where
  module : cx'.module = cx.module
  scopes : cx.scopes.Twins ρ o cx'.scopes
  diagnostics : cx'.diagnostics = cx.diagnostics
  journal : cx'.journal = cx.journal

variable {ρ : Renaming} {o : Outside} {α β : Type}

namespace Lower

/-- A step of lowering in two runs. -/
abbrev Concur (ρ : Renaming) (o : Outside) (x y : Lower α) : Prop :=
  SsaLowering.Concur (Context.Twins ρ o) x y

theorem log_concur (event : Event) : Concur ρ o (log event) (log event) :=
  fun _ _ twins => .ok ⟨twins.module, twins.scopes, twins.diagnostics,
    congrArg (· ++ [event]) twins.journal⟩

theorem warn_concur (diagnostic : Diagnostic) :
    Concur ρ o (modify (·.warn diagnostic)) (modify (·.warn diagnostic)) :=
  fun _ _ twins => .ok ⟨twins.module, twins.scopes,
    congrArg (· ++ [diagnostic]) twins.diagnostics,
    congrArg (· ++ [Event.warned diagnostic]) twins.journal⟩

theorem onModule_concur (operation : Module → Except BuildError (α × Module)) :
    Concur ρ o (onModule operation) (onModule operation) := by
  intro cx cx' twins
  rw [onModule_run, onModule_run, twins.module]
  cases operation cx.module with
  | ok result => exact .ok ⟨rfl, twins.scopes, twins.diagnostics, twins.journal⟩
  | error cause => exact .error

/-- Corresponding names are bound; what they meant before does not matter. -/
theorem bind_concur {scope : ScopeId} (new : o.New scope) {name : Symbol} (used : name ∈ ρ.used)
    {value : BoundValue} (plain : ∀ inner, value ≠ .namespace_ inner) :
    Concur ρ o (Lower.bind scope name value) (Lower.bind scope (ρ.map name) value) := by
  intro cx cx' twins
  rw [bind_scope_run, bind_scope_run, twins.scopes.contains,
    twins.scopes.lookups scope (Or.inl new) name used]
  split
  · exact .ok ⟨twins.module, twins.scopes.assign new used plain, twins.diagnostics,
      twins.journal⟩
  · exact .error

end Lower

/-! ## Steps inside a function -/

/-- States of two runs: twin contexts, and builders up to the names of values. -/
structure BodyState.Twins (ρ : Renaming) (o : Outside) (s t : BodyState) : Prop where
  context : s.context.Twins ρ o t.context
  builder : t.builder.unnamed = s.builder.unnamed

namespace LowerBody

/-- A step of lowering in two runs. -/
abbrev Concur (ρ : Renaming) (o : Outside) (x y : LowerBody α) : Prop :=
  SsaLowering.Concur (BodyState.Twins ρ o) x y

theorem refuse_concur (cause cause' : LowerError) :
    Concur (α := α) ρ o (refuse cause) (refuse cause') :=
  .throw _ _

/-- A check that refuses on both sides, before the rest of the work. -/
theorem check_concur (failed : Prop) [Decidable failed] (cause cause' : LowerError)
    {x y : PUnit → LowerBody α} (rest : Concur ρ o (x ⟨⟩) (y ⟨⟩)) :
    Concur ρ o (if failed then refuse cause >>= x else x ⟨⟩)
      (if failed then refuse cause' >>= y else y ⟨⟩) := by
  split
  · exact .throw _ _
  · exact rest

theorem outside_concur {x y : Lower α} (run : Lower.Concur ρ o x y) :
    Concur ρ o (outside x) (outside y) := by
  intro s t twins
  rw [outside_run, outside_run]
  have ends := run _ _ twins.context
  generalize x s.context = r, y t.context = r' at ends
  cases ends with
  | ok context => exact .ok ⟨context, twins.builder⟩
  | error => exact .error

theorem context_bind_concur {f g : Context → LowerBody β}
    (next : ∀ cx cx', cx.Twins ρ o cx' → Concur ρ o (f cx) (g cx')) :
    Concur ρ o (context >>= f) (context >>= g) :=
  fun s t twins => next s.context t.context twins.context s t twins

theorem builder_bind_concur {f g : Builder → LowerBody β}
    (next : ∀ b c : Builder, c.unnamed = b.unnamed → Concur ρ o (f b) (g c)) :
    Concur ρ o (builder >>= f) (builder >>= g) :=
  fun s t twins => next s.builder t.builder twins.builder s t twins

theorem emit_concur {operation other : Builder → Except BuildError (α × Builder)}
    (blind : Builder.Blind operation other) : Concur ρ o (emit operation) (emit other) := by
  intro s t twins
  rw [emit_run, emit_run]
  have same := blind s.builder t.builder twins.builder
  cases first : operation s.builder with
  | error cause =>
    cases second : other t.builder with
    | error cause' => exact .error
    | ok result => simp [first, second, Except.map] at same
  | ok result =>
    cases second : other t.builder with
    | error cause' => simp [first, second, Except.map] at same
    | ok result' =>
      simp only [first, second, Except.map, Except.ok.injEq, Prod.map, Prod.mk.injEq, id_eq]
        at same
      obtain ⟨value, after⟩ := same
      simp only [value]
      exact .ok ⟨twins.context, after⟩

theorem emitUnit_concur {operation : Builder → Except BuildError Builder}
    (commutes : ∀ b, (operation b).map Builder.unnamed = operation b.unnamed) :
    Concur ρ o (emit_ operation) (emit_ operation) :=
  emit_concur (.of_unit commutes)

theorem operandTy_concur (operand : Ir.Operand) :
    Concur ρ o (operandTy operand) (operandTy operand) := by
  rw [operandTy, ask]
  refine emit_concur (.of_commutes fun b => ?_)
  show _ = (b.function.unnamed.operandTy operand >>= _)
  rw [Ir.Function.operandTy_unnamed]
  cases b.function.operandTy operand <;> rfl

/-- A value may be named in any way; whether it had a name is not asked. -/
theorem nameValue_concur (value : Ir.ValueId) (name other : String) :
    Concur ρ o (discard <| emit (·.nameValue value name))
      (discard <| emit (·.nameValue value other)) := by
  intro s t twins
  have same := Builder.nameValue_blind twins.builder value name other
  show Concurs _ (EStateM.map _ _ _) (EStateM.map _ _ _)
  unfold EStateM.map
  rw [emit_run, emit_run]
  cases first : s.builder.nameValue value name with
  | error cause =>
    cases second : t.builder.nameValue value other with
    | error cause' => exact .error
    | ok result => simp [first, second, Except.map] at same
  | ok result =>
    cases second : t.builder.nameValue value other with
    | error cause' => simp [first, second, Except.map] at same
    | ok result' =>
      simp only [first, second, Except.map, Except.ok.injEq] at same
      exact .ok ⟨twins.context, same⟩

/-- Corresponding names are looked up, and the work goes on with one finding. -/
theorem resolve_bind_concur {scope : ScopeId} (new : o.New scope) {name : Symbol}
    (used : name ∈ ρ.used) {f g : Option BoundValue → LowerBody β}
    (next : ∀ s t : BodyState, s.Twins ρ o t → ∀ found,
      s.context.scopes.resolve scope name = found →
        Concurs (BodyState.Twins ρ o) (f found s) (g found t)) :
    Concur ρ o (resolve scope name >>= f) (resolve scope (ρ.map name) >>= g) := by
  intro s t twins
  rw [bind_run, bind_run, resolve_run, resolve_run, twins.context.scopes.contains,
    twins.context.scopes.resolve new used]
  by_cases inside : s.context.scopes.contains scope
  · simp only [inside, if_true]
    exact next s t twins _ rfl
  · simp only [inside]
    exact .error

/-- A member of a namespace that a name of the body means. -/
theorem member_concur {s t : BodyState} (twins : s.Twins ρ o t) {scope inner : ScopeId}
    {name : Symbol} (found : s.context.scopes.resolve scope name = some (.namespace_ inner))
    (property : Symbol) :
    Concurs (BodyState.Twins ρ o) (lookupIn inner property s) (lookupIn inner property t) := by
  rw [lookupIn_run, lookupIn_run, twins.context.scopes.contains,
    twins.context.scopes.member found]
  split
  · exact .ok twins
  · exact .error

/-- A scope is entered in both runs from one that sees no more than the body may. -/
theorem inScope_concurs {s t : BodyState} (twins : s.Twins ρ o t) {parent : ScopeId}
    (seen : ∀ e ∈ s.context.scopes.chain parent, o.Visible e)
    {work work' : ScopeId → LowerBody α}
    (inner : ∀ scope, o.New scope → Concur ρ o (work scope) (work' scope)) :
    Concurs (BodyState.Twins ρ o) (inScope parent work s) (inScope parent work' t) := by
  have scopes := twins.context.scopes
  have first : (t.context.enter parent none).1 = (s.context.enter parent none).1 :=
    congrArg ScopeId.mk scopes.length
  have new : o.New (s.context.enter parent none).1 := scopes.longer
  have entered : BodyState.Twins ρ o { s with context := (s.context.enter parent none).2 }
      { t with context := (t.context.enter parent none).2 } := by
    refine ⟨⟨twins.context.module, scopes.enter seen, twins.context.diagnostics, ?_⟩,
      twins.builder⟩
    simp only [Context.enter, ScopeTable.enter, scopes.length, twins.context.journal]
  rw [inScope_run, inScope_run, scopes.contains, first]
  split
  · have ends := inner _ new _ _ entered
    generalize work _ _ = r, work' _ _ = r' at ends
    cases ends with
    | ok after =>
      exact .ok ⟨⟨after.context.module, after.context.scopes.discard new,
        after.context.diagnostics, after.context.journal⟩, after.builder⟩
    | error => exact .error
  · exact .error

theorem inScope_concur {parent : ScopeId} (new : o.New parent)
    {work work' : ScopeId → LowerBody α}
    (inner : ∀ scope, o.New scope → Concur ρ o (work scope) (work' scope)) :
    Concur ρ o (inScope parent work) (inScope parent work') :=
  fun _ _ twins => inScope_concurs twins (twins.context.scopes.visible new) inner

end LowerBody

end SsaLowering
