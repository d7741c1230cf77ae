/-
# SsaLowering.Proofs.Lower.Growth -- what a body does to the context around it

`Context.Grows scope cx cx'` is what a step inside a function body may do to the
context when it binds names in `scope`, whether the step succeeds or not: the
functions stay, constant data and warnings are added at the end, every other
scope keeps its bindings, and new scopes have no name and end up without
bindings.
-/
import SsaLowering.Proofs.Lower.Steps
import SsaLowering.Proofs.Scope

namespace SsaLowering

set_option autoImplicit false

open Ir (Global)

/-- `cx'` is reached from `cx` by steps of a body that bind names in `scope` at most. -/
structure Context.Grows (scope : ScopeId) (cx cx' : Context) : Prop where
  module : ∃ more : List Global, cx'.module =
    { cx.module with globals := cx.module.globals ++ more }
  diagnostics : cx.diagnostics <+: cx'.diagnostics
  inside : cx.scopes.contains scope
  count : cx.scopes.frames.length ≤ cx'.scopes.frames.length
  frames : ∀ other, cx.scopes.contains other → other ≠ scope →
    cx'.scopes.frame? other = cx.scopes.frame? other
  enclosing : ∀ other, cx.scopes.contains other →
    cx'.scopes.enclosing other = cx.scopes.enclosing other
  names : ∀ other, cx'.scopes.name? other = cx.scopes.name? other
  fresh : ∀ other x, ¬ cx.scopes.contains other → cx'.scopes.lookupIn other x = none
  ordered : cx.scopes.Ordered → cx'.scopes.Ordered

namespace Context.Grows

variable {cx cx' cx'' : Context} {scope : ScopeId}

theorem functions (grows : cx.Grows scope cx') : cx'.module.functions = cx.module.functions := by
  obtain ⟨more, same⟩ := grows.module
  rw [same]

theorem contains (grows : cx.Grows scope cx') {other : ScopeId}
    (inside : cx.scopes.contains other) : cx'.scopes.contains other := by
  rw [ScopeTable.contains_iff] at inside ⊢
  exact Nat.lt_of_lt_of_le inside grows.count

theorem lookupIn (grows : cx.Grows scope cx') {other : ScopeId} (x : Symbol)
    (differs : other ≠ scope) : cx'.scopes.lookupIn other x = cx.scopes.lookupIn other x := by
  by_cases inside : cx.scopes.contains other
  · exact ScopeTable.lookupIn_congr (grows.frames other inside differs)
  · rw [grows.fresh other x inside, ScopeTable.lookupIn_of_not_contains inside]

/-- A change of the module, the warnings and the journal alone. -/
theorem of_scopes (inside : cx.scopes.contains scope) (scopes : cx'.scopes = cx.scopes)
    (module : ∃ more : List Global, cx'.module =
      { cx.module with globals := cx.module.globals ++ more })
    (diagnostics : cx.diagnostics <+: cx'.diagnostics) : cx.Grows scope cx' where
  module := module
  diagnostics := diagnostics
  inside := inside
  count := Nat.le_of_eq (by rw [scopes])
  frames := fun _ _ _ => by rw [scopes]
  enclosing := fun _ _ => by rw [scopes]
  names := fun _ => by rw [scopes]
  fresh := fun other x outside => by
    rw [scopes]
    exact ScopeTable.lookupIn_of_not_contains outside
  ordered := fun ordered => scopes ▸ ordered

theorem refl (inside : cx.scopes.contains scope) : cx.Grows scope cx :=
  of_scopes inside rfl ⟨[], by simp⟩ List.prefix_rfl

theorem log (inside : cx.scopes.contains scope) (event : Event) :
    cx.Grows scope (cx.log event) :=
  of_scopes inside rfl ⟨[], by simp [Context.log]⟩ List.prefix_rfl

theorem warn (inside : cx.scopes.contains scope) (diagnostic : Diagnostic) :
    cx.Grows scope (cx.warn diagnostic) :=
  of_scopes inside rfl ⟨[], by simp [Context.warn]⟩ (List.prefix_append _ _)

theorem trans (first : cx.Grows scope cx') (second : cx'.Grows scope cx'') :
    cx.Grows scope cx'' where
  module := by
    obtain ⟨more, same⟩ := first.module
    obtain ⟨more', same'⟩ := second.module
    exact ⟨more ++ more', by rw [same', same]; simp⟩
  diagnostics := first.diagnostics.trans second.diagnostics
  inside := first.inside
  count := Nat.le_trans first.count second.count
  frames := fun other inside differs =>
    (second.frames other (first.contains inside) differs).trans
      (first.frames other inside differs)
  enclosing := fun other inside =>
    (second.enclosing other (first.contains inside)).trans (first.enclosing other inside)
  names := fun other => (second.names other).trans (first.names other)
  fresh := fun other x outside => by
    have differs : other ≠ scope := fun same => outside (same ▸ first.inside)
    rw [second.lookupIn x differs, first.fresh other x outside]
  ordered := fun ordered => second.ordered (first.ordered ordered)

theorem bind (inside : cx.scopes.contains scope) (name : Symbol) (value : BoundValue) :
    cx.Grows scope { cx with scopes := cx.scopes.assign scope name (some value) } where
  module := ⟨[], by simp⟩
  diagnostics := List.prefix_rfl
  inside := inside
  count := by simp [ScopeTable.assign]
  frames := fun other _ differs => by
    rw [ScopeTable.frame?_assign]
    cases cx.scopes.frame? other with
    | none => rfl
    | some frame => rw [Option.map_some, if_neg (Ne.symm differs)]
  enclosing := fun other _ => ScopeTable.enclosing_assign _
  names := fun other => ScopeTable.name?_assign _
  fresh := fun other x outside => by
    have differs : ¬ scope = other := fun same => outside (same ▸ inside)
    rw [ScopeTable.lookupIn_assign, if_neg fun both => differs both.1]
    exact ScopeTable.lookupIn_of_not_contains outside
  ordered := fun ordered => ordered.congr fun _ => ScopeTable.enclosing_assign _

/-- What happens in a scope of its own leaves the scopes around as they were. -/
theorem leave {inner : ScopeId} (entered : inner = (cx.enter scope none).1)
    (inside : cx.scopes.contains scope) (grows : (cx.enter scope none).2.Grows inner cx') :
    cx.Grows scope { cx' with scopes := cx'.scopes.discard inner } ∧
      ∀ other x, (cx'.scopes.discard inner).lookupIn other x = cx.scopes.lookupIn other x := by
  -- the scope that was entered is the last one, so that it is none of those before
  have index : inner.index = cx.scopes.frames.length := entered ▸ rfl
  have older {other : ScopeId} (old : cx.scopes.contains other) : other.index ≠ inner.index := by
    rw [ScopeTable.contains_iff] at old
    omega
  have within {other : ScopeId} (old : cx.scopes.contains other) :
      (cx.enter scope none).2.scopes.contains other := by
    rw [ScopeTable.contains_iff] at old ⊢
    simp only [Context.enter, ScopeTable.enter, List.length_append, List.length_singleton]
    omega
  have frame {other : ScopeId} (old : cx.scopes.contains other) :
      (cx.enter scope none).2.scopes.frame? other = cx.scopes.frame? other := by
    show (cx.scopes.enter scope none).2.frame? other = _
    rw [ScopeTable.frame?_enter, if_neg (index ▸ older old)]
  -- what is looked up in the scope that was left is gone, and `grows` keeps all else
  have lookups (other : ScopeId) (x : Symbol) :
      (cx'.scopes.discard inner).lookupIn other x = cx.scopes.lookupIn other x := by
    rw [ScopeTable.lookupIn_discard]
    split
    · rename_i here
      rw [ScopeTable.lookupIn_of_not_contains]
      rw [ScopeTable.contains_iff, ← here, index]
      exact Nat.lt_irrefl _
    · rename_i differs
      rw [grows.lookupIn x (Ne.symm differs)]
      exact ScopeTable.lookupIn_enter none
  refine ⟨?_, lookups⟩
  exact {
    module := grows.module
    diagnostics := grows.diagnostics
    inside := inside
    count := by
      have longer := grows.count
      simp only [Context.enter, ScopeTable.enter, List.length_append, List.length_singleton]
        at longer
      simp only [ScopeTable.discard, List.length_modify]
      omega
    frames := fun other old _ => by
      rw [ScopeTable.frame?_discard, grows.frames other (within old) fun same =>
        older old (congrArg ScopeId.index same), frame old]
      cases cx.scopes.frame? other with
      | none => rfl
      | some frame =>
        rw [Option.map_some, if_neg fun same => older old (congrArg ScopeId.index same.symm)]
    enclosing := fun other old => by
      rw [ScopeTable.enclosing_discard, grows.enclosing other (within old),
        ScopeTable.enclosing, ScopeTable.enclosing, frame old]
    names := fun other => by
      rw [ScopeTable.name?_discard, grows.names other]
      show (cx.scopes.enter scope none).2.name? other = _
      rw [ScopeTable.name?, ScopeTable.frame?_enter]
      split
      · rename_i new
        rw [ScopeTable.name?_of_not_contains]
        · rfl
        · rw [ScopeTable.contains_iff, new]
          exact Nat.lt_irrefl _
      · rfl
    fresh := fun other x outside => by
      show (cx'.scopes.discard inner).lookupIn other x = none
      rw [lookups, ScopeTable.lookupIn_of_not_contains outside]
    ordered := fun ordered => by
      refine (grows.ordered ?_).congr fun _ => ScopeTable.enclosing_discard
      exact ordered.enter inside none }

end Context.Grows

end SsaLowering
