/-
# SsaLowering.Proofs.Scope -- lookups after a change of the scopes

What each operation of a `ScopeTable` does to the frames, and what that means for
a lookup.  In an `Ordered` table every scope lies inside earlier ones only, so a
new scope or a change in an inner one is not seen from outside.
-/
import SsaLowering.Proofs.Outcome
import SsaLowering.Scope

namespace SsaLowering.ScopeTable

set_option autoImplicit false

variable {t t' : ScopeTable} {scope other parent : ScopeId} {name x : Symbol}

/-! ## Frames -/

theorem contains_iff : t.contains scope ↔ scope.index < t.frames.length := by
  rw [contains, decide_eq_true_iff]

theorem isSome_frame? : (t.frame? scope).isSome ↔ t.contains scope := by
  rw [contains_iff, frame?]
  rw [isSome_getElem?]

theorem frame?_assign (value : Option BoundValue) :
    (t.assign scope name value).frame? other =
      (t.frame? other).map fun frame =>
        if scope = other then frame.assign name value else frame := by
  cases scope; cases other
  simp [frame?, assign, List.getElem?_modify]

theorem frame?_discard :
    (t.discard scope).frame? other =
      (t.frame? other).map fun frame =>
        if scope = other then .fresh frame.name frame.enclosing else frame := by
  cases scope; cases other
  simp [frame?, discard, List.getElem?_modify]

theorem frame?_enter (given : Option Symbol) :
    (t.enter parent given).2.frame? other =
      if other.index = t.frames.length then some (.fresh given (t.chain parent))
      else t.frame? other := by
  rcases Nat.lt_trichotomy other.index t.frames.length with before | here | after
  · simp [frame?, enter, List.getElem?_append_left before, Nat.ne_of_lt before]
  · simp [frame?, enter, here]
  · rw [if_neg (by omega)]
    simp only [frame?, enter]
    rw [List.getElem?_eq_none (by simp; omega), List.getElem?_eq_none (by omega)]

theorem enter_index (t : ScopeTable) (parent : ScopeId) (given : Option Symbol) :
    (t.enter parent given).1.index = t.frames.length :=
  rfl

/-- A frame is its name, the scopes around it and its bindings. -/
theorem frame?_congr (inside : t.contains scope) (inside' : t'.contains scope)
    (name : t'.name? scope = t.name? scope) (enclosing : t'.enclosing scope = t.enclosing scope)
    (lookups : ∀ x, t'.lookupIn scope x = t.lookupIn scope x) :
    t'.frame? scope = t.frame? scope := by
  obtain ⟨frame, known⟩ := Option.isSome_iff_exists.1 (isSome_frame?.2 inside)
  obtain ⟨frame', known'⟩ := Option.isSome_iff_exists.1 (isSome_frame?.2 inside')
  simp only [name?, ScopeTable.enclosing, lookupIn, known, known', Option.bind_some,
    Option.map_some, Option.getD_some] at name enclosing lookups
  rw [known, known', Option.some.injEq]
  cases frame
  cases frame'
  rw [Frame.mk.injEq]
  exact ⟨name, enclosing, funext lookups⟩

/-! ## What a lookup sees -/

theorem lookupIn_congr (same : t'.frame? scope = t.frame? scope) :
    t'.lookupIn scope x = t.lookupIn scope x := by
  rw [lookupIn, lookupIn, same]

theorem lookupIn_assign (value : Option BoundValue) :
    (t.assign scope name value).lookupIn other x =
      if scope = other ∧ t.contains scope ∧ x = name then value else t.lookupIn other x := by
  rw [lookupIn, lookupIn, frame?_assign]
  by_cases here : scope = other
  · subst here
    by_cases inside : t.contains scope
    · obtain ⟨frame, found⟩ := Option.isSome_iff_exists.1 (isSome_frame?.2 inside)
      simp [found, inside, Frame.assign]
    · have absent : t.frame? scope = none := by
        simpa [Option.isSome_iff_ne_none] using mt isSome_frame?.1 inside
      simp [absent, inside]
  · simp [here]

theorem lookupIn_discard :
    (t.discard scope).lookupIn other x = if scope = other then none else t.lookupIn other x := by
  rw [lookupIn, lookupIn, frame?_discard]
  by_cases here : scope = other
  · subst here
    cases t.frame? scope <;> simp [Frame.fresh]
  · simp [here]

theorem lookupIn_enter (given : Option Symbol) :
    (t.enter parent given).2.lookupIn other x = t.lookupIn other x := by
  rw [lookupIn, lookupIn, frame?_enter]
  split
  · rename_i here
    rw [frame?, here, List.getElem?_eq_none (Nat.le_refl _)]
    rfl
  · rfl

theorem lookupIn_of_not_contains (outside : ¬ t.contains scope) : t.lookupIn scope x = none := by
  rw [← isSome_frame?, Bool.not_eq_true, Option.isSome_eq_false_iff, Option.isNone_iff_eq_none]
    at outside
  rw [lookupIn, outside]
  rfl

theorem enclosing_assign (value : Option BoundValue) :
    (t.assign scope name value).enclosing other = t.enclosing other := by
  rw [enclosing, enclosing, frame?_assign]
  cases t.frame? other with
  | none => rfl
  | some frame =>
    simp only [Option.map_some]
    split <;> rfl

theorem enclosing_discard : (t.discard scope).enclosing other = t.enclosing other := by
  rw [enclosing, enclosing, frame?_discard]
  cases t.frame? other with
  | none => rfl
  | some frame =>
    simp only [Option.map_some]
    split <;> rfl

theorem enclosing_enter (given : Option Symbol) :
    (t.enter parent given).2.enclosing other =
      if other.index = t.frames.length then t.chain parent else t.enclosing other := by
  rw [enclosing, frame?_enter]
  split <;> rfl

theorem name?_enter (given : Option Symbol) :
    (t.enter parent given).2.name? other =
      if other.index = t.frames.length then given else t.name? other := by
  rw [name?, frame?_enter]
  split <;> rfl

theorem name?_assign (value : Option BoundValue) :
    (t.assign scope name value).name? other = t.name? other := by
  rw [name?, name?, frame?_assign]
  cases t.frame? other with
  | none => rfl
  | some frame =>
    simp only [Option.map_some, Option.bind_some]
    split <;> rfl

theorem name?_discard : (t.discard scope).name? other = t.name? other := by
  rw [name?, name?, frame?_discard]
  cases t.frame? other with
  | none => rfl
  | some frame =>
    simp only [Option.map_some, Option.bind_some]
    split <;> rfl

theorem name?_of_not_contains (outside : ¬ t.contains scope) : t.name? scope = none := by
  rw [← isSome_frame?, Bool.not_eq_true, Option.isSome_eq_false_iff, Option.isNone_iff_eq_none]
    at outside
  rw [name?, outside]
  rfl

theorem contains_of_name? {given : Symbol} (named : t.name? scope = some given) :
    t.contains scope := by
  by_contra outside
  rw [name?_of_not_contains outside] at named
  cases named

/-! ## Scopes that stay -/

/-- Every scope of `t` is one of `t'`, with the same name and inside of the same scopes. -/
structure Extends (t t' : ScopeTable) : Prop where
  contains : ∀ scope, t.contains scope → t'.contains scope
  names : ∀ scope, t.contains scope → t'.name? scope = t.name? scope
  enclosing : ∀ scope, t.contains scope → t'.enclosing scope = t.enclosing scope

theorem Extends.refl (t : ScopeTable) : t.Extends t :=
  ⟨fun _ known => known, fun _ _ => rfl, fun _ _ => rfl⟩

theorem Extends.trans {t'' : ScopeTable} (first : t.Extends t') (second : t'.Extends t'') :
    t.Extends t'' where
  contains := fun scope known => second.contains scope (first.contains scope known)
  names := fun scope known =>
    (second.names scope (first.contains scope known)).trans (first.names scope known)
  enclosing := fun scope known =>
    (second.enclosing scope (first.contains scope known)).trans (first.enclosing scope known)

theorem Extends.of_frames
    (same : ∀ scope, t.contains scope → t'.frame? scope = t.frame? scope) : t.Extends t' where
  contains := by
    intro scope known
    rw [← isSome_frame?, same scope known]
    exact isSome_frame?.2 known
  names := fun scope known => by rw [name?, name?, same scope known]
  enclosing := fun scope known => by
    rw [ScopeTable.enclosing, ScopeTable.enclosing, same scope known]

theorem extends_assign (t : ScopeTable) (scope : ScopeId) (name : Symbol)
    (value : Option BoundValue) : t.Extends (t.assign scope name value) where
  contains := by
    intro other known
    rw [contains_iff] at known ⊢
    rwa [assign, List.length_modify]
  names := fun _ _ => name?_assign value
  enclosing := fun _ _ => enclosing_assign value

theorem extends_enter (t : ScopeTable) (parent : ScopeId) (given : Option Symbol) :
    t.Extends (t.enter parent given).2 :=
  .of_frames fun scope known => by
    rw [frame?_enter, if_neg (Nat.ne_of_lt (contains_iff.1 known))]

theorem extends_discard (t : ScopeTable) (scope : ScopeId) : t.Extends (t.discard scope) where
  contains := by
    intro other known
    rw [contains_iff] at known ⊢
    rwa [discard, List.length_modify]
  names := fun _ _ => name?_discard
  enclosing := fun _ _ => enclosing_discard

theorem contains_enter_new (t : ScopeTable) (parent : ScopeId) (given : Option Symbol) :
    (t.enter parent given).2.contains (t.enter parent given).1 := by
  rw [contains_iff, enter_index]
  simp [enter]

theorem name?_enter_new (t : ScopeTable) (parent : ScopeId) (given : Option Symbol) :
    (t.enter parent given).2.name? (t.enter parent given).1 = given := by
  rw [name?_enter, if_pos (enter_index t parent given)]

/-! ## Resolution -/

/-- Every scope lies inside earlier ones. -/
def Ordered (t : ScopeTable) : Prop :=
  ∀ scope, ∀ e ∈ t.enclosing scope, e.index < scope.index

theorem ordered_initial : initial.Ordered := by
  intro scope e member
  have none_ : initial.enclosing scope = [] := by
    cases scope with | mk i =>
    cases i <;> rfl
  rw [none_] at member
  cases member

theorem Ordered.congr (ordered : t.Ordered)
    (same : ∀ scope, t'.enclosing scope = t.enclosing scope) :
    t'.Ordered := by
  intro scope e member
  rw [same] at member
  exact ordered scope e member

theorem Ordered.contains_chain (ordered : t.Ordered) (inside : t.contains scope) :
    ∀ e ∈ t.chain scope, t.contains e := by
  intro e member
  rw [contains_iff] at inside ⊢
  rcases List.mem_cons.1 member with rfl | outer
  · exact inside
  · exact Nat.lt_trans (ordered scope e outer) inside

theorem chain_enter_of_contains (inside : t.contains scope) (given : Option Symbol) :
    (t.enter parent given).2.chain scope = t.chain scope := by
  rw [chain, chain, enclosing_enter, if_neg (Nat.ne_of_lt (contains_iff.1 inside))]

theorem enclosing_enter_new (given : Option Symbol) :
    (t.enter parent given).2.enclosing (t.enter parent given).1 = t.chain parent := by
  rw [enclosing_enter, if_pos (enter_index t parent given)]

theorem Ordered.enter (ordered : t.Ordered) (inside : t.contains parent) (given : Option Symbol) :
    (t.enter parent given).2.Ordered := by
  intro scope e member
  rw [enclosing_enter] at member
  split at member
  · rename_i new
    rw [new]
    exact contains_iff.1 (ordered.contains_chain inside e member)
  · exact ordered scope e member

theorem Extends.chain (extends_ : t.Extends t') (inside : t.contains scope) :
    t'.chain scope = t.chain scope := by
  rw [ScopeTable.chain, ScopeTable.chain, extends_.enclosing scope inside]

/-- The namespaces around a scope stay the same. -/
theorem Extends.namespacePath (extends_ : t.Extends t') (ordered : t.Ordered)
    (inside : t.contains scope) : t'.namespacePath scope = t.namespacePath scope := by
  rw [ScopeTable.namespacePath, ScopeTable.namespacePath, extends_.chain inside]
  refine congrArg List.reverse (List.filterMap_congr fun e member => ?_)
  exact extends_.names e (ordered.contains_chain inside e member)

/-- A new namespace is the innermost one around its own scope. -/
theorem namespacePath_enter (ordered : t.Ordered) (inside : t.contains parent) (given : Symbol) :
    (t.enter parent (some given)).2.namespacePath (t.enter parent (some given)).1 =
      t.namespacePath parent ++ [given] := by
  rw [← (extends_enter t parent (some given)).namespacePath ordered inside, namespacePath,
    namespacePath, chain, enclosing_enter_new, chain_enter_of_contains inside,
    List.filterMap_cons_some (name?_enter_new t parent _), List.reverse_cons]

/-- The same chain with the same bindings resolves every name to the same value. -/
theorem resolve_congr (chains : t'.chain scope = t.chain scope)
    (same : ∀ e ∈ t.chain scope, t'.lookupIn e x = t.lookupIn e x) :
    t'.resolve scope x = t.resolve scope x := by
  rw [resolve, resolve, chains]
  generalize t.chain scope = scopes at same
  induction scopes with
  | nil => rfl
  | cons e rest ih =>
    rw [List.forall_mem_cons] at same
    rw [List.findSome?_cons, List.findSome?_cons, same.1, ih same.2]

/-- A new scope sees what its parent sees. -/
theorem resolve_enter (inside : t.contains parent) (given : Option Symbol) :
    (t.enter parent given).2.resolve (t.enter parent given).1 x = t.resolve parent x := by
  rw [resolve, chain, enclosing_enter_new, List.findSome?_cons, lookupIn_enter]
  have new : ¬ t.contains (t.enter parent given).1 := by
    rw [contains_iff, enter_index]
    exact Nat.lt_irrefl _
  rw [lookupIn_of_not_contains new]
  show (t.chain parent).findSome? _ = _
  rw [← chain_enter_of_contains inside given]
  refine resolve_congr (chain_enter_of_contains inside given) fun e member => ?_
  exact lookupIn_enter given

/-- Binding a name changes what that name means, and nothing else. -/
theorem resolve_assign (inside : t.contains scope) (value : BoundValue) :
    (t.assign scope name (some value)).resolve scope x =
      if x = name then some value else t.resolve scope x := by
  split
  · rename_i here
    rw [resolve, chain, List.findSome?_cons, lookupIn_assign, if_pos ⟨rfl, inside, here⟩]
  · rename_i there
    refine resolve_congr ?_ fun e _ => ?_
    · rw [chain, chain, enclosing_assign]
    · rw [lookupIn_assign, if_neg fun both => there both.2.2]

/-- What a name resolves to is bound in a scope of the chain. -/
theorem lookupIn_of_resolve {value : BoundValue} (found : t.resolve scope x = some value) :
    ∃ e ∈ t.chain scope, t.lookupIn e x = some value :=
  List.exists_of_findSome?_eq_some found

end SsaLowering.ScopeTable
