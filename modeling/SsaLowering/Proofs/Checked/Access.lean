/-
# SsaLowering.Proofs.Checked.Access -- tables that are asked by position

A scope is a position in the table of scopes, a block one in the list of blocks, a symbol
one in the table of texts, and a position may be out of range.  The suffixes of names are
counted, and a counter may overrun.  Here every such access says so: its answer is what
stands there, or a `Slip`.  A way to the enclosing scopes goes from parent to parent, one
access after the other, and a way that is longer than there are scopes is a slip too.

Where the scopes are threaded no access of theirs slips (`ScopeTable.resolveUp_eq`,
`ScopeTable.pathUp_eq`), and no suffix is needed beyond the number of names in use
(`NameSupply.freshBelow_eq`).
-/
import SsaLowering.Linkage
import SsaLowering.Proofs.Ir.NameSupply
import SsaLowering.Proofs.ScopeTree

namespace SsaLowering

set_option autoImplicit false

open Ir (BlockId NameSupply suffixed)

/-- An access that has no answer. -/
inductive Slip where
  /-- A scope outside the table, or the text of a symbol that was never issued. -/
  | handle (fault : Fault)
  /-- A way to the enclosing scopes that does not end. -/
  | endless (scope : ScopeId)
  /-- A block outside the list of the function. -/
  | missingBlock (block : BlockId)
  /-- A suffix beyond the number of things that have a name. -/
  | suffix (counter : Nat)
deriving DecidableEq, Inhabited

/-! ## Scopes -/

namespace ScopeTable

variable {t : ScopeTable} {scope : ScopeId} {name : Symbol}

/-- What stands in the table for a scope. -/
def frame (t : ScopeTable) (scope : ScopeId) : Except Slip Frame :=
  match t.frame? scope with
  | some frame => .ok frame
  | none => .error (.handle (.missingScope scope.index))

/-- Look for a name in a scope, then in its parent, and so on, in at most `count` scopes. -/
def resolveUp (t : ScopeTable) (name : Symbol) : Nat → ScopeId → Except Slip (Option BoundValue)
  | 0, scope => .error (.endless scope)
  | count + 1, scope => do
    let frame ← t.frame scope
    match frame.bindings name, frame.enclosing.head? with
    | some value, _ => return some value
    | none, some parent => t.resolveUp name count parent
    | none, none => return none

/-- The names of a scope, of its parent, and so on, of at most `count` scopes. -/
def pathUp (t : ScopeTable) : Nat → ScopeId → Except Slip (List Symbol)
  | 0, scope => .error (.endless scope)
  | count + 1, scope => do
    let frame ← t.frame scope
    match frame.enclosing.head? with
    | some parent => return frame.name.toList ++ (← t.pathUp count parent)
    | none => return frame.name.toList

theorem frame_of_contains (inside : t.contains scope) :
    ∃ frame, t.frame scope = .ok frame ∧ frame.name = t.name? scope ∧
      frame.enclosing = t.enclosing scope ∧ ∀ name, frame.bindings name = t.lookupIn scope name := by
  obtain ⟨frame, known⟩ := Option.isSome_iff_exists.1 (isSome_frame?.2 inside)
  refine ⟨frame, ?_, ?_, ?_, fun name => ?_⟩
  · rw [ScopeTable.frame, known]
  · rw [name?, known]
    rfl
  · rw [enclosing, known]
    rfl
  · rw [lookupIn, known]
    rfl

/-- Each scope is the global one, or its parent is there and comes before it. -/
theorem Threaded.parent_cases (threaded : t.Threaded) (inside : t.contains scope) :
    t.enclosing scope = [] ∨
      ∃ parent, t.contains parent ∧ parent.index < scope.index ∧
        t.enclosing scope = t.chain parent := by
  by_cases root : scope = ScopeTable.global
  · rw [root]
    exact .inl threaded.global
  · obtain ⟨parent, there, same⟩ := threaded.inner scope inside root
    refine .inr ⟨parent, there, threaded.ordered scope parent ?_, same⟩
    rw [same]
    exact List.mem_cons_self

theorem Threaded.resolveUp_eq (threaded : t.Threaded) (name : Symbol) :
    ∀ (count : Nat) (scope : ScopeId), t.contains scope → scope.index < count →
      t.resolveUp name count scope = .ok (t.resolve scope name)
  | 0, _, _, bound => absurd bound (Nat.not_lt_zero _)
  | count + 1, scope, inside, bound => by
    obtain ⟨frame, known, -, enclosing, bindings⟩ := frame_of_contains inside
    rw [resolveUp, known]
    show (match frame.bindings name, frame.enclosing.head? with
      | some value, _ => Except.ok (some value)
      | none, some parent => t.resolveUp name count parent
      | none, none => Except.ok none) = _
    rw [bindings, enclosing, resolve, chain, List.findSome?_cons]
    cases here : t.lookupIn scope name with
    | some value => rfl
    | none =>
      rcases threaded.parent_cases inside with root | ⟨parent, there, before, same⟩
      · rw [root]
        rfl
      · rw [same]
        exact threaded.resolveUp_eq name count parent there (by omega)

theorem Threaded.pathUp_eq (threaded : t.Threaded) :
    ∀ (count : Nat) (scope : ScopeId), t.contains scope → scope.index < count →
      t.pathUp count scope = .ok ((t.chain scope).filterMap t.name?)
  | 0, _, _, bound => absurd bound (Nat.not_lt_zero _)
  | count + 1, scope, inside, bound => by
    obtain ⟨frame, known, named, enclosing, -⟩ := frame_of_contains inside
    have first : (t.chain scope).filterMap t.name? =
        frame.name.toList ++ (t.enclosing scope).filterMap t.name? := by
      rw [chain, List.filterMap_cons, named]
      cases t.name? scope <;> rfl
    rw [pathUp, known]
    show (match frame.enclosing.head? with
      | some parent => do return frame.name.toList ++ (← t.pathUp count parent)
      | none => Except.ok frame.name.toList) = _
    rw [enclosing, first]
    rcases threaded.parent_cases inside with root | ⟨parent, there, before, same⟩
    · rw [root, List.filterMap_nil, List.append_nil]
      rfl
    · have rest := threaded.pathUp_eq count parent there (by omega)
      rw [same]
      show (do return frame.name.toList ++ (← t.pathUp count parent)) = _
      rw [rest]
      rfl

end ScopeTable

/-! ## Texts -/

/-- Every one of the names has a text. -/
def SymbolTable.Issued (symbols : SymbolTable) (names : List Symbol) : Prop :=
  ∀ name ∈ names, (symbols.resolve? name).isSome

theorem SymbolTable.issued_append {symbols : SymbolTable} {names more : List Symbol} :
    symbols.Issued (names ++ more) ↔ symbols.Issued names ∧ symbols.Issued more :=
  List.forall_mem_append

theorem SymbolTable.issued_cons {symbols : SymbolTable} {name : Symbol} {rest : List Symbol} :
    symbols.Issued (name :: rest) ↔ (symbols.resolve? name).isSome ∧ symbols.Issued rest :=
  List.forall_mem_cons

/-- The text of a symbol. -/
def SymbolTable.text (symbols : SymbolTable) (symbol : Symbol) : Except Slip String :=
  match symbols.resolve? symbol with
  | some text => .ok text
  | none => .error (.handle (.unknownSymbol symbol))

/-- The linkage name of `name` declared in `scope`, with each namespace and each text looked up
where it stands. -/
def Mangler.mangleUp (mangler : Mangler) (symbols : SymbolTable) (scopes : ScopeTable)
    (scope : ScopeId) (name : String) : Except Slip String := do
  let path ← scopes.pathUp scopes.frames.length scope
  let namespaces ← path.reverse.mapM symbols.text
  return mangler.join (namespaces ++ [name])

/-- Texts that were issued are found in either way. -/
theorem SymbolTable.texts_of_issued {ε : Type} {symbols : SymbolTable} :
    ∀ names : List Symbol, symbols.Issued names →
      ∃ texts, names.mapM symbols.text = .ok texts ∧
        names.mapM (symbols.resolve (ε := ε)) = .ok texts
  | [], _ => ⟨[], rfl, rfl⟩
  | name :: rest, issued => by
    rw [issued_cons] at issued
    obtain ⟨first, known⟩ := Option.isSome_iff_exists.1 issued.1
    obtain ⟨texts, found, found'⟩ := texts_of_issued (ε := ε) rest issued.2
    refine ⟨first :: texts, ?_, ?_⟩
    · rw [List.mapM_cons, found, text, known]
      rfl
    · rw [List.mapM_cons, found', resolve, known]
      rfl

theorem Mangler.mangleUp_eq {ε : Type} {symbols : SymbolTable} {scopes : ScopeTable}
    {scope : ScopeId} (mangler : Mangler) (threaded : scopes.Threaded)
    (inside : scopes.contains scope)
    (issued : ∀ other name, scopes.name? other = some name → (symbols.resolve? name).isSome)
    (name : String) :
    ∃ linkage, mangler.mangleUp symbols scopes scope name = .ok linkage ∧
      mangler.mangle (ε := ε) symbols scopes scope name = .ok linkage := by
  have path := threaded.pathUp_eq scopes.frames.length scope inside
    (ScopeTable.contains_iff.1 inside)
  have known : symbols.Issued (scopes.namespacePath scope) := by
    intro name member
    rw [ScopeTable.namespacePath, List.mem_reverse, List.mem_filterMap] at member
    obtain ⟨other, -, named⟩ := member
    exact issued other name named
  obtain ⟨texts, found, found'⟩ := SymbolTable.texts_of_issued (ε := ε) _ known
  refine ⟨mangler.join (texts ++ [name]), ?_, ?_⟩
  · rw [mangleUp, path]
    show (do
      let namespaces ← (scopes.namespacePath scope).mapM symbols.text
      return mangler.join (namespaces ++ [name])) = _
    rw [found]
    rfl
  · rw [mangle, found']
    rfl

/-! ## Names -/

/-- A free name for `base`, where the suffixes are counted up to `count`.  When the search comes
upon the suffix `k` its counter stands at `k + 1`. -/
def Ir.NameSupply.freshBelow (s : NameSupply) (count : Nat) (base : String) :
    Except Slip (String × NameSupply) :=
  match if base ∈ s.used then s.freeSuffix? base else none with
  | some k => if k + 1 ≤ count then .ok (s.fresh base) else .error (.suffix (k + 1))
  | none => .ok (s.fresh base)

theorem Ir.NameSupply.freshBelow_eq {s : NameSupply} {count : Nat} (base : String)
    (room : s.used.length < count) : s.freshBelow count base = .ok (s.fresh base) := by
  rw [freshBelow]
  by_cases inUse : base ∈ s.used
  · obtain ⟨k, found⟩ := s.exists_freeSuffix base
    have bound := freeSuffix_le inUse found
    rw [if_pos inUse, found]
    exact if_pos (by omega)
  · rw [if_neg inUse]

end SsaLowering
