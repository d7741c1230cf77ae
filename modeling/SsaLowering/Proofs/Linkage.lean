/-
# SsaLowering.Proofs.Linkage -- different declarations have different linkage names

A linkage name is a row of parts with a separator between any two.  It can be taken
apart again if no part contains the first character of the separator: the first
place of this character is where the first part ends (`Mangler.join_inj`).  So under
this condition two declarations have one linkage name only if they have the same
simple name inside of the same namespaces (`Mangler.mangle_eq_iff`).

`ScopeTree.Encloses` says which namespaces these are, in a plain tree of scopes: those
on the way up from the scope of the declaration.  A scope without a name, of a function
or a block, adds nothing.
-/
import SsaLowering.Linkage
import SsaLowering.Proofs.ScopeTree
import SsaLowering.Proofs.Text

namespace SsaLowering

set_option autoImplicit false

/-! ## Names as rows of parts -/

/-- Linkage names are equal only for equal parts, where no part contains the first character of
the separator. -/
theorem Mangler.join_inj {mangler : Mangler} {first : Char} {parts parts' : List String}
    (leads : mangler.separator.toList.head? = some first) (some_ : parts ≠ [])
    (some' : parts' ≠ []) (clear : ∀ part ∈ parts, first ∉ part.toList)
    (clear' : ∀ part ∈ parts', first ∉ part.toList) :
    mangler.join parts = mangler.join parts' ↔ parts = parts' := by
  refine ⟨fun same => ?_, fun same => same ▸ rfl⟩
  obtain ⟨separator, spelled⟩ := List.head?_eq_some_iff.1 leads
  have texts : (first :: separator).intercalate (parts.map String.toList) =
      (first :: separator).intercalate (parts'.map String.toList) := by
    rw [← spelled, ← String.toList_intercalate, ← String.toList_intercalate]
    exact congrArg String.toList same
  have lists := intercalate_inj (mt List.map_eq_nil_iff.1 some_) (mt List.map_eq_nil_iff.1 some')
    (List.forall_mem_map.2 clear) (List.forall_mem_map.2 clear') texts
  exact List.map_injective_iff.2 (fun _ _ => String.toList_inj.1) lists

/-- Without the condition the parts are not known: the first character of the separator may end
one part or begin the next. -/
example : Mangler.usual.join ["a_", "b"] = Mangler.usual.join ["a", "_b"] := by decide

/-! ## Scopes inside of namespaces -/

namespace ScopeTree

/-- The scope lies in the namespaces of these names, the outermost first. -/
inductive Nested (symbols : SymbolTable) (tree : ScopeTree) : ScopeId → List String → Prop
  | top {scope : ScopeId} (orphan : tree.parent scope = none) : Nested symbols tree scope []
  | block {scope parent : ScopeId} {namespaces : List String}
      (child : tree.parent scope = some parent) (unnamed : tree.name scope = none)
      (outer : Nested symbols tree parent namespaces) : Nested symbols tree scope namespaces
  | namespace_ {scope parent : ScopeId} {namespaces : List String} {symbol : Symbol}
      {text : String} (child : tree.parent scope = some parent)
      (named : tree.name scope = some symbol) (known : symbols.resolve? symbol = some text)
      (outer : Nested symbols tree parent namespaces) :
      Nested symbols tree scope (namespaces ++ [text])

/-- `outer` itself, or a scope without a name inside of it, with none but such in between. -/
inductive Blocks (tree : ScopeTree) (outer : ScopeId) : ScopeId → Prop
  | here : Blocks tree outer outer
  | block {scope parent : ScopeId} (child : tree.parent scope = some parent)
      (unnamed : tree.name scope = none) (rest : Blocks tree outer parent) :
      Blocks tree outer scope

/-- A function or a block stands in the namespaces that it is nested in. -/
theorem Nested.blocks {symbols : SymbolTable} {tree : ScopeTree} {outer scope : ScopeId}
    {namespaces : List String} (nested : tree.Nested symbols outer namespaces)
    (blocks : tree.Blocks outer scope) : tree.Nested symbols scope namespaces := by
  induction blocks with
  | here => exact nested
  | block child unnamed rest ih => exact .block child unnamed ih

end ScopeTree

namespace ScopeTable

variable {t : ScopeTable} {tree : ScopeTree} {scope parent : ScopeId} {symbols : SymbolTable}
  {namespaces : List String}

theorem extends_run (t : ScopeTable) (ops : List ScopeOp) : t.Extends (t.run ops) := by
  induction ops generalizing t with
  | nil => exact .refl t
  | cons op ops ih => exact (t.extends_perform op).trans (ih (t.perform op))

/-- A scope with a parent adds itself to the chain of its parent. -/
theorem Represents.chain_child (represents : t.Represents tree) (threaded : t.Threaded)
    (inside : t.contains scope) (child : tree.parent scope = some parent) :
    t.contains parent ∧ t.chain scope = scope :: t.chain parent := by
  rw [← represents.parent, parent?] at child
  have apart : scope ≠ global := by
    rintro rfl
    rw [threaded.global] at child
    cases child
  obtain ⟨outer, there, around⟩ := threaded.inner scope inside apart
  rw [around] at child
  obtain rfl : outer = parent := Option.some.inj child
  exact ⟨there, by rw [chain, around]⟩

/-- Only the global scope has no parent. -/
theorem Represents.eq_global (represents : t.Represents tree) (threaded : t.Threaded)
    (inside : t.contains scope) (orphan : tree.parent scope = none) : scope = global := by
  by_contra apart
  obtain ⟨outer, -, around⟩ := threaded.inner scope inside apart
  rw [← represents.parent, parent?, around] at orphan
  cases orphan

theorem namespacePath_cons (line : t.chain scope = scope :: t.chain parent) :
    t.namespacePath scope = t.namespacePath parent ++ (t.name? scope).toList := by
  rw [namespacePath, namespacePath, line, List.filterMap_cons]
  cases t.name? scope <;> simp

/-- The names of the namespaces around a scope are read from the table in their order. -/
theorem Represents.resolve_namespacePath {ε : Type} (represents : t.Represents tree)
    (threaded : t.Threaded) (unnamed : t.name? global = none)
    (nested : tree.Nested symbols scope namespaces) (inside : t.contains scope) :
    (t.namespacePath scope).mapM (symbols.resolve (ε := ε)) = .ok namespaces := by
  induction nested with
  | top orphan =>
    obtain rfl := represents.eq_global threaded inside orphan
    rw [namespacePath, chain, threaded.global, List.filterMap_cons, unnamed]
    rfl
  | block child unnamed outer ih =>
    obtain ⟨there, line⟩ := represents.chain_child threaded inside child
    rw [namespacePath_cons line, represents.name, unnamed, Option.toList_none, List.append_nil]
    exact ih there
  | @namespace_ scope parent namespaces symbol text child named known outer ih =>
    obtain ⟨there, line⟩ := represents.chain_child threaded inside child
    have text : symbols.resolve (ε := ε) symbol = .ok text := by rw [SymbolTable.resolve, known]
    rw [namespacePath_cons line, represents.name, named, List.mapM_append, ih there,
      Option.toList_some, List.mapM_cons, List.mapM_nil, text]
    rfl

end ScopeTable

/-! ## Declarations -/

/-- A name that is declared in a scope, with the namespaces around this scope. -/
structure DeclaredName where
  symbols : SymbolTable
  /-- How the scopes were made. -/
  ops : List ScopeOp
  scope : ScopeId
  namespaces : List String
  name : String
  issued : ScopeTable.initial.Issues ops
  inside : (ScopeTable.initial.run ops).contains scope
  nested : (ScopeTree.root.run ops).Nested symbols scope namespaces

namespace DeclaredName

/-- All names that its linkage name is made of. -/
def parts (d : DeclaredName) : List String := d.namespaces ++ [d.name]

/-- The linkage name if it is declared in `scope`. -/
def mangledIn {ε : Type} (d : DeclaredName) (mangler : Mangler) (scope : ScopeId) :
    Except (Failure ε) String :=
  mangler.mangle d.symbols (ScopeTable.initial.run d.ops) scope d.name

/-- In the scope itself, and in every block inside of it, the name is mangled to the same. -/
theorem mangledIn_blocks {ε : Type} (d : DeclaredName) (mangler : Mangler) {scope : ScopeId}
    (inside : (ScopeTable.initial.run d.ops).contains scope)
    (blocks : (ScopeTree.root.run d.ops).Blocks d.scope scope) :
    d.mangledIn (ε := ε) mangler scope = .ok (mangler.join d.parts) := by
  obtain ⟨threaded, represents⟩ := ScopeTable.Represents.run ScopeTable.threaded_initial
    ScopeTable.represents_initial d.issued
  have unnamed : (ScopeTable.initial.run d.ops).name? ScopeTable.global = none :=
    (ScopeTable.initial.extends_run d.ops).names _ rfl
  rw [mangledIn, Mangler.mangle,
    represents.resolve_namespacePath threaded unnamed (d.nested.blocks blocks) inside]
  rfl

end DeclaredName

/-- Two declarations, of whose names none contains the first character of the separator, have
one linkage name exactly if they have one simple name in the same namespaces.  Scopes of blocks
and functions make no difference, and outside of all namespaces the simple name is kept. -/
theorem Mangler.mangle_eq_iff {ε : Type} (mangler : Mangler) {first : Char}
    (leads : mangler.separator.toList.head? = some first) (d d' : DeclaredName)
    (clear : ∀ part ∈ d.parts, first ∉ part.toList)
    (clear' : ∀ part ∈ d'.parts, first ∉ part.toList) :
    ∃ linkage linkage', d.mangledIn (ε := ε) mangler d.scope = .ok linkage ∧
      d'.mangledIn (ε := ε) mangler d'.scope = .ok linkage' ∧
      (linkage = linkage' ↔ d.namespaces = d'.namespaces ∧ d.name = d'.name) ∧
      (d.namespaces = [] → linkage = d.name) ∧
      ∀ scope, (ScopeTable.initial.run d.ops).contains scope →
        (ScopeTree.root.run d.ops).Blocks d.scope scope →
          d.mangledIn (ε := ε) mangler scope = .ok linkage := by
  refine ⟨mangler.join d.parts, mangler.join d'.parts, d.mangledIn_blocks mangler d.inside .here,
    d'.mangledIn_blocks mangler d'.inside .here, ?_, ?_,
    fun scope inside blocks => d.mangledIn_blocks mangler inside blocks⟩
  · exact (join_inj leads (List.concat_ne_nil _ _) (List.concat_ne_nil _ _) clear clear').trans
      List.append_singleton_inj
  · intro free
    rw [DeclaredName.parts, free]
    exact String.intercalate_singleton

namespace Sample

private def nestedScopes : List ScopeOp :=
  [.enter ScopeTable.global (some ⟨0⟩), .enter ⟨1⟩ none, .enter ⟨2⟩ (some ⟨1⟩), .enter ⟨3⟩ none]

private def nestedNames : SymbolTable := ⟨["b", ""], by decide⟩

/-- `b` in a namespace `b`, from where a block leads to a namespace without letters. -/
private def shallowName : DeclaredName where
  symbols := nestedNames
  ops := nestedScopes
  scope := ⟨2⟩
  namespaces := ["b"]
  name := "b"
  issued := ⟨rfl, rfl, rfl, rfl, trivial⟩
  inside := rfl
  nested := by
    have top : (ScopeTree.root.run nestedScopes).Nested nestedNames ScopeTable.global [] := .top rfl
    exact .block rfl rfl (.namespace_ rfl rfl rfl top)

private def deepName : DeclaredName where
  symbols := nestedNames
  ops := nestedScopes
  scope := ⟨3⟩
  namespaces := ["b", ""]
  name := "b"
  issued := ⟨rfl, rfl, rfl, rfl, trivial⟩
  inside := rfl
  nested := .namespace_ rfl rfl rfl shallowName.nested

end Sample

/-- Under the separator `ab` the linkage names are `babb` and `bababb`. -/
theorem Mangler.mangle_eq_iff_sample :
    ∃ linkage linkage', Sample.shallowName.mangledIn (ε := Empty) ⟨"ab"⟩ ⟨2⟩ = .ok linkage ∧
      Sample.deepName.mangledIn (ε := Empty) ⟨"ab"⟩ ⟨3⟩ = .ok linkage' ∧
      linkage ≠ linkage' ∧
      Sample.deepName.mangledIn (ε := Empty) ⟨"ab"⟩ ⟨4⟩ = .ok linkage' := by
  have clear : ∀ part ∈ Sample.shallowName.parts, 'a' ∉ part.toList := by decide
  have clear' : ∀ part ∈ Sample.deepName.parts, 'a' ∉ part.toList := by decide
  obtain ⟨deep, shallow, mangled, mangled', differ, -, blocks⟩ := Mangler.mangle_eq_iff
    (ε := Empty) ⟨"ab"⟩ rfl Sample.deepName Sample.shallowName clear' clear
  refine ⟨shallow, deep, mangled', mangled, fun same => ?_, ?_⟩
  · exact absurd (differ.1 same.symm).1 (by decide)
  · exact blocks ⟨4⟩ rfl (.block rfl rfl .here)

end SsaLowering
