/-
# SsaLowering.Proofs.ScopeTree -- a scope table is a tree of maps

A `ScopeTree` is the plain reading of a scope table: a tree of scopes, of which each
knows its parent, the name it was given and a map from names to bindings.  The four
operations are updates of these functions.  A table keeps for every scope the whole
chain of the scopes around it; `Represents` says that it holds the same tree, and
every operation on a scope that was issued keeps this.

So a lookup in a table is the one in the tree (`run_lookups`): along the line of
parents, which is finite and ends in the global scope, the first binding counts.

The second half is about changes that are taken back.  `Undoes` describes a stretch of
operations that leaves open no binding in an older scope, since each is undone by a
`restore`, the last one first.  Behind such a stretch no older scope has changed: at
any point, taking back what is still pending leads to the bindings of the start
(`Undoes.lookupIn_unwind`).
-/
import SsaLowering.Proofs.Scope

namespace SsaLowering

set_option autoImplicit false

/-! ## Operations -/

/-- One operation on a scope table. -/
inductive ScopeOp where
  | enter (parent : ScopeId) (name : Option Symbol)
  | bind (scope : ScopeId) (name : Symbol) (value : BoundValue)
  | restore (scope : ScopeId) (name : Symbol) (previous : Option BoundValue)
  | discard (scope : ScopeId)
deriving Inhabited

/-- The scope that an operation is given. -/
def ScopeOp.scope : ScopeOp → ScopeId
  | enter parent _ => parent
  | bind scope _ _ | restore scope _ _ | discard scope => scope

namespace ScopeTable

def perform (t : ScopeTable) : ScopeOp → ScopeTable
  | .enter parent name => (t.enter parent name).2
  | .bind scope name value => (t.bind scope name value).2
  | .restore scope name previous => t.restore scope name previous
  | .discard scope => t.discard scope

/-- Operations in order. -/
def run (t : ScopeTable) (ops : List ScopeOp) : ScopeTable := ops.foldl perform t

/-- Every operation is given a scope that the table has issued before it. -/
def Issues : ScopeTable → List ScopeOp → Prop
  | _, [] => True
  | t, op :: rest => t.contains op.scope ∧ (t.perform op).Issues rest

end ScopeTable

/-! ## Trees of maps -/

/-- Scopes with their parents, their names and their bindings; `count` of them are there. -/
structure ScopeTree where
  count : Nat
  parent : ScopeId → Option ScopeId
  name : ScopeId → Option Symbol
  map : ScopeId → Symbol → Option BoundValue

namespace ScopeTree

/-- The global scope alone. -/
def root : ScopeTree := ⟨1, fun _ => none, fun _ => none, fun _ _ => none⟩

/-- A tree in which a name of a scope has another binding, or none. -/
def put (tree : ScopeTree) (scope : ScopeId) (name : Symbol) (value : Option BoundValue) :
    ScopeTree :=
  { tree with
    map := fun other x => if other = scope ∧ x = name then value else tree.map other x }

def perform (tree : ScopeTree) : ScopeOp → ScopeTree
  | .enter parent name => {
      count := tree.count + 1
      parent := fun other => if other.index = tree.count then some parent else tree.parent other
      name := fun other => if other.index = tree.count then name else tree.name other
      map := tree.map }
  | .bind scope name value => tree.put scope name (some value)
  | .restore scope name previous => tree.put scope name previous
  | .discard scope =>
    { tree with map := fun other => if other = scope then fun _ => none else tree.map other }

/-- Operations in order. -/
def run (tree : ScopeTree) (ops : List ScopeOp) : ScopeTree := ops.foldl perform tree

/-- The line of parents of a scope, from the scope itself up to one without a parent. -/
inductive Lineage (tree : ScopeTree) : ScopeId → List ScopeId → Prop
  | top {scope : ScopeId} (orphan : tree.parent scope = none) : Lineage tree scope [scope]
  | inside {scope parent : ScopeId} {line : List ScopeId} (child : tree.parent scope = some parent)
      (outer : Lineage tree parent line) : Lineage tree scope (scope :: line)

end ScopeTree

namespace ScopeTable

variable {t t' : ScopeTable} {tree : ScopeTree} {scope parent : ScopeId} {op : ScopeOp}

/-! ## Tables that hold a tree -/

/-- The global scope is inside of nothing, and any other is inside of its parent and of all that
its parent is inside of. -/
structure Threaded (t : ScopeTable) : Prop where
  ordered : t.Ordered
  root : t.contains global
  global : t.enclosing global = []
  inner : ∀ scope, t.contains scope → scope ≠ ScopeTable.global →
    ∃ parent, t.contains parent ∧ t.enclosing scope = t.chain parent

/-- The table holds the tree. -/
structure Represents (t : ScopeTable) (tree : ScopeTree) : Prop where
  count : t.frames.length = tree.count
  parent : ∀ scope, t.parent? scope = tree.parent scope
  name : ∀ scope, t.name? scope = tree.name scope
  map : ∀ scope x, t.lookupIn scope x = tree.map scope x

theorem length_assign (scope : ScopeId) (name : Symbol) (value : Option BoundValue) :
    (t.assign scope name value).frames.length = t.frames.length := by
  rw [assign, List.length_modify]

theorem extends_perform (t : ScopeTable) (op : ScopeOp) : t.Extends (t.perform op) := by
  cases op with
  | enter parent name => exact t.extends_enter parent name
  | bind scope name value => exact t.extends_assign scope name _
  | restore scope name previous => exact t.extends_assign scope name _
  | discard scope => exact t.extends_discard scope

/-- An operation that enters no scope keeps the place of every scope. -/
theorem Threaded.congr (threaded : t.Threaded) (count : t'.frames.length = t.frames.length)
    (enclosing : ∀ scope, t'.enclosing scope = t.enclosing scope) : t'.Threaded where
  ordered := threaded.ordered.congr enclosing
  root := by
    rw [contains_iff, count]
    exact contains_iff.1 threaded.root
  global := by
    rw [enclosing]
    exact threaded.global
  inner := by
    intro scope known other
    rw [contains_iff, count, ← contains_iff] at known
    obtain ⟨parent, there, same⟩ := threaded.inner scope known other
    refine ⟨parent, ?_, ?_⟩
    · rwa [contains_iff, count, ← contains_iff]
    · rw [chain, enclosing, enclosing, same, chain]

theorem Threaded.enter (threaded : t.Threaded) (inside : t.contains parent)
    (given : Option Symbol) : (t.enter parent given).2.Threaded where
  ordered := threaded.ordered.enter inside given
  root := (t.extends_enter parent given).contains _ threaded.root
  global := by
    rw [(t.extends_enter parent given).enclosing _ threaded.root]
    exact threaded.global
  inner := by
    intro scope known other
    rw [contains_iff] at known
    by_cases new : scope.index = t.frames.length
    · refine ⟨parent, (t.extends_enter parent given).contains _ inside, ?_⟩
      rw [enclosing_enter, if_pos new, chain_enter_of_contains inside]
    · have old : t.contains scope := by
        rw [contains_iff]
        simp only [ScopeTable.enter, List.length_append, List.length_singleton] at known
        omega
      obtain ⟨outer, there, same⟩ := threaded.inner scope old other
      refine ⟨outer, (t.extends_enter parent given).contains _ there, ?_⟩
      rw [enclosing_enter, if_neg new, chain_enter_of_contains there, same]

theorem Threaded.perform (threaded : t.Threaded) (issued : t.contains op.scope) :
    (t.perform op).Threaded := by
  cases op with
  | enter parent name => exact threaded.enter issued name
  | bind scope name value =>
    exact threaded.congr (length_assign ..) fun _ => enclosing_assign _
  | restore scope name previous =>
    exact threaded.congr (length_assign ..) fun _ => enclosing_assign _
  | discard scope =>
    exact threaded.congr (List.length_modify ..) fun _ => enclosing_discard

theorem threaded_initial : initial.Threaded where
  ordered := ordered_initial
  root := rfl
  global := rfl
  inner := by
    intro scope known other
    rw [contains_iff] at known
    obtain rfl : scope = ScopeTable.global := by
      cases scope
      exact congrArg ScopeId.mk (Nat.lt_one_iff.1 known)
    exact absurd rfl other

theorem Represents.put (represents : t.Represents tree) (issued : t.contains scope)
    (name : Symbol) (value : Option BoundValue) :
    (t.assign scope name value).Represents (tree.put scope name value) where
  count := (length_assign ..).trans represents.count
  parent := by
    intro other
    rw [parent?, enclosing_assign]
    exact represents.parent other
  name := fun other => (name?_assign value).trans (represents.name other)
  map := by
    intro other x
    rw [lookupIn_assign, represents.map]
    simp only [ScopeTree.put, issued, true_and, eq_comm (a := scope)]

theorem Represents.perform (represents : t.Represents tree) (issued : t.contains op.scope) :
    (t.perform op).Represents (tree.perform op) := by
  cases op with
  | enter parent name =>
    exact {
      count := by
        rw [ScopeTree.perform, ← represents.count]
        exact List.length_append
      parent := by
        intro other
        show ((t.enter parent name).2.enclosing other).head? =
          if other.index = tree.count then some parent else tree.parent other
        rw [enclosing_enter, ← represents.count, ← represents.parent]
        split <;> rfl
      name := by
        intro other
        show (t.enter parent name).2.name? other =
          if other.index = tree.count then name else tree.name other
        rw [name?_enter, ← represents.count, ← represents.name]
      map := fun other x => (lookupIn_enter name).trans (represents.map other x) }
  | bind scope name value => exact represents.put issued name _
  | restore scope name previous => exact represents.put issued name _
  | discard scope =>
    exact {
      count := (List.length_modify ..).trans represents.count
      parent := by
        intro other
        show ((t.discard scope).enclosing other).head? = _
        rw [enclosing_discard]
        exact represents.parent other
      name := fun other => name?_discard.trans (represents.name other)
      map := by
        intro other x
        show (t.discard scope).lookupIn other x = _
        rw [lookupIn_discard, represents.map, ScopeTree.perform]
        simp only [eq_comm (a := scope)]
        split <;> rfl }

theorem represents_initial : initial.Represents ScopeTree.root where
  count := rfl
  parent := by
    rintro ⟨_ | i⟩ <;> rfl
  name := by
    rintro ⟨_ | i⟩ <;> rfl
  map := by
    rintro ⟨_ | i⟩ x <;> rfl

/-- Operations on issued scopes keep the table and the tree together. -/
theorem Represents.run {ops : List ScopeOp} (threaded : t.Threaded) (represents : t.Represents tree)
    (issued : t.Issues ops) : (t.run ops).Threaded ∧ (t.run ops).Represents (tree.run ops) := by
  induction ops generalizing t tree with
  | nil => exact ⟨threaded, represents⟩
  | cons op ops ih =>
    obtain ⟨here, rest⟩ := issued
    exact ih (threaded.perform here) (represents.perform here) rest

/-! ## Lookups -/

/-- The chain of a scope is its line of parents, and ends in the global scope. -/
theorem Represents.lineage (represents : t.Represents tree) (threaded : t.Threaded) :
    ∀ (n : Nat) (scope : ScopeId), scope.index = n → t.contains scope →
      tree.Lineage scope (t.chain scope) ∧ (t.chain scope).getLast? = some global := by
  intro n
  induction n using Nat.strongRecOn with
  | ind n ih =>
    rintro scope rfl inside
    by_cases top : scope = global
    · subst top
      have alone : t.chain global = [global] := by rw [chain, threaded.global]
      rw [alone]
      refine ⟨.top ?_, rfl⟩
      rw [← represents.parent, parent?, threaded.global]
      rfl
    · obtain ⟨parent, there, around⟩ := threaded.inner scope inside top
      have before : parent.index < scope.index :=
        threaded.ordered scope parent (by rw [around]; exact List.mem_cons_self)
      obtain ⟨line, last⟩ := ih parent.index before parent rfl there
      have chain_eq : t.chain scope = scope :: t.chain parent := by rw [chain, around]
      rw [chain_eq]
      refine ⟨.inside ?_ line, ?_⟩
      · rw [← represents.parent, parent?, around]
        rfl
      · rw [chain, List.getLast?_cons_cons]
        exact last

/-- What the lookups in a scope of the table give, told of the tree: they end, since the line
of parents of the scope is a list, whose last member is the global scope. -/
structure LooksUp (t : ScopeTable) (tree : ScopeTree) (scope : ScopeId) (line : List ScopeId) :
    Prop where
  lineage : tree.Lineage scope line
  ends : line.getLast? = some global
  /-- The first scope of the line that binds the name counts. -/
  resolve : ∀ x, t.resolve scope x = line.findSome? (tree.map · x)
  /-- A qualified lookup asks one scope. -/
  qualified : ∀ x, t.lookupIn scope x = tree.map scope x
  /-- The names along the line, outermost first. -/
  path : t.namespacePath scope = (line.filterMap tree.name).reverse

theorem Represents.looksUp (represents : t.Represents tree) (threaded : t.Threaded)
    (inside : t.contains scope) : t.LooksUp tree scope (t.chain scope) := by
  obtain ⟨line, last⟩ := represents.lineage threaded scope.index scope rfl inside
  exact {
    lineage := line
    ends := last
    resolve := fun x => by simp only [ScopeTable.resolve, represents.map]
    qualified := represents.map scope
    path := by simp only [namespacePath, funext represents.name] }

/-! ## Changes that are taken back -/

/-- A binding that is still to be undone, with what it replaced. -/
structure Pending where
  scope : ScopeId
  name : Symbol
  previous : Option BoundValue

/-- From the table `t`, with bindings pending in scopes of `older`, the operations undo all
bindings in scopes of `older`, the last one first and each with what `bind` returned, and
discard no scope of `older`. -/
inductive Undoes (older : ScopeTable) : ScopeTable → List Pending → List ScopeOp → Prop
  | done {t : ScopeTable} : Undoes older t [] []
  | enter {t : ScopeTable} {pending : List Pending} {ops : List ScopeOp} {parent : ScopeId}
      {name : Option Symbol} (issued : t.contains parent)
      (rest : Undoes older (t.enter parent name).2 pending ops) :
      Undoes older t pending (.enter parent name :: ops)
  /-- Whatever is done in a newer scope. -/
  | newer {t : ScopeTable} {pending : List Pending} {ops : List ScopeOp} {op : ScopeOp}
      (issued : t.contains op.scope) (new : ¬ older.contains op.scope)
      (rest : Undoes older (t.perform op) pending ops) : Undoes older t pending (op :: ops)
  | bind {t : ScopeTable} {pending : List Pending} {ops : List ScopeOp} {scope : ScopeId}
      {name : Symbol} {value : BoundValue} (old : older.contains scope)
      (rest : Undoes older (t.bind scope name value).2
        (⟨scope, name, (t.bind scope name value).1⟩ :: pending) ops) :
      Undoes older t pending (.bind scope name value :: ops)
  | restore {t : ScopeTable} {pending : List Pending} {ops : List ScopeOp} {scope : ScopeId}
      {name : Symbol} {previous : Option BoundValue}
      (rest : Undoes older (t.restore scope name previous) pending ops) :
      Undoes older t (⟨scope, name, previous⟩ :: pending) (.restore scope name previous :: ops)

/-- The table when all pending bindings are taken back. -/
def unwind (t : ScopeTable) (pending : List Pending) : ScopeTable :=
  pending.foldl (fun t binding => t.restore binding.scope binding.name binding.previous) t

/-- Tables with the same bindings in the older scopes have the same when the same is taken
back. -/
theorem lookupIn_unwind_congr {older : ScopeTable} {pending : List Pending}
    (grown : older.Extends t) (grown' : older.Extends t')
    (same : ∀ scope, older.contains scope → ∀ x, t'.lookupIn scope x = t.lookupIn scope x)
    (old : ∀ binding ∈ pending, older.contains binding.scope) :
    ∀ scope, older.contains scope → ∀ x,
      (t'.unwind pending).lookupIn scope x = (t.unwind pending).lookupIn scope x := by
  induction pending generalizing t t' with
  | nil => exact same
  | cons binding pending ih =>
    obtain ⟨here, rest⟩ := List.forall_mem_cons.1 old
    refine ih (grown.trans (t.extends_assign ..)) (grown'.trans (t'.extends_assign ..)) ?_ rest
    intro scope inside x
    dsimp only
    rw [restore, restore, lookupIn_assign, lookupIn_assign, same scope inside x]
    simp only [grown.contains _ here, grown'.contains _ here]

/-- An operation in a newer scope leaves the older ones alone. -/
theorem lookupIn_perform_newer {older : ScopeTable} (new : ¬ older.contains op.scope)
    (inside : older.contains scope) (x : Symbol) :
    (t.perform op).lookupIn scope x = t.lookupIn scope x := by
  have apart : op.scope ≠ scope := by
    rintro rfl
    exact new inside
  cases op with
  | enter parent name => exact lookupIn_enter name
  | bind other name value =>
    exact (lookupIn_assign _).trans (if_neg fun both => apart both.1)
  | restore other name previous =>
    exact (lookupIn_assign _).trans (if_neg fun both => apart both.1)
  | discard other => exact lookupIn_discard.trans (if_neg apart)

/-- Behind the operations the older scopes bind what they bound when all that was pending is
taken back. -/
theorem Undoes.lookupIn_unwind {older : ScopeTable} {pending : List Pending} {ops : List ScopeOp}
    (undoes : older.Undoes t pending ops) (grown : older.Extends t)
    (old : ∀ binding ∈ pending, older.contains binding.scope) :
    older.Extends (t.run ops) ∧ ∀ scope, older.contains scope → ∀ x,
      (t.run ops).lookupIn scope x = (t.unwind pending).lookupIn scope x := by
  induction undoes with
  | done => exact ⟨grown, fun _ _ _ => rfl⟩
  | @enter t pending ops parent name issued rest ih =>
    have grown' := grown.trans (t.extends_enter parent name)
    obtain ⟨last, same⟩ := ih grown' old
    refine ⟨last, fun scope inside x => (same scope inside x).trans ?_⟩
    exact lookupIn_unwind_congr grown grown' (fun _ _ _ => lookupIn_enter name) old scope inside x
  | @newer t pending ops op issued new rest ih =>
    have grown' := grown.trans (t.extends_perform op)
    obtain ⟨last, same⟩ := ih grown' old
    refine ⟨last, fun scope inside x => (same scope inside x).trans ?_⟩
    exact lookupIn_unwind_congr grown grown'
      (fun _ inside x => lookupIn_perform_newer new inside x) old scope inside x
  | @bind t pending ops scope name value inside rest ih =>
    obtain ⟨last, same⟩ := ih (grown.trans (t.extends_assign scope name _))
      (List.forall_mem_cons.2 ⟨inside, old⟩)
    refine ⟨last, fun other known x => (same other known x).trans ?_⟩
    -- taking back the new binding leads to the table before it
    show ((((t.bind scope name value).2.restore scope name _).unwind pending).lookupIn _ _) = _
    rw [show (t.bind scope name value).2.restore scope name (t.bind scope name value).1 = t from
      t.restore_bind scope name value]
  | @restore t pending ops scope name previous rest ih =>
    exact ih (grown.trans (t.extends_assign scope name _)) (List.forall_mem_cons.1 old).2

/-- A stretch in which all bindings in older scopes are undone. -/
theorem Undoes.unchanged {ops : List ScopeOp} (undoes : t.Undoes t [] ops) (ordered : t.Ordered)
    (inside : t.contains scope) (x : Symbol) :
    (t.run ops).resolve scope x = t.resolve scope x ∧
      (t.run ops).lookupIn scope x = t.lookupIn scope x := by
  obtain ⟨grown, same⟩ := undoes.lookupIn_unwind (.refl t) nofun
  refine ⟨resolve_congr (grown.chain inside) fun e member => ?_, same scope inside x⟩
  exact same e (ordered.contains_chain inside e member) x

/-! ## Runs -/

/-- A table on which operations were performed holds the tree on which the same were
performed.  A name means in a scope what the first scope on the line of its parents says that
binds it, a qualified lookup asks the scope alone, and the path of a scope are the names on the
line from outside to inside.  From there a stretch of operations that undoes each binding in an
older scope changes no lookup in an older scope. -/
theorem run_lookups (ops : List ScopeOp) (issued : initial.Issues ops) :
    (∀ scope, (initial.run ops).contains scope →
      ∃ line, (initial.run ops).LooksUp (ScopeTree.root.run ops) scope line) ∧
    ∀ stretch, (initial.run ops).Undoes (initial.run ops) [] stretch →
      ∀ scope, (initial.run ops).contains scope → ∀ x,
        ((initial.run ops).run stretch).resolve scope x = (initial.run ops).resolve scope x ∧
        ((initial.run ops).run stretch).lookupIn scope x = (initial.run ops).lookupIn scope x := by
  obtain ⟨threaded, represents⟩ := Represents.run threaded_initial represents_initial issued
  refine ⟨fun scope inside => ⟨_, represents.looksUp threaded inside⟩, ?_⟩
  intro stretch undoes scope inside x
  exact undoes.unchanged threaded.ordered inside x

private def sampleOps : List ScopeOp :=
  [.enter global (some ⟨0⟩), .enter ⟨1⟩ none, .enter ⟨2⟩ (some ⟨1⟩),
    .bind global ⟨5⟩ (.namespace_ ⟨1⟩), .bind ⟨2⟩ ⟨5⟩ (.namespace_ ⟨3⟩)]

/-- One name is bound twice in a scope and once further out, and a new scope ends in between. -/
private def sampleStretch : List ScopeOp :=
  [.bind ⟨2⟩ ⟨5⟩ (.namespace_ ⟨0⟩), .enter ⟨3⟩ none, .bind ⟨4⟩ ⟨5⟩ (.namespace_ ⟨2⟩),
    .bind ⟨2⟩ ⟨5⟩ (.namespace_ ⟨4⟩), .bind global ⟨5⟩ (.namespace_ ⟨0⟩), .discard ⟨4⟩,
    .restore global ⟨5⟩ (some (.namespace_ ⟨1⟩)), .restore ⟨2⟩ ⟨5⟩ (some (.namespace_ ⟨0⟩)),
    .restore ⟨2⟩ ⟨5⟩ (some (.namespace_ ⟨3⟩))]

private theorem sampleStretch_undoes :
    (initial.run sampleOps).Undoes (initial.run sampleOps) [] sampleStretch := by
  refine .bind rfl (.enter rfl (.newer rfl nofun (.bind rfl (.bind rfl (.newer rfl nofun ?_)))))
  exact .restore (.restore (.restore .done))

theorem run_lookups_sample :
    initial.Issues sampleOps ∧
    (∃ line, (initial.run sampleOps).LooksUp (ScopeTree.root.run sampleOps) ⟨3⟩ line) ∧
    (initial.run sampleOps).resolve ⟨3⟩ ⟨5⟩ = some (.namespace_ ⟨3⟩) ∧
    (initial.run sampleOps).namespacePath ⟨3⟩ = [⟨0⟩, ⟨1⟩] ∧
    ((initial.run sampleOps).run sampleStretch).resolve ⟨3⟩ ⟨5⟩ = some (.namespace_ ⟨3⟩) := by
  have issued : initial.Issues sampleOps := ⟨rfl, rfl, rfl, rfl, rfl, trivial⟩
  obtain ⟨lookups, stretches⟩ := run_lookups sampleOps issued
  exact ⟨issued, lookups ⟨3⟩ rfl, rfl, rfl,
    (stretches sampleStretch sampleStretch_undoes ⟨3⟩ rfl ⟨5⟩).1.trans rfl⟩

end ScopeTable

end SsaLowering
