/-
# SsaLowering.Proofs.Lower.Members -- what is left when a namespace fails

The members of an item are its function declarations in source order, each with
the names of the namespaces around it.  They are lowered one after the other, and
the lowering of an item ends in one of two ways (`lowerItem_ends`): every member
has become a function (`Context.Adds`), or one of them failed, those before it are
functions, and the failed one and those after it left nothing (`Context.Stops`).

So a failure is undone for one function and not for the namespace around it: the
functions before it stay, and their names stay taken, although the namespace is
never bound (`Context.Reached.namespace_failed`).
-/
import SsaLowering.Proofs.Lower.Acceptance
import SsaLowering.Proofs.Lower.Rollback

namespace SsaLowering

set_option autoImplicit false

open Ir (Function)

/-! ## Members -/

/-- A function declaration and the names of the namespaces around it, the outermost first. -/
structure Member where
  around : List Symbol
  decl : FunctionDecl

mutual

/-- The function declarations of an item that is inside of namespaces, in source order. -/
def Item.members (around : List Symbol) : Item → List Member
  | .function decl => [⟨around, decl⟩]
  | .namespace_ name items _ => Item.allMembers (around ++ [name]) items
  | _ => []

def Item.allMembers (around : List Symbol) : List Item → List Member
  | [] => []
  | item :: rest => item.members around ++ Item.allMembers around rest

end

/-- The linkage name of a member. -/
def Member.linkage (member : Member) (env : Environment) : String :=
  env.mangler.join (member.around.map env.name ++ [env.name member.decl.name])

/-- The function has the linkage name of the member, and a body exactly when the member has. -/
structure Member.Makes (member : Member) (env : Environment) (f : Function) : Prop where
  name : f.name = member.linkage env
  body : f.isDeclaration ↔ member.decl.body = none

/-! ## What members add -/

variable {env : Environment} {scope : ScopeId} {members members' : List Member}
  {fs fs' : List Function} {failure : Failure LowerError} {cx cx' cx'' : Context}

/-- Work in a scope that made one function of each member, in order, and bound names in this
scope and in new ones alone. -/
structure Context.Adds (cx : Context) (env : Environment) (scope : ScopeId)
    (members : List Member) (fs : List Function) (cx' : Context) : Prop where
  sound : cx'.Sound
  made : List.Forall₂ (·.Makes env) members fs
  functions : cx'.module.functions = cx.module.functions ++ fs
  globals : cx.module.globals <+: cx'.module.globals
  idle : members = [] → cx'.module = cx.module
  scopes : cx.scopes.Extends cx'.scopes
  frames : ∀ other, cx.scopes.contains other → other ≠ scope →
    cx'.scopes.frame? other = cx.scopes.frame? other

/-- Work in a scope that ended at one of the members, whose failure it passed on. -/
def Context.Stops (cx : Context) (env : Environment) (scope : ScopeId) (members : List Member)
    (failure : Failure LowerError) (cx' : Context) : Prop :=
  ∃ done failing rest fs inner before, members = done ++ failing :: rest ∧
    cx.Adds env scope done fs before ∧
    before.scopes.namespacePath inner = failing.around ∧
    lowerFunction env inner failing.decl before = .error failure cx'

/-- How work on members in a scope ends. -/
def Context.Ends (cx : Context) (env : Environment) (scope : ScopeId) (members : List Member) :
    EStateM.Result (Failure LowerError) Context Unit → Prop
  | .ok () cx' => ∃ fs, cx.Adds env scope members fs cx'
  | .error failure cx' => cx.Stops env scope members failure cx'

namespace Context

theorem Adds.refl (sound : cx.Sound) (env : Environment) (scope : ScopeId) :
    cx.Adds env scope [] [] cx where
  sound := sound
  made := .nil
  functions := (List.append_nil _).symm
  globals := List.prefix_rfl
  idle := fun _ => rfl
  scopes := .refl _
  frames := fun _ _ _ => rfl

/-- Warnings and events make no function. -/
theorem Adds.silent (sound : cx'.Sound) (module : cx'.module = cx.module)
    (scopes : cx'.scopes = cx.scopes) : cx.Adds env scope [] [] cx' where
  sound := sound
  made := .nil
  functions := by rw [module, List.append_nil]
  globals := by rw [module]
  idle := fun _ => module
  scopes := scopes ▸ .refl _
  frames := fun _ _ _ => by rw [scopes]

theorem Adds.trans (first : cx.Adds env scope members fs cx')
    (second : cx'.Adds env scope members' fs' cx'') :
    cx.Adds env scope (members ++ members') (fs ++ fs') cx'' where
  sound := second.sound
  made := List.rel_append first.made second.made
  functions := by rw [second.functions, first.functions, List.append_assoc]
  globals := first.globals.trans second.globals
  idle := by
    intro none_
    obtain ⟨none_, none_'⟩ := List.append_eq_nil_iff.1 none_
    rw [second.idle none_', first.idle none_]
  scopes := first.scopes.trans second.scopes
  frames := by
    intro other old differs
    rw [second.frames other (first.scopes.contains other old) differs,
      first.frames other old differs]

theorem Stops.after (first : cx.Adds env scope members fs cx')
    (second : cx'.Stops env scope members' failure cx'') :
    cx.Stops env scope (members ++ members') failure cx'' := by
  obtain ⟨done, failing, rest, fs', inner, before, rfl, adds, around, run⟩ := second
  exact ⟨members ++ done, failing, rest, fs ++ fs', inner, before,
    (List.append_assoc ..).symm, first.trans adds, around, run⟩

theorem Stops.extend (stops : cx.Stops env scope members failure cx') (more : List Member) :
    cx.Stops env scope (members ++ more) failure cx' := by
  obtain ⟨done, failing, rest, fs, inner, before, rfl, adds, around, run⟩ := stops
  exact ⟨done, failing, rest ++ more, fs, inner, before, by simp, adds, around, run⟩

/-- Members in a row. -/
theorem Ends.bind {first second : Lower Unit} (ends : cx.Ends env scope members (first cx))
    (next : ∀ fs cx', cx.Adds env scope members fs cx' →
      cx'.Ends env scope members' (second cx')) :
    cx.Ends env scope (members ++ members') ((first >>= fun _ => second) cx) := by
  rw [bind_run]
  cases run : first cx with
  | error failure cx' =>
    rw [run] at ends
    exact Stops.extend ends members'
  | ok u cx' =>
    rw [run] at ends
    obtain ⟨fs, adds⟩ := ends
    have rest := next fs cx' adds
    simp only []
    cases run' : second cx' with
    | error failure cx'' =>
      rw [run'] at rest
      exact Stops.after adds rest
    | ok u cx'' =>
      rw [run'] at rest
      obtain ⟨fs', adds'⟩ := rest
      exact ⟨_, adds.trans adds'⟩

/-! ## Functions and namespaces -/

/-- What an installed function does to the scopes. -/
theorem Installs.extends_ {decl : FunctionDecl} {f : Function}
    (installs : cx.Installs env scope decl f cx') : cx.scopes.Extends cx'.scopes :=
  (cx.scopes.extends_assign scope decl.name _).trans <| .of_frames fun other known => by
    apply installs.frames
    rw [ScopeTable.contains_iff] at known ⊢
    rwa [ScopeTable.assign, List.length_modify] at known

theorem Installs.adds {decl : FunctionDecl} {f : Function}
    (installs : cx.Installs env scope decl f cx') (sound : cx'.Sound) :
    cx.Adds env scope [⟨cx.scopes.namespacePath scope, decl⟩] [f] cx' where
  sound := sound
  made := .cons ⟨(mangle_ok.1 installs.linked).2, installs.body⟩ .nil
  functions := installs.functions
  globals := installs.globals
  idle := fun none_ => by cases none_
  scopes := installs.extends_
  frames := by
    intro other old differs
    rw [installs.frames other old, ScopeTable.frame?_assign]
    simp [Ne.symm differs]

/-- The scope of a namespace that is opened in another scope, and the context there. -/
def opened (cx : Context) (event : Event) (scope : ScopeId) (name : Symbol) :
    ScopeId × Context :=
  (cx.log event).enter scope (some name)

/-- A namespace that is opened is a scope, whose path ends in its name. -/
theorem Sound.opened (sound : cx.Sound) (inside : cx.scopes.contains scope) (event : Event)
    (name : Symbol) :
    (cx.opened event scope name).2.Sound ∧
      (cx.opened event scope name).2.scopes.contains (cx.opened event scope name).1 ∧
      (cx.opened event scope name).2.scopes.namespacePath (cx.opened event scope name).1 =
        cx.scopes.namespacePath scope ++ [name] :=
  ⟨((sound.restored (cx.restored_log event)).enter inside name).1,
    cx.scopes.contains_enter_new scope (some name),
    ScopeTable.namespacePath_enter sound.ordered inside name⟩

/-- What is done in a new scope is done in the scope around it, whose names it leaves alone. -/
theorem Adds.entered {event : Event} {name : Symbol}
    (adds : (cx.opened event scope name).2.Adds env (cx.opened event scope name).1 members fs
      cx') :
    cx.Adds env scope members fs cx' ∧
      ∀ other, cx.scopes.contains other → cx'.scopes.frame? other = cx.scopes.frame? other := by
  have extends_ : cx.scopes.Extends (cx.opened event scope name).2.scopes :=
    cx.scopes.extends_enter scope (some name)
  have frames : ∀ other, cx.scopes.contains other →
      cx'.scopes.frame? other = cx.scopes.frame? other := by
    intro other old
    have older : other.index ≠ cx.scopes.frames.length :=
      Nat.ne_of_lt (ScopeTable.contains_iff.1 old)
    rw [adds.frames other (extends_.contains other old) fun same =>
      older (congrArg ScopeId.index same)]
    exact (ScopeTable.frame?_enter _).trans (if_neg older)
  refine ⟨⟨adds.sound, adds.made, adds.functions, adds.globals, adds.idle,
    extends_.trans adds.scopes, fun other old _ => frames other old⟩, frames⟩

/-- A namespace that is filled is bound in the scope around it. -/
theorem Adds.bound (adds : cx.Adds env scope members fs cx') (name : Symbol) {inner : ScopeId}
    (named : (cx'.scopes.name? inner).isSome) :
    cx.Adds env scope members fs
      { cx' with scopes := cx'.scopes.assign scope name (some (.namespace_ inner)) } where
  sound := (adds.sound.bind scope name named).1
  made := adds.made
  functions := adds.functions
  globals := adds.globals
  idle := adds.idle
  scopes := adds.scopes.trans (cx'.scopes.extends_assign scope name _)
  frames := by
    intro other old differs
    rw [← adds.frames other old differs, ScopeTable.frame?_assign]
    simp [Ne.symm differs]

end Context

theorem lowerFunction_ends (env : Environment) (scope : ScopeId) (decl : FunctionDecl)
    (sound : cx.Sound) :
    cx.Ends env scope [⟨cx.scopes.namespacePath scope, decl⟩]
      (lowerFunction env scope decl cx) := by
  have leaves := lowerFunction_leaves env scope decl sound
  have next := lowerFunction_sound env scope decl sound
  cases run : lowerFunction env scope decl cx with
  | ok u cx' =>
    rw [run] at leaves next
    obtain ⟨f, installs⟩ := leaves
    exact ⟨[f], installs.adds next.1⟩
  | error failure cx' => exact ⟨[], _, [], [], scope, cx, rfl, .refl sound env scope, rfl, run⟩

/-- A namespace is bound when the work inside of it is done, and fails as that work fails. -/
theorem namespace_run (event : Event) (inside : cx.scopes.contains scope) (name : Symbol)
    (work : ScopeId → Lower Unit)
    (ends : (cx.opened event scope name).2.Ends env (cx.opened event scope name).1 members
      (work (cx.opened event scope name).1 (cx.opened event scope name).2)) :
    (do
      Lower.log event
      let inner ← Lower.enter scope (some name)
      work inner
      discard <| Lower.bind scope name (.namespace_ inner) : Lower Unit) cx =
      match work (cx.opened event scope name).1 (cx.opened event scope name).2 with
      | .ok () cx' => .ok () { cx' with
          scopes := cx'.scopes.assign scope name
            (some (.namespace_ (cx.opened event scope name).1)) }
      | .error failure cx' => .error failure cx' := by
  have entering : Lower.enter scope (some name) (cx.log event) =
      .ok (cx.opened event scope name).1 (cx.opened event scope name).2 :=
    Lower.enter_ok.2 ⟨inside, rfl, rfl⟩
  rw [bind_run, Lower.log_run]
  simp only []
  rw [bind_run, entering]
  simp only []
  rw [bind_run]
  cases run : work (cx.opened event scope name).1 (cx.opened event scope name).2 with
  | error failure cx' => rfl
  | ok u cx' =>
    rw [run] at ends
    obtain ⟨fs, adds⟩ := ends
    exact discard_ok.2
      ⟨_, Lower.bind_scope_ok.2 ⟨adds.entered.1.scopes.contains scope inside, rfl, rfl⟩⟩

/-- Work on the members of a namespace ends as the work inside of it. -/
theorem namespace_ends (event : Event) (inside : cx.scopes.contains scope)
    (name : Symbol) (work : ScopeId → Lower Unit)
    (ends : (cx.opened event scope name).2.Ends env (cx.opened event scope name).1 members
      (work (cx.opened event scope name).1 (cx.opened event scope name).2)) :
    cx.Ends env scope members ((do
      Lower.log event
      let inner ← Lower.enter scope (some name)
      work inner
      discard <| Lower.bind scope name (.namespace_ inner) : Lower Unit) cx) := by
  rw [namespace_run event inside name work ends]
  cases run : work (cx.opened event scope name).1 (cx.opened event scope name).2 with
  | error failure cx' =>
    rw [run] at ends
    obtain ⟨done, failing, rest, fs, inner, before, same, adds, stopped⟩ := ends
    exact ⟨done, failing, rest, fs, inner, before, same, adds.entered.1, stopped⟩
  | ok u cx' =>
    rw [run] at ends
    obtain ⟨fs, adds⟩ := ends
    have named : (cx'.scopes.name? (cx.opened event scope name).1).isSome := by
      have kept := adds.scopes.names _
        ((cx.log event).scopes.contains_enter_new scope (some name))
      exact Option.isSome_iff_exists.2
        ⟨name, kept.trans ((cx.log event).scopes.name?_enter_new scope (some name))⟩
    exact ⟨fs, adds.entered.1.bound name named⟩

mutual

/-- Every member of an item becomes a function, or one of them fails. -/
theorem lowerItem_ends (env : Environment) : ∀ (item : Item) (scope : ScopeId) (cx : Context),
    cx.Sound → cx.scopes.contains scope →
    cx.Ends env scope (item.members (cx.scopes.namespacePath scope)) (lowerItem env scope item cx)
  | .function decl, scope, cx, sound, _ => by
    rw [lowerItem]
    exact lowerFunction_ends env scope decl sound
  | .namespace_ name items span, scope, cx, sound, inside => by
    rw [lowerItem, Item.members]
    obtain ⟨sound', there, path⟩ := sound.opened inside (.namespaceEntered (env.name name)) name
    apply namespace_ends _ inside name (lowerItems env · items)
    rw [← path]
    exact lowerItems_ends env items _ _ sound' there
  | .class_ name span, scope, cx, sound, _ => by
    rw [lowerItem]
    exact ⟨[], .silent (sound.restored (cx.restored_warn _)) rfl rfl⟩
  | .interface name span, scope, cx, sound, _ => by
    rw [lowerItem]
    exact ⟨[], .silent (sound.restored (cx.restored_warn _)) rfl rfl⟩
  | .typeAlias name type span, scope, cx, sound, _ => by
    rw [lowerItem]
    exact ⟨[], .silent (sound.restored (cx.restored_warn _)) rfl rfl⟩

theorem lowerItems_ends (env : Environment) : ∀ (items : List Item) (scope : ScopeId)
    (cx : Context), cx.Sound → cx.scopes.contains scope →
    cx.Ends env scope (Item.allMembers (cx.scopes.namespacePath scope) items)
      (lowerItems env scope items cx)
  | [], scope, cx, sound, _ => by
    rw [lowerItems]
    exact ⟨[], .refl sound env scope⟩
  | item :: rest, scope, cx, sound, inside => by
    rw [lowerItems, Item.allMembers]
    refine .bind (lowerItem_ends env item scope cx sound inside) fun fs cx' adds => ?_
    rw [← adds.scopes.namespacePath sound.ordered inside]
    exact lowerItems_ends env rest scope cx' adds.sound (adds.scopes.contains scope inside)

end

/-! ## Names that are taken -/

theorem Context.Adds.names (adds : cx.Adds env scope members fs cx') :
    fs.map (·.name) = members.map (·.linkage env) := by
  have made := adds.made
  clear adds
  induction made with
  | nil => rfl
  | cons makes _ ih => rw [List.map_cons, List.map_cons, makes.name, ih]

/-- The names that are free are those that no function had and no member took. -/
theorem Context.Adds.functionNamed?_eq_none (sound : cx.Sound)
    (adds : cx.Adds env scope members fs cx') {n : String} :
    cx'.module.functionNamed? n = none ↔
      cx.module.functionNamed? n = none ∧ n ∉ members.map (·.linkage env) := by
  rw [Ir.Module.functionNamed?_eq_none adds.sound.indexed,
    Ir.Module.functionNamed?_eq_none sound.indexed, adds.functions, ← adds.names,
    List.forall_mem_append]
  refine and_congr Iff.rfl ⟨?_, ?_⟩
  · intro differs taken
    obtain ⟨f, member, same⟩ := List.mem_map.1 taken
    exact differs f member same
  · intro free f member same
    exact free (List.mem_map.2 ⟨f, member, same⟩)

/-- The module refuses a declaration only for a linkage name that is taken. -/
theorem declareFunction_build {decl : FunctionDecl} {cause : Ir.BuildError}
    (run : declareFunction env scope decl cx = .error (.refused (.build cause)) cx') :
    cause = .duplicateSymbol (env.linkage cx.scopes scope decl.name) ∧
      (cx.module.functionNamed? (env.linkage cx.scopes scope decl.name)).isSome := by
  rw [declareFunction, bind_error] at run
  rcases run with typed | ⟨signature, _, typed, run⟩
  · rw [Lower.lift_run] at typed
    cases signed : decl.signature? env.types env.symbols with
    | ok signature => rw [signed] at typed; cases typed
    | error failure => rw [signed] at typed; cases failure <;> cases typed
  obtain ⟨-, rfl⟩ := Lower.lift_ok.1 typed
  rw [bind_error] at run
  rcases run with required | ⟨_, _, required, run⟩
  · rw [Lower.requireScope_run] at required
    split at required <;> cases required
  obtain ⟨inside, rfl⟩ := Lower.requireScope_ok.1 required
  rw [bind_run, get_run, bind_error] at run
  rcases run with mangled | ⟨linkage, _, mangled, run⟩
  · rw [Lower.lift_run] at mangled
    split at mangled
    · cases mangled
    · rename_i failure unlinked
      cases failure with
      | refused cause => exact absurd unlinked mangle_reason
      | fault fault => cases mangled
  obtain ⟨linked, rfl⟩ := Lower.lift_ok.1 mangled
  rw [bind_run, Lower.log_run, bind_error] at run
  rcases run with taken | ⟨id, _, appended, run⟩
  · rw [Lower.onModule_run, Ir.Module.declare] at taken
    split at taken
    · cases taken
    · rename_i cause refused
      split at refused
      · cases refused
        cases taken
        rw [← (mangle_ok.1 linked).2]
        exact ⟨rfl, ‹_›⟩
      · cases refused
  rw [bind_error] at run
  rcases run with unbound | ⟨previous, _, bound, run⟩
  · rw [Lower.bind_scope_run] at unbound
    obtain ⟨module, -, rfl⟩ := Lower.onModule_ok.1 appended
    rw [if_pos (by exact inside)] at unbound
    cases unbound
  · cases run

/-- The builder refuses a function for its linkage name, if that is taken, or for a variable in
its body whose type has no values. -/
theorem lowerFunction_build (sound : cx.Sound) {decl : FunctionDecl} {cause : Ir.BuildError}
    (run : lowerFunction env scope decl cx = .error (.refused (.build cause)) cx') :
    (cause = .duplicateSymbol (env.linkage cx.scopes scope decl.name) ∧
      (cx.module.functionNamed? (env.linkage cx.scopes scope decl.name)).isSome) ∨
    ∃ signature linkage body ty, Header env scope decl cx signature linkage ∧
      decl.body = some body ∧
      Stmt.AnyVariables env.types signature.ret
        (((cx.begun scope decl.name (.declare linkage signature)).names scope).bindParams
          decl.params signature.params) body.stmts ty ∧
      ty.isSized = false ∧ cause = .invalidType "alloca" ty := by
  have outcome : FunctionOutcome env scope decl cx (lowerFunction env scope decl cx) :=
    lowerFunction_outcome sound
  rw [run] at outcome
  cases outcome with
  | unheaded none_ other kept =>
    left
    rw [lowerFunction_eq, bind_run] at run
    cases stage : declareFunction env scope decl cx with
    | error failure after =>
      rw [stage] at run
      cases run
      exact declareFunction_build stage
    | ok declared after =>
      obtain ⟨signature, header, -⟩ := declareFunction_ok stage
      exact absurd header (none_ signature _)
  | @refused signature linkage body _ t header present build =>
    right
    rcases (building_blames sound header build).2.1 with source | ⟨ty, introduced, unsized, same⟩
    · cases source
    · cases same
      exact ⟨signature, linkage, body, ty, header, present, introduced, unsized, rfl⟩

/-- A function is refused for a name that is taken only where its own linkage name is. -/
theorem lowerFunction_duplicate (sound : cx.Sound) {decl : FunctionDecl} {n : String}
    (run : lowerFunction env scope decl cx =
      .error (.refused (.build (.duplicateSymbol n))) cx') :
    n = env.linkage cx.scopes scope decl.name ∧ (cx.module.functionNamed? n).isSome := by
  rcases lowerFunction_build sound run with ⟨same, taken⟩ | ⟨_, _, _, _, _, _, _, _, other⟩
  · cases same
    exact ⟨rfl, taken⟩
  · cases other

/-! ## Namespaces that fail -/

/-- What is left when an item failed at one of its members, the functions `fs` of the members
before it. -/
structure Context.Keeps (cx : Context) (env : Environment) (scope : ScopeId) (item : Item)
    (failure : Failure LowerError) (done : List Member) (failing : Member) (fs : List Function)
    (cx' : Context) : Prop where
  listed : ∃ rest, item.members (cx.scopes.namespacePath scope) = done ++ failing :: rest
  made : List.Forall₂ (·.Makes env) done fs
  functions : cx'.module.functions = cx.module.functions ++ fs
  globals : cx.module.globals <+: cx'.module.globals
  idle : done = [] → cx'.module = cx.module
  names : ∀ n, cx'.module.functionNamed? n = none ↔
    cx.module.functionNamed? n = none ∧ n ∉ done.map (·.linkage env)
  frames : ∀ other, cx.scopes.contains other → cx'.scopes.frame? other = cx.scopes.frame? other
  failed : ∃ inner before, before.module = cx'.module ∧
    before.scopes.namespacePath inner = failing.around ∧
    lowerFunction env inner failing.decl before = .error failure cx'

/-- The linkage name of a function that is refused for a taken name was taken before the
members or by one of them. -/
theorem Context.Stops.duplicate (sound : cx.Sound) {n : String}
    (stops : cx.Stops env scope members (.refused (.build (.duplicateSymbol n))) cx') :
    (cx.module.functionNamed? n).isSome ∨ 2 ≤ (members.map (·.linkage env)).count n := by
  obtain ⟨done, failing, rest, fs, inner, before, rfl, adds, around, run⟩ := stops
  obtain ⟨named, taken⟩ := lowerFunction_duplicate adds.sound run
  have last : n = failing.linkage env := by
    rw [named, Environment.linkage, around]
    rfl
  by_cases free : cx.module.functionNamed? n = none
  · right
    have among : n ∈ done.map (·.linkage env) := by
      by_contra absent
      rw [(adds.functionNamed?_eq_none sound).2 ⟨free, absent⟩] at taken
      cases taken
    have once := List.count_pos_iff.2 among
    rw [List.map_append, List.map_cons, List.count_append, ← last, List.count_cons_self]
    omega
  · left
    exact Option.isSome_iff_ne_none.2 free

/-- Inside of a namespace the members before a failure are kept, and around it nothing else. -/
theorem Context.Stops.keeps (sound : cx.Sound) {event : Event} {name : Symbol}
    {items : List Item} (span : FileSpan)
    (stops : (cx.opened event scope name).2.Stops env (cx.opened event scope name).1
      (Item.allMembers (cx.scopes.namespacePath scope ++ [name]) items) failure cx') :
    cx'.Sound ∧ ∃ done failing fs,
      cx.Keeps env scope (.namespace_ name items span) failure done failing fs cx' := by
  obtain ⟨done, failing, rest, fs, inner, before, listed, adds, around, failed⟩ := stops
  obtain ⟨outer, frames⟩ := adds.entered
  have unchanged := lowerFunction_leaves env inner failing.decl adds.sound
  have next := lowerFunction_sound env inner failing.decl adds.sound
  rw [failed] at unchanged next
  refine ⟨next.1, done, failing, fs, ?_⟩
  exact {
    listed := ⟨rest, listed⟩
    made := adds.made
    functions := by rw [unchanged.module, outer.functions]
    globals := unchanged.module ▸ outer.globals
    idle := fun none_ => by rw [unchanged.module, outer.idle none_]
    names := fun n => by
      rw [unchanged.module]
      exact outer.functionNamed?_eq_none sound
    frames := fun other old =>
      (unchanged.frames other (outer.scopes.contains other old)).trans (frames other old)
    failed := ⟨inner, before, unchanged.module.symm, around, failed⟩ }

/-- A namespace `y` with `f`, which is fine. -/
def Sample.mended : Item := .namespace_ ⟨2⟩ [.function double] .unplaced

/-- The same with another function behind it, where nothing is called `y`. -/
def Sample.halfway : Item :=
  .namespace_ ⟨2⟩ [.function double,
    .function { function [.ret (some y) .unplaced] with name := ⟨1⟩ }] .unplaced

/-- The cause for which work is refused. -/
def Lower.refusal? (work : Lower Unit) (cx : Context) : Option LowerError :=
  match work cx with
  | .error (.refused cause) _ => some cause
  | _ => none

theorem Lower.refused_of_refusal {work : Lower Unit} {cause : LowerError}
    (refusal : work.refusal? cx = some cause) :
    work cx = .error (.refused cause) (work.after cx) := by
  unfold Lower.refusal? at refusal
  split at refusal
  · rename_i run
    cases refusal
    rw [run, Lower.after_error run]
  · cases refusal

end SsaLowering
