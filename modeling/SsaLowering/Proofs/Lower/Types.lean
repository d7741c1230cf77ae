/-
# SsaLowering.Proofs.Lower.Types -- where the types in lowered code come from

Lowering makes no types of its own.  Those in a function that it leaves are images of source
types, the type of strings, or types without parts (`TypeMapping.Supplies`).  A typed
expression stands for such a type wherever the names in it do (`Expr.typing_supplied`), so
the variables that a body reserves have one (`BodyState.Supplied`).  The rest of a function
follows: it reads variables at the types that they hold, and every other value is a
parameter, the result of a call, a sum or an address (`Run.supplied`).
-/
import SsaLowering.Proofs.Ir.ListedTypes
import SsaLowering.Proofs.Ir.Soundness
import SsaLowering.Proofs.Lower.Operands
import SsaLowering.Proofs.Lower.Traffic

namespace SsaLowering

set_option autoImplicit false

open Ir (Ty FunctionTy Module Function Builder BlockId Operand Instruction)

/-- The types that code under a type mapping can have. -/
inductive TypeMapping.Supplies (types : TypeMapping) : Ty → Prop
  | image {source : TypeRef} {ty : Ty} (resolved : types.resolve source = .ok ty) :
      Supplies types ty
  | string : Supplies types types.stringTy
  | plain {ty : Ty} (plain : ty.isPlain = true) : Supplies types ty

/-! ## Types in the typing judgement -/

/-- What is read or returned has a type that the mapping supplies. -/
def ValueKind.Supplied (types : TypeMapping) : ValueKind → Prop
  | .immutable ty | .mutable ty => types.Supplies ty
  | .function signature => types.Supplies signature.ret

structure Names.Supplied (types : TypeMapping) (names : Names) : Prop where
  values : ∀ x kind, names x = some (.value kind) → kind.Supplied types
  members : ∀ x members, names x = some (.namespace_ members) →
    ∀ y kind, members y = some kind → kind.Supplied types

variable {types : TypeMapping} {names : Names}

namespace ValueKind.Supplied

variable {kind : ValueKind} (supplied : kind.Supplied types)
include supplied

theorem ty : types.Supplies kind.ty := by
  cases kind with
  | function signature => exact .plain rfl
  | _ => exact supplied

theorem read : kind.read.Supplied types := by
  cases kind <;> exact supplied

end ValueKind.Supplied

theorem stringTyping_supplied {text : String} {kind : ValueKind}
    (typed : stringTyping types text = some kind) : kind.Supplied types := by
  unfold stringTyping at typed
  split at typed
  · split at typed
    · cases typed
      exact .string
    · cases typed
  · cases typed

/-- An expression stands for what the names in it do, or for a type of the language. -/
theorem Expr.typing_supplied (supplied : names.Supplied types) : ∀ (expr : Expr)
    {kind : ValueKind}, expr.typing types names = some kind → kind.Supplied types
  | .identifier name span, kind, typed => by
    rw [Expr.typing, Names.value?] at typed
    split at typed
    · cases typed
      exact supplied.values _ _ ‹_›
    · cases typed
  | .member object property span, kind, typed => by
    rw [Expr.typing] at typed
    unfold Names.member? at typed
    split at typed
    · split at typed
      · exact supplied.members _ _ ‹_› _ _ typed
      · cases typed
    · cases typed
  | .call callee args span, kind, typed => by
    rw [Expr.typing] at typed
    obtain ⟨target, known, typed⟩ := Option.bind_eq_some_iff.1 typed
    obtain ⟨signature, called, typed⟩ := Option.bind_eq_some_iff.1 typed
    have callable := Expr.typing_supplied supplied callee known
    cases target with
    | function own =>
      simp only [ValueKind.call, Option.ite_none_right_eq_some, Option.some.injEq] at called
      obtain ⟨-, rfl⟩ := called
      split at typed
      · cases typed
      · cases typed
        exact callable
    | _ => cases called
  | .binary op lhs rhs span, kind, typed => by
    cases op with
    | assign =>
      rw [Expr.typing] at typed
      obtain ⟨target, -, typed⟩ := Option.bind_eq_some_iff.1 typed
      obtain ⟨stored, known, typed⟩ := Option.bind_eq_some_iff.1 typed
      cases target with
      | mutable ty =>
        simp only [ValueKind.assign, Option.ite_none_right_eq_some, Option.some.injEq] at typed
        obtain ⟨-, rfl⟩ := typed
        exact (Expr.typing_supplied supplied rhs known).read
      | _ => cases typed
    | add =>
      rw [Expr.typing] at typed
      obtain ⟨left, -, typed⟩ := Option.bind_eq_some_iff.1 typed
      obtain ⟨right, -, typed⟩ := Option.bind_eq_some_iff.1 typed
      simp only [ValueKind.add, Option.ite_none_right_eq_some, Option.some.injEq] at typed
      obtain ⟨-, rfl⟩ := typed
      exact .plain rfl
    | _ =>
      rw [Expr.typing] at typed
      · cases typed
      all_goals simp
  | .bool value span, kind, typed | .number value span, kind, typed => by
    rw [Expr.typing] at typed
    cases typed
    exact .plain rfl
  | .string value span, kind, typed => by
    rw [Expr.typing] at typed
    exact stringTyping_supplied typed
  | .unary op operand span, kind, typed | .null span, kind, typed
  | .array elements span, kind, typed | .index object position span, kind, typed => by
    rw [Expr.typing] at typed
    · cases typed
    all_goals simp

theorem Declarator.initial?_supplied (supplied : names.Supplied types) {declared : Option Ty}
    {decl : Declarator} {kind : ValueKind}
    (typed : decl.initial? types names declared = some (some kind)) : kind.Supplied types := by
  unfold Declarator.initial? at typed
  split at typed
  · cases typed
  · rw [initTyping, Option.map_eq_some_iff] at typed
    obtain ⟨kind', typed, same⟩ := typed
    cases same
    obtain ⟨found, known, typed⟩ := Option.bind_eq_some_iff.1 typed
    simp only [Option.ite_none_right_eq_some, Option.some.injEq] at typed
    obtain ⟨-, rfl⟩ := typed
    exact (Expr.typing_supplied supplied _ known).read

theorem Declarator.declared?_supplied {decl : Declarator} {ty : Ty}
    (typed : decl.declared? types = some (some ty)) : types.Supplies ty := by
  unfold Declarator.declared? at typed
  split at typed
  · cases typed
  · obtain ⟨image, resolved, same⟩ := Option.map_eq_some_iff.1 typed
    cases same
    exact .image (except_toOption_some.1 resolved)

/-- A declarator binds its name to an initial value or to a variable. -/
theorem Declarator.typing_supplied (supplied : names.Supplied types) {kind : BindingKind}
    {decl : Declarator} {names' : Names} (typed : decl.typing types kind names = some names') :
    ∃ bound, names' = names.bind decl.name bound ∧ bound.Supplied types := by
  unfold Declarator.typing at typed
  obtain ⟨declared, image, typed⟩ := Option.bind_eq_some_iff.1 typed
  obtain ⟨init, initial, typed⟩ := Option.bind_eq_some_iff.1 typed
  obtain ⟨bound, binds, same⟩ := Option.bind_eq_some_iff.1 typed
  refine ⟨bound, (Option.some.inj same).symm, ?_⟩
  unfold BindingKind.typing at binds
  split at binds
  · unfold variableTyping at binds
    obtain ⟨ty, chosen, binds⟩ := Option.bind_eq_some_iff.1 binds
    simp only [Option.ite_none_right_eq_some, Option.some.injEq] at binds
    obtain ⟨-, rfl⟩ := binds
    cases declared with
    | some own =>
      cases chosen
      exact Declarator.declared?_supplied image
    | none =>
      obtain ⟨kind, rfl, rfl⟩ := Option.map_eq_some_iff.1 chosen
      exact (Declarator.initial?_supplied supplied initial).ty
  · subst binds
    exact Declarator.initial?_supplied supplied initial

/-! ## Bodies under construction -/

theorem BoundValue.nameKind?_value {m : Module} {table : ScopeTable} {f : Function}
    {bound : BoundValue} {kind : ValueKind}
    (known : bound.nameKind? m table f = some (.value kind)) :
    bound.valueKind? m f = some kind := by
  cases bound with
  | direct operand =>
    obtain ⟨kind', stands, same⟩ := Option.map_eq_some_iff.1 known
    cases same
    exact stands
  | slot home =>
    cases known
    rfl
  | namespace_ inner => cases known

theorem BoundValue.nameKind?_namespace {m : Module} {table : ScopeTable} {f : Function}
    {bound : BoundValue} {members : Symbol → Option ValueKind}
    (known : bound.nameKind? m table f = some (.namespace_ members)) :
    ∃ inner, bound = .namespace_ inner ∧
      members = fun x => (table.lookupIn inner x).bind (valueKind? m f) := by
  cases bound with
  | direct operand =>
    obtain ⟨kind, -, same⟩ := Option.map_eq_some_iff.1 known
    cases same
  | slot home => cases known
  | namespace_ inner =>
    cases known
    exact ⟨inner, rfl, rfl⟩

variable {s t u : BodyState} {scope : ScopeId} {env : Environment}

/-- Behind code that reserves no slot there are the slots of before. -/
theorem Ir.Builder.Open.slot_of_push {b : Builder} {block : BlockId} (selected : b.Open block)
    {action : Ir.Action} (effect : action.isAlloca = false) {ty : Option Ty} {inst : Instruction}
    (member : inst ∈ (b.function.push block action ty).instructions)
    (reserves : inst.action.isAlloca = true) : inst ∈ b.function.instructions := by
  obtain ⟨-, data, known, -⟩ := selected
  rcases List.mem_append.1 ((Function.instructions_push known action ty).mem_iff.1 member) with
    old | new
  · exact old
  · rw [List.mem_singleton.1 new, effect] at reserves
    cases reserves

theorem Ir.Builder.Emits.slot_of_mem {m : Module} {given : Ir.ValueId → Prop} {b c : Builder}
    (emits : Builder.Emits m given b c) {inst : Instruction}
    (member : inst ∈ c.function.instructions) (reserves : inst.action.isAlloca = true) :
    inst ∈ b.function.instructions := by
  induction emits with
  | refl => exact member
  | push _ selected effect _ _ ih => exact ih (selected.slot_of_push effect member reserves)

namespace BodyState

/-- What is bound to names, and what is reserved for variables, has types that the mapping
supplies. -/
structure Supplied (types : TypeMapping) (s : BodyState) : Prop where
  slots : ∀ inst ∈ s.builder.function.instructions, ∀ ty, inst.action = .alloca ty →
    types.Supplies ty
  names : ∀ other x bound kind, s.context.scopes.lookupIn other x = some bound →
    bound.valueKind? s.context.module s.builder.function = some kind → kind.Supplied types

/-- The names that are visible in a scope. -/
theorem Supplied.visible (supplied : s.Supplied types) (scope : ScopeId) :
    (s.names scope).Supplied types where
  values := by
    intro x kind known
    obtain ⟨bound, found, known⟩ := Option.bind_eq_some_iff.1 known
    obtain ⟨home, -, here⟩ := ScopeTable.lookupIn_of_resolve found
    exact supplied.names home x bound kind here (BoundValue.nameKind?_value known)
  members := by
    intro x members known y kind member
    obtain ⟨bound, -, known⟩ := Option.bind_eq_some_iff.1 known
    obtain ⟨inner, rfl, rfl⟩ := BoundValue.nameKind?_namespace known
    obtain ⟨bound, here, stands⟩ := Option.bind_eq_some_iff.1 member
    exact supplied.names inner y bound kind here stands

/-- A later state, in which new variables and new bindings have such types too. -/
theorem Supplied.later (supplied : s.Supplied types) (sound : s.Sound)
    (functions : t.context.module.functions = s.context.module.functions)
    (grown : s.builder.function.Extends t.builder.function)
    (slots : ∀ inst ∈ t.builder.function.instructions, ∀ ty, inst.action = .alloca ty →
      inst ∈ s.builder.function.instructions ∨ types.Supplies ty)
    (names : ∀ other x bound, t.context.scopes.lookupIn other x = some bound →
      s.context.scopes.lookupIn other x = some bound ∨
        ∀ kind, bound.valueKind? t.context.module t.builder.function = some kind →
          kind.Supplied types) : t.Supplied types where
  slots := by
    intro inst member ty reserves
    rcases slots inst member ty reserves with old | new
    · exact supplied.slots inst old ty reserves
    · exact new
  names := by
    intro other x bound kind here stands
    rcases names other x bound here with before | new
    · rw [(sound.valid other x bound before).valueKind?_mono functions grown] at stands
      exact supplied.names other x bound kind before stands
    · exact new kind stands

/-- Work that adds neither a variable nor a binding. -/
theorem Supplied.keep (supplied : s.Supplied types) (sound : s.Sound)
    (functions : t.context.module.functions = s.context.module.functions)
    (grown : s.builder.function.Extends t.builder.function)
    (instructions : t.builder.function.instructions = s.builder.function.instructions)
    (names : ∀ other x bound, t.context.scopes.lookupIn other x = some bound →
      s.context.scopes.lookupIn other x = some bound) : t.Supplied types :=
  supplied.later sound functions grown (fun _ member _ _ => Or.inl (instructions ▸ member))
    fun other x bound here => Or.inl (names other x bound here)

theorem Emits.supplied (emits : s.Emits t) (sound : s.Sound) (supplied : s.Supplied types) :
    t.Supplied types := by
  refine supplied.later sound emits.functions emits.builder.function ?_ ?_
  · intro inst member ty reserves
    exact Or.inl (emits.builder.slot_of_mem member (by rw [reserves]; rfl))
  · intro other x bound here
    rw [emits.scopes] at here
    exact Or.inl here

theorem Supplied.leave (supplied : s.Supplied types) (sound : s.Sound) (scope : ScopeId) :
    (s.leave scope).Supplied types := by
  refine supplied.keep sound rfl (.refl _) rfl fun other x bound here => ?_
  simp only [BodyState.leave, ScopeTable.lookupIn_discard] at here
  split at here
  · cases here
  · exact here

theorem Supplied.entered (supplied : s.Supplied types) (sound : s.Sound) (scope : ScopeId) :
    (s.entered scope).Supplied types :=
  supplied.keep sound rfl (.refl _) rfl fun other x _ here =>
    s.lookupIn_entered scope other x ▸ here

/-- The end of the current block. -/
theorem Supplied.closed (supplied : s.Supplied types) (sound : s.Sound) {block : BlockId}
    (selected : s.builder.Open block) (terminator : Ir.Terminator) :
    (s.rebuilt (s.builder.closed block terminator)).Supplied types :=
  supplied.keep sound rfl (selected.advances_closed terminator).function
    (Function.instructions_close _ _ _) fun _ _ _ here => here

theorem Supplied.fork (supplied : s.Supplied types) (sound : s.Sound) {block : BlockId}
    (selected : s.builder.Open block) (cond : Operand) (next : BlockId) :
    ((s.fork block cond).at_ next).Supplied types :=
  supplied.keep sound rfl (selected.extends_fork cond) (s.builder.instructions_fork block cond)
    fun _ _ _ here => here

theorem Falls.supplied {next : BlockId} (falls : s.Falls next t) (sound : s.Sound)
    (supplied : s.Supplied types) : t.Supplied types := by
  cases falls with
  | ended ended => exact supplied
  | jumped selected checked => exact supplied.closed sound selected _

theorem Supplied.at_ (supplied : s.Supplied types) (block : BlockId) :
    (s.at_ block).Supplied types :=
  ⟨supplied.slots, supplied.names⟩

/-- A name stands for what it has been bound to last. -/
theorem valueKind?_bound (inside : s.context.scopes.contains scope) {name : Symbol}
    {value : BoundValue} {kind : ValueKind}
    (known : (s.bound scope name value).names scope name = some (.value kind)) :
    value.valueKind? s.context.module s.builder.function = some kind := by
  have found : (s.bound scope name value).context.scopes.resolve scope name = some value :=
    (ScopeTable.resolve_assign inside value).trans (if_pos rfl)
  rw [BodyState.names, found, Option.bind_some] at known
  exact BoundValue.nameKind?_value known

/-- A new binding of a name. -/
theorem Supplied.bound (supplied : s.Supplied types) {name : Symbol} {value : BoundValue}
    {kind : ValueKind} (stands : value.valueKind? s.context.module s.builder.function = some kind)
    (new : kind.Supplied types) : (s.bound scope name value).Supplied types where
  slots := supplied.slots
  names := by
    intro other x found kind' here stands'
    simp only [BodyState.bound, ScopeTable.lookupIn_assign] at here
    split at here
    · cases here
      cases stands.symm.trans stands'
      exact new
    · exact supplied.names other x found kind' here stands'

/-- A slot for a variable. -/
theorem Supplied.withSlot (supplied : s.Supplied types) (local_ : s.Local scope) {ty : Ty}
    (new : types.Supplies ty) (name : String) : (s.withSlot ty name).Supplied types := by
  refine supplied.later local_.sound rfl (Function.extends_reserve _ _ _) ?_
    fun _ _ _ here => Or.inl here
  intro inst member ty' reserves
  rcases List.mem_append.1 ((withSlot_instructions local_ ty name).mem_iff.1 member) with
    old | added
  · exact Or.inl old
  · rw [List.mem_singleton.1 added] at reserves
    cases reserves
    exact Or.inr new

/-- Code that reserves no slot. -/
theorem Supplied.push (supplied : s.Supplied types) (sound : s.Sound) {block : BlockId}
    (selected : s.builder.Open block) {action : Ir.Action} (effect : action.isAlloca = false)
    (ty : Option Ty) : (s.push block action ty).Supplied types := by
  refine supplied.later sound rfl (Ir.Builder.extends_push_open selected action ty) ?_
    fun _ _ _ here => Or.inl here
  intro inst member ty' reserves
  exact Or.inl (selected.slot_of_push effect member (by rw [reserves]; rfl))

/-- A declarator reserves a variable of the type for which its name stands. -/
theorem Declares.supplied {decl : Declarator} {mutability : Bool}
    (declares : s.Declares env scope decl mutability t) (local_ : s.Local scope)
    (supplied : s.Supplied types) {kind : ValueKind}
    (known : t.names scope decl.name = some (.value kind)) (new : kind.Supplied types) :
    t.Supplied types := by
  cases declares with
  | @constant expr operand u b init run grown ok current blocks =>
    have emits := (evaluate_stands local_.toReady run).1
    have named : (u.rebuilt b).Supplied types :=
      (emits.supplied local_.sound supplied).keep (emits.sound local_.sound) rfl grown
        (by rw [Function.instructions, Function.instructions]; exact congrArg _ blocks)
        fun _ _ _ here => here
    have inside : (u.rebuilt b).context.scopes.contains scope := (emits.local local_).inside
    exact named.bound (valueKind?_bound inside known) new
  | @blank ty init sized =>
    have stands := valueKind?_bound (s := s.withSlot ty _) local_.inside known
    cases stands
    exact (supplied.withSlot local_ new _).bound rfl new
  | @stored expr operand u ty block init run sized selected checked =>
    have emits := (evaluate_stands local_.toReady run).1
    have local' := emits.local local_
    have stands := valueKind?_bound (s := (u.withSlot ty _).push block _ none) local'.inside known
    cases stands
    have slotted := (emits.supplied local_.sound supplied).withSlot local' new (env.name decl.name)
    have sound := (local'.after_withSlot sized (env.name decl.name)).sound
    exact (slotted.push sound selected rfl _).bound rfl new

end BodyState

/-! ## Statements -/

theorem declarators_supplied (kind : BindingKind) : ∀ {decls : List Declarator}
    {s t : BodyState}, s.Local scope → s.Supplied env.types →
      decls.forM (lowerDeclarator env scope kind) s = .ok () t → t.Supplied env.types
  | [], s, t, _, supplied, run => by
    cases run
    exact supplied
  | decl :: rest, s, t, local_, supplied, run => by
    obtain ⟨u, first, run⟩ := declarators_cons_ok run
    obtain ⟨names, typed, done, after⟩ :=
      (lowerDeclarator_foretold env kind local_ decl).of_ok first
    obtain ⟨bound, same, new⟩ := Declarator.typing_supplied (supplied.visible scope) typed
    have known : u.names scope decl.name = some (.value bound) := by
      rw [after.names, same, Names.bind, if_pos rfl]
    exact declarators_supplied kind (after.local local_ done.1)
      ((lowerDeclarator_ok local_ first).supplied local_ supplied known new) run

theorem lowerReturn_supplied (ready : s.Ready scope) (supplied : s.Supplied types)
    {value : Option Expr} {span : FileSpan} (run : lowerReturn env scope value span s = .ok () t) :
    t.Supplied types := by
  obtain ⟨u, operand, block, selected, -, rfl, returns⟩ := lowerReturn_ok run
  have emits := returns.emits ready
  exact (emits.supplied ready.sound supplied).closed (emits.sound ready.sound) selected _

theorem skip_supplied (supplied : s.Supplied types) {kind : SyntaxKind} {span : FileSpan}
    (run : skip kind span s = .ok () t) : t.Supplied types := by
  obtain rfl := skip_ok run
  exact ⟨supplied.slots, supplied.names⟩

mutual

/-- Statements reserve variables and bind names at types that the mapping supplies. -/
theorem lowerStmt_supplied (env : Environment) : ∀ (stmt : Stmt) {scope : ScopeId}
    {s t : BodyState}, s.Local scope → s.Supplied env.types →
      lowerStmt env scope stmt s = .ok () t → t.Supplied env.types
  | .block stmts span, scope, s, t, local_, supplied, run => by
    obtain ⟨u, inner, rfl⟩ := block_ok local_.inside run
    obtain ⟨names, -, -, after⟩ :=
      (lowerStmts_foretold env stmts s.home _ local_.entered).of_ok inner
    have within := lowerStmts_supplied env stmts local_.entered
      (supplied.entered local_.sound scope) inner
    exact within.leave after.sound s.home
  | .expression expr span, scope, s, t, local_, supplied, run =>
    (expressionStatement_emits local_.toReady run).supplied local_.sound supplied
  | .ifElse condition thenBranch elseBranch span, scope, s, t, local_, supplied, run => by
    obtain ⟨cond, block, u, v, v', w, w', forks⟩ := ifElse_ok local_ run
    have tested := forks.emits.supplied local_.sound supplied
    have forked := tested.fork (forks.emits.sound local_.sound) forks.selected cond ⟨u.next⟩
    have first := lowerStmt_supplied env thenBranch forks.thenLocal forked forks.thenRun
    have fallen := forks.thenFalls.supplied forks.thenSound first
    have second := lowerOptional_supplied env elseBranch forks.elseLocal (fallen.at_ _)
      forks.elseRun
    rw [forks.last]
    exact (forks.elseFalls.supplied forks.elseSound second).at_ _
  | .ret value span, scope, s, t, local_, supplied, run => by
    rw [lowerStmt] at run
    exact lowerReturn_supplied local_.toReady supplied run
  | .vars kind declarators span, scope, s, t, local_, supplied, run => by
    rw [lowerStmt] at run
    exact declarators_supplied kind local_ supplied run
  | .whileLoop .., _, _, _, _, supplied, run | .breakLoop .., _, _, _, _, supplied, run
  | .continueLoop .., _, _, _, _, supplied, run | .empty .., _, _, _, _, supplied, run => by
    rw [lowerStmt] at run
    exact skip_supplied supplied run

theorem lowerOptional_supplied (env : Environment) : ∀ (stmt : Option Stmt) {scope : ScopeId}
    {s t : BodyState}, s.Local scope → s.Supplied env.types →
      lowerOptional env scope stmt s = .ok () t → t.Supplied env.types
  | none, scope, s, t, _, supplied, run => by
    rw [lowerOptional] at run
    cases run
    exact supplied
  | some stmt, scope, s, t, local_, supplied, run => by
    rw [lowerOptional] at run
    exact lowerStmt_supplied env stmt local_ supplied run

theorem lowerStmts_supplied (env : Environment) : ∀ (stmts : List Stmt) {scope : ScopeId}
    {s t : BodyState}, s.Local scope → s.Supplied env.types →
      lowerStmts env scope stmts s = .ok () t → t.Supplied env.types
  | [], scope, s, t, _, supplied, run => by
    rw [lowerStmts] at run
    cases run
    exact supplied
  | stmt :: rest, scope, s, t, local_, supplied, run => by
    obtain ⟨u, first, onward⟩ := lowerStmts_cons_cases local_ run
    have behind := lowerStmt_supplied env stmt local_ supplied first
    rcases onward with ⟨-, -, journal, rfl⟩ | ⟨-, local', run⟩
    · exact ⟨behind.slots, behind.names⟩
    · exact lowerStmts_supplied env rest local' behind run

end

/-! ## Whole bodies -/

theorem BodyState.Sealed.supplied {span : FileSpan} (sealed : s.Sealed span t) (sound : s.Sound)
    (supplied : s.Supplied types) : t.Supplied types := by
  cases sealed with
  | ended ended => exact supplied
  | fell selected context =>
    have closed := supplied.closed sound selected s.builder.fallOff
    rcases context with rfl | rfl <;> exact ⟨closed.slots, closed.names⟩

/-- At the start of a body its parameters have been bound. -/
theorem BodyState.Starts.supplied {params : List Param} {tys : List Ty}
    (starts : s.Starts scope params tys t) (sound : s.Sound) (supplied : s.Supplied types)
    (declared : ∀ ty ∈ s.builder.function.ty.params, types.Supplies ty) : t.Supplied types := by
  have module : t.context.module = s.context.module := by rw [starts.context]; rfl
  refine supplied.later sound (congrArg _ module) starts.function ?_ fun other x bound here => ?_
  · obtain ⟨label, entry⟩ := starts.entry
    rw [Function.instructions, entry]
    intro inst member
    cases member
  · refine (starts.lookupIn here).imp_right ?_
    rintro ⟨id, param, rfl⟩ kind stands
    have ok := starts.local_.sound.function
    rw [← starts.function.params, ok.params, List.mem_map] at param
    obtain ⟨i, bound, rfl⟩ := param
    rw [List.mem_range] at bound
    obtain ⟨name, known⟩ := ok.paramValue i _ (List.getElem?_eq_getElem bound)
    obtain ⟨data, known', same⟩ := Option.map_eq_some_iff.1 stands
    cases known.symm.trans known'
    cases same
    exact declared _ (starts.function.ty ▸ List.getElem_mem bound)

/-- A body that is built reserves its variables at types that the mapping supplies. -/
theorem buildBody_supplied {decl : FunctionDecl} {ty : FunctionTy} {stmts : List Stmt}
    (declared : s.Declared scope ty) (count : decl.params.length = ty.params.length)
    (supplied : s.Supplied env.types) (params : ∀ param ∈ ty.params, env.types.Supplies param)
    (run : buildBody env scope decl stmts s = .ok () t) : t.Supplied env.types := by
  obtain ⟨p, q, starts, body, sealed⟩ := buildBody_ok declared count run
  have begun := starts.supplied declared.sound supplied (declared.signature ▸ params)
  obtain ⟨names, -, done, after⟩ :=
    (lowerStmts_foretold env stmts s.home p starts.local_).of_ok body
  have lowered := lowerStmts_supplied env stmts starts.local_ begun body
  have sound : (q.leave s.home).Sound :=
    (declared.sound.leave declared.inside
      ⟨starts.grows.trans done.1, starts.function.trans done.2⟩ after.sound.function).2.1
  exact sealed.supplied sound (lowered.leave after.sound s.home)

/-! ## Functions -/

/-- A value that is no parameter has the type of a slot that is read, that of a call, or one
without parts. -/
theorem Ir.Function.result_of_checkAction {f : Function} {signature : Option FunctionTy}
    {action : Ir.Action} {ty : Ty} (checked : f.checkAction signature action = .ok (some ty)) :
    ty.isPlain = true ∨ (∃ ptr, action = .load ty ptr) ∨
      ∃ callee args called, action = .call callee args ∧ signature = some called ∧
        ty = called.ret := by
  cases action with
  | alloca slot =>
    simp only [Function.checkAction, except_seq_ok, except_pure_ok] at checked
    cases checked.2
    exact Or.inl rfl
  | load read ptr =>
    simp only [Function.checkAction, except_seq_ok, except_pure_ok] at checked
    cases checked.2.2.2
    exact Or.inr (Or.inl ⟨ptr, rfl⟩)
  | store value ptr =>
    simp only [Function.checkAction, except_bind_ok, except_pure_ok] at checked
    obtain ⟨_, _, _, _, _, _, _, _, absent⟩ := checked
    cases absent
  | fadd lhs rhs =>
    simp only [Function.checkAction, except_seq_ok, except_pure_ok] at checked
    cases checked.2.2
    exact Or.inl rfl
  | call callee args =>
    obtain ⟨called, known, result⟩ := Module.checkAction_call_ok checked
    unfold Module.resultTy at result
    split at result
    · cases result
    · cases result
      exact Or.inr (Or.inr ⟨callee, args, called, rfl, known, rfl⟩)

/-- A function whose variables, constants and signature have types that the mapping supplies,
like what the functions return that it calls, has no other types. -/
theorem Ir.Function.WellFormed.supplied {m : Module} {f : Function} (ok : f.WellFormed m)
    (addressed : f.Addressed) (params : ∀ ty ∈ f.ty.params, types.Supplies ty)
    (ret : types.Supplies f.ty.ret)
    (returned : ∀ id signature, m.signature? id = some signature → types.Supplies signature.ret)
    (slots : ∀ inst ∈ f.instructions, ∀ ty, inst.action = .alloca ty → types.Supplies ty)
    (constants : ∀ c, .constant c ∈ f.mentions → types.Supplies c.ty) :
    ∀ ty ∈ f.types, types.Supplies ty := by
  -- what is read is a slot of the function, at the type that the slot was reserved with
  have loads : ∀ inst ∈ f.instructions, ∀ ty ptr, inst.action = .load ty ptr →
      types.Supplies ty := by
    intro inst member ty ptr reads
    have access := (ok.usesSlots addressed).accesses inst member
    rw [reads] at access
    obtain ⟨id, rfl, slot⟩ := access
    exact slots _ slot ty rfl
  refine Function.forall_types.2 ⟨params, ret, fun data known => ?_, fun inst member ty used => ?_⟩
  · obtain ⟨i, known⟩ := List.mem_iff_getElem?.1 known
    cases origin : data.origin with
    | param index =>
      obtain ⟨same, bound⟩ := ok.paramOrigin ⟨i⟩ data index known origin
      cases same
      obtain ⟨name, known'⟩ := ok.paramValue i _ (List.getElem?_eq_getElem bound)
      cases known.symm.trans known'
      exact params _ (List.getElem_mem bound)
    | inst block =>
      obtain ⟨inst, has, result⟩ := ok.defined ⟨i⟩ data block known origin
      obtain ⟨ty, checked, stands⟩ := ok.typed block inst has
      rcases stands with ⟨absent, -⟩ | ⟨id, name, t, result', rfl, known'⟩
      · cases absent.symm.trans result
      · cases result.symm.trans result'
        cases known.symm.trans known'
        rcases Function.result_of_checkAction checked with plain | ⟨ptr, reads⟩ |
          ⟨callee, args, called, calls, signature, rfl⟩
        · exact .plain plain
        · exact loads inst (Function.mem_instructions.2 ⟨block, has⟩) t ptr reads
        · rw [calls] at signature
          exact returned callee called signature
  · rcases List.mem_append.1 used with own | constant
    · cases does : inst.action with
      | alloca slot =>
        rw [does, List.mem_singleton] at own
        exact own ▸ slots inst member slot does
      | load read ptr =>
        rw [does, List.mem_singleton] at own
        exact own ▸ loads inst member read ptr does
      | _ =>
        rw [does] at own
        cases own
    · obtain ⟨c, read, rfl⟩ := List.mem_map.1 constant
      obtain ⟨operand, read, same⟩ := List.mem_filterMap.1 read
      obtain ⟨block, among, here⟩ := List.mem_flatMap.1 member
      cases operand with
      | constant c' =>
        cases same
        refine constants c (List.mem_flatMap.2 ⟨block, among, List.mem_append_left _ ?_⟩)
        exact List.mem_flatMap.2 ⟨inst, here, List.mem_append_right _ read⟩
      | _ => cases same

/-- A constant has a type that the mapping supplies. -/
def OperandRule.typed (types : TypeMapping) : OperandRule where
  Holds _ operand := ∀ c, operand = .constant c → types.Supplies c.ty
  widen := fun holds _ => holds
  value _ _ := nofun
  bool _ _ := by
    rintro c ⟨⟩
    exact .plain rfl
  double _ _ := by
    rintro c ⟨⟩
    exact .plain rfl
  function _ _ _ := nofun

theorem OperandRule.typed_admits (types : TypeMapping) :
    (OperandRule.typed types).Admits types.stringTy := by
  rintro ty m bytes string c ⟨⟩
  show types.Supplies ty.ty
  exact string ▸ .string

variable {cx cx' : Context} {decl : FunctionDecl} {f : Function}

theorem FunctionDecl.HasSignature.supplied {signature : FunctionTy}
    (has : decl.HasSignature types signature) :
    (∀ ty ∈ signature.params, types.Supplies ty) ∧ types.Supplies signature.ret := by
  constructor
  · intro ty member
    obtain ⟨i, bound, rfl⟩ := List.getElem_of_mem member
    have resolved := (List.forall₂_iff_get.1 has.params).2 i (has.params_length ▸ bound) bound
    exact .image resolved.1
  · have ret := has.ret
    split at ret
    · exact ret ▸ .plain rfl
    · exact .image ret

/-- All types in the functions of a context are supplied by the mapping. -/
def Context.Supplied (types : TypeMapping) (cx : Context) : Prop :=
  ∀ f ∈ cx.module.functions, ∀ ty ∈ f.types, types.Supplies ty

/-- Among the functions of a context there may be one more that has been declared. -/
theorem Context.Supplied.returned_declared (supplied : cx.Supplied types) {linkage : String}
    {signature : FunctionTy} (ret : types.Supplies signature.ret) {m : Module}
    (functions : m.functions = cx.module.functions ++ [.declare linkage signature])
    (id : Ir.FuncId) (called : FunctionTy) (known : m.signature? id = some called) :
    types.Supplies called.ret := by
  obtain ⟨g, present, rfl⟩ := Option.map_eq_some_iff.1 known
  have member : g ∈ m.functions := List.mem_of_getElem? present
  rw [functions] at member
  rcases List.mem_append.1 member with old | new
  · exact (Function.forall_types.1 (supplied g old)).2.1
  · rw [List.mem_singleton.1 new]
    exact ret

/-- Where a body begins nothing has been reserved, and names stand for functions. -/
theorem Context.Supplied.begun (supplied : cx.Supplied types) (sound : cx.Sound) {name : Symbol}
    {linkage : String} {signature : FunctionTy} (ret : types.Supplies signature.ret) :
    (cx.begun scope name (.declare linkage signature)).Supplied types where
  slots := nofun
  names := by
    intro other x bound kind here stands
    have standing := sound.standing_declare name _ here
    cases bound with
    | direct operand =>
      cases operand with
      | function id =>
        obtain ⟨called, known, rfl⟩ := Option.map_eq_some_iff.1 stands
        exact supplied.returned_declared ret rfl id called known
      | value id => cases standing
      | constant c => cases standing
    | slot home => cases standing
    | namespace_ inner => cases stands

/-- A function that is lowered has no other types. -/
theorem lowerFunction_supplied (sound : cx.Sound) (supplied : cx.Supplied env.types)
    (run : lowerFunction env scope decl cx = .ok () cx')
    (added : cx'.module.functions = cx.module.functions ++ [f]) :
    ∀ ty ∈ f.types, env.types.Supplies ty := by
  have outcome : FunctionOutcome env scope decl cx (lowerFunction env scope decl cx) :=
    lowerFunction_outcome sound
  have constants := lowerFunction_obeys (OperandRule.typed_admits env.types) sound run added
  rw [run] at outcome
  cases outcome with
  | @external signature linkage header absent =>
    obtain rfl : Function.declare linkage signature = f := by
      simpa [Context.declare, Module.appended] using added
    obtain ⟨params, ret⟩ := (signature?_ok.1 header.typed).supplied
    have ok := Function.wellFormed_declare
      (cx.declare scope decl.name (.declare linkage signature)).module linkage signature
    refine ok.supplied ?_ params ret (supplied.returned_declared ret rfl) ?_ ?_
    -- a declaration holds no instructions
    all_goals
      intro _ member
      cases member
  | @installed signature linkage body t header present build passed =>
    obtain rfl : t.builder.function = f := by simpa [Context.finished] using added
    have typed := signature?_ok.1 header.typed
    obtain ⟨params, ret⟩ := typed.supplied
    obtain ⟨-, done, built⟩ := building_ok sound header build
    have declared := sound.begun header.inside decl.name linkage signature
    have addressed := (buildBody_traffic declared typed.params_length
      (fun id => sound.not_bound decl.name _ id) build).2
    have reserved := buildBody_supplied declared typed.params_length
      (supplied.begun sound ret) params build
    have own : t.builder.function.ty = signature := done.2.ty
    exact built.function.supplied addressed (own ▸ params) (own ▸ ret)
      (supplied.returned_declared ret done.1.functions) reserved.slots
      fun c mentioned => constants _ mentioned c rfl

/-! ## Runs -/

variable {calls : Environment → FunctionDecl → Prop}

theorem Step.supplied (same : ∀ env decl, calls env decl → env.types = types)
    (step : Step calls cx cx') (sound : cx.Sound) (supplied : cx.Supplied types) :
    cx'.Supplied types := by
  cases step with
  | log event => exact supplied
  | warn diagnostic => exact supplied
  | enter inside name => exact supplied
  | bind scope name named => exact supplied
  | @function env decl call scope =>
    have leaves := lowerFunction_leaves env scope decl sound
    cases run : lowerFunction env scope decl cx with
    | error failure after =>
      rw [run] at leaves
      rw [Lower.after_error run, Context.Supplied, leaves.module]
      exact supplied
    | ok u after =>
      rw [run] at leaves
      obtain ⟨f, installs⟩ := leaves
      obtain rfl := same env decl call
      rw [Lower.after_ok run, Context.Supplied, installs.functions, List.forall_mem_append]
      exact ⟨supplied, List.forall_mem_singleton.2
        (lowerFunction_supplied sound supplied run installs.functions)⟩

/-- All types in the functions that a run leaves are supplied by the mapping. -/
theorem Run.supplied (same : ∀ env decl, calls env decl → env.types = types)
    (run : Run calls cx cx') (sound : cx.Sound) (supplied : cx.Supplied types) :
    cx'.Supplied types := by
  induction run with
  | refl => exact supplied
  | tail path step ih => exact step.supplied same (Run.sound path sound).1 ih

end SsaLowering
