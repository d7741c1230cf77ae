/-
# SsaLowering.Proofs.Lower.Dominance -- lexical scoping implies dominance

A body state is `Traced` when there is an account of dominance for its function
under which every value that is bound to a name is provided at the end of the
current block.  Statements keep this (`lowerStmt_traced`), as long as no branch of a
conditional is directly a `const` statement: such a branch binds a value for what
follows the conditional, where the branch has not always been.
-/
import SsaLowering.Proofs.Ir.Account
import SsaLowering.Proofs.Lower.Opened

namespace SsaLowering

set_option autoImplicit false

open Ir (Ty Module Function Builder ValueId BlockId Operand Instruction Terminator)

variable {s t u : BodyState} {scope : ScopeId} {env : Environment}
  {D D' : BlockId → BlockId → Prop} {cur cur' : BlockId}

/-! ## What is provided -/

namespace Ir.Function

variable {m : Module} {f g : Function}

/-- Slots are provided everywhere. -/
theorem WellFormed.provides_slot (ok : f.WellFormed m) (account : f.Dominance D)
    {block : BlockId} (inside : block.index < f.blocks.length) {id : ValueId}
    (slot : (f.slotTy? (.value id)).isSome) (before : List Instruction) :
    f.Provides D block before id := by
  obtain ⟨home, inst, has, isSlot, result⟩ := slotTy?_isSome slot
  obtain ⟨name, ty, known⟩ := ok.result_known has result
  refine ⟨_, known, fun home' origin => ?_⟩
  cases origin
  have entry : home = ⟨0⟩ := by
    by_contra other
    obtain ⟨data, present, member⟩ := has
    obtain ⟨slots, split_, -, later⟩ := ok.slotsFirst home data present
    rw [split_, later other, List.nil_append] at member
    have effect := (List.mem_filter.1 member).2
    rw [isSlot] at effect
    cases effect
  exact ⟨entry ▸ account.root block inside, fun _ => Or.inl slot⟩

/-- What is provided at the end of a block stays provided when code is added there. -/
theorem Provides.grow (grown : f.Extends g) {code code' : List Instruction}
    {last last' : Option Terminator} (known : f.content cur = some (code, last))
    (known' : g.content cur = some (code', last')) {id : ValueId}
    (provided : f.Provides D cur code id) (above : ∀ d, D cur d → D' cur d) :
    g.Provides D' cur code' id := by
  obtain ⟨data, present, rfl, -⟩ := content_eq_some.1 known
  obtain ⟨data', present', -, longer, -⟩ := grown.blocks cur data present
  obtain ⟨data'', present'', rfl, -⟩ := content_eq_some.1 known'
  cases present'.symm.trans present''
  exact provided.mono grown above longer.subset

/-- Where a block is new, nothing old was defined in it. -/
theorem Provides.move (account : f.Dominance D) (grown : f.Extends g)
    {code code' : List Instruction} {id : ValueId} (provided : f.Provides D cur code id)
    (new : f.blocks.length ≤ cur'.index) (above : ∀ d, D cur d → D' cur' d) :
    g.Provides D' cur' code' id := by
  obtain ⟨data, known, origin⟩ := provided
  obtain ⟨name, known'⟩ := grown.values id data known
  refine ⟨_, known', fun home here => ?_⟩
  obtain ⟨dom, -⟩ := origin home here
  refine ⟨above home dom, fun same => ?_⟩
  have old := (account.bound cur home dom).2
  rw [same] at old
  exact absurd new (Nat.not_le.2 old)

end Ir.Function

/-! ## Traced states -/

/-- Every value that is bound to a name is provided at the end of the current block. -/
structure BodyState.Traced (s : BodyState) (D : BlockId → BlockId → Prop) (cur : BlockId) :
    Prop where
  account : s.builder.function.Dominance D
  current : s.builder.current = some cur
  bound : ∀ code last, s.builder.function.content cur = some (code, last) →
    ∀ id, s.Bound id → s.builder.function.Provides D cur code id

/-- A later account says the same of old blocks, and no less of the current one. -/
structure BodyState.Wider (s : BodyState) (D : BlockId → BlockId → Prop) (cur : BlockId)
    (D' : BlockId → BlockId → Prop) (cur' : BlockId) : Prop where
  old : ∀ v d, v.index < s.next → (D' v d ↔ D v d)
  above : ∀ d, D cur d → D' cur' d

theorem BodyState.Wider.refl (s : BodyState) (D : BlockId → BlockId → Prop) (cur : BlockId) :
    s.Wider D cur D cur where
  old := fun _ _ _ => Iff.rfl
  above := fun _ dom => dom

theorem BodyState.Wider.trans {D'' : BlockId → BlockId → Prop} {cur'' : BlockId}
    (first : s.Wider D cur D' cur') (longer : s.next ≤ t.next)
    (second : t.Wider D' cur' D'' cur'') : s.Wider D cur D'' cur'' where
  old := fun v d bound =>
    (second.old v d (Nat.lt_of_lt_of_le bound longer)).trans (first.old v d bound)
  above := fun d dom => second.above d (first.above d dom)

/-- A construct led to a traced state. -/
def BodyState.Traces (s : BodyState) (D : BlockId → BlockId → Prop) (cur : BlockId)
    (t : BodyState) : Prop :=
  ∃ D' cur', t.Traced D' cur' ∧ s.Wider D cur D' cur'

/-- Only slots were bound. -/
def BodyState.OnlySlots (s t : BodyState) : Prop :=
  ∀ id, t.Bound id → s.Bound id ∨ (t.builder.function.slotTy? (.value id)).isSome

namespace BodyState

theorem next_le (grown : s.builder.function.Extends t.builder.function) : s.next ≤ t.next :=
  grown.length_le

theorem Traced.content (traced : s.Traced D cur) (placed : s.builder.Placed) :
    ∃ code last, s.builder.function.content cur = some (code, last) := by
  obtain ⟨block, data, current, known⟩ := placed
  cases current.symm.trans traced.current
  exact ⟨data.code, data.terminator, Function.content_eq_some.2 ⟨data, known, rfl, rfl⟩⟩

/-- What can be used is provided. -/
theorem Traced.provides (traced : s.Traced D cur) (sound : s.Sound) {code : List Instruction}
    {last : Option Terminator} (known : s.builder.function.content cur = some (code, last))
    {id : ValueId} (usable : s.Usable id) : s.builder.function.Provides D cur code id := by
  obtain ⟨data, present, rfl, rfl⟩ := Function.content_eq_some.1 known
  have inside := Function.lt_of_block? present
  rcases usable with given | slot | ⟨block, data', inst, current, present', member, result⟩
  · exact traced.bound _ _ known id given
  · exact sound.function.provides_slot traced.account inside slot _
  · cases current.symm.trans traced.current
    cases present.symm.trans present'
    have has : s.builder.function.Has cur inst := ⟨data, present, (List.mem_filter.1 member).1⟩
    obtain ⟨name, ty, value⟩ := sound.function.result_known has result
    refine ⟨_, value, fun home origin => ?_⟩
    cases origin
    exact ⟨traced.account.self cur inside, fun _ => Or.inr ⟨inst, member, result⟩⟩

/-- Growth in the current block. -/
theorem Traced.grow (traced : s.Traced D cur) (placed : s.builder.Placed)
    (grown : s.builder.function.Extends t.builder.function)
    (account : t.builder.function.Dominance D') (current : t.builder.current = some cur)
    (above : ∀ d, D cur d → D' cur d)
    (bound : ∀ id, t.Bound id → s.Bound id ∨ ∀ code last,
      t.builder.function.content cur = some (code, last) →
        t.builder.function.Provides D' cur code id) : t.Traced D' cur where
  account := account
  current := current
  bound := fun code last known id given => by
    obtain ⟨code', last', known'⟩ := traced.content placed
    rcases bound id given with old | new
    · exact (traced.bound code' last' known' id old).grow grown known' known above
    · exact new code last known

/-- The move to a new block that nothing but slots was bound for. -/
theorem Traced.move (traced : s.Traced D cur) (placed : s.builder.Placed) (sound : t.Sound)
    (grown : s.builder.function.Extends t.builder.function)
    (account : t.builder.function.Dominance D') (current : t.builder.current = some cur')
    (new : s.next ≤ cur'.index) (above : ∀ d, D cur d → D' cur' d) (only : s.OnlySlots t) :
    t.Traced D' cur' where
  account := account
  current := current
  bound := fun code last known id given => by
    obtain ⟨code', last', known'⟩ := traced.content placed
    rcases only id given with old | slot
    · exact (traced.bound code' last' known' id old).move traced.account grown new above
    · obtain ⟨data, present, -⟩ := Function.content_eq_some.1 known
      exact sound.function.provides_slot account (Function.lt_of_block? present) slot _

/-! ## Names that are bound -/

theorem OnlySlots.of_lookups
    (same : ∀ other x, t.context.scopes.lookupIn other x = s.context.scopes.lookupIn other x) :
    s.OnlySlots t := by
  rintro id ⟨other, x, bound, here, named⟩
  exact Or.inl ⟨other, x, bound, same other x ▸ here, named⟩

theorem OnlySlots.trans (first : s.OnlySlots t) (second : t.OnlySlots u) (sound : t.Sound)
    (grown : t.builder.function.Extends u.builder.function) : s.OnlySlots u := by
  intro id given
  rcases second id given with before | slot
  · rcases first id before with old | slot
    · exact Or.inl old
    · right
      obtain ⟨home, inst, has, -, result⟩ := Function.slotTy?_isSome slot
      rwa [grown.slots id (sound.function.result_lt has result)]
  · exact Or.inr slot

theorem bound_bound {name : Symbol} {value : BoundValue} {id : ValueId}
    (given : (s.bound scope name value).Bound id) : s.Bound id ∨ value.value? = some id := by
  obtain ⟨other, x, bound, here, named⟩ := given
  simp only [BodyState.bound, ScopeTable.lookupIn_assign] at here
  split at here
  · cases here
    exact Or.inr named
  · exact Or.inl ⟨other, x, bound, here, named⟩

end BodyState

/-! ## Steps inside of a block -/

section Steps

variable (traced : s.Traced D cur)
include traced

/-- An account of the same names in the same block. -/
theorem BodyState.Traced.keep (placed : s.builder.Placed)
    (grown : s.builder.function.Extends t.builder.function)
    (account : t.builder.function.Dominance D) (current : t.builder.current = s.builder.current)
    (bound : ∀ id, t.Bound id → s.Bound id) : t.Traced D cur :=
  traced.grow placed grown account (current.trans traced.current) (fun _ dom => dom)
    fun id given => Or.inl (bound id given)

/-- Names and slots come without code. -/
theorem BodyState.Traced.rebuilt (placed : s.builder.Placed) {b : Builder}
    (grown : s.builder.function.Extends b.function) (current : b.current = s.builder.current)
    (count : b.function.blocks.length = s.builder.function.blocks.length)
    (same : ∀ id, b.content id = s.builder.content id) : (s.rebuilt b).Traced D cur :=
  traced.keep placed grown (traced.account.congr grown count same) current fun _ given => given

/-- A name is bound to what can be used. -/
theorem BodyState.Traced.bind (placed : s.builder.Placed) (sound : s.Sound) (name : Symbol)
    {value : BoundValue} (usable : ∀ id, value.value? = some id → s.Usable id) :
    (s.bound scope name value).Traced D cur :=
  traced.grow placed (.refl _) traced.account traced.current (fun _ dom => dom) fun id given =>
    (BodyState.bound_bound given).imp_right fun named _ _ known =>
      traced.provides sound known (usable id named)

/-- The end of a block. -/
theorem BodyState.Traced.close (sound : s.Sound) {block : BlockId}
    (selected : s.builder.Open block) {terminator : Terminator}
    (usable : ∀ id, .value id ∈ terminator.operands → s.Usable id)
    (targets : ∀ v ∈ terminator.successors, ∀ d, D v d → d = v ∨ D cur d) :
    (s.rebuilt (s.builder.closed block terminator)).Traced D cur := by
  have placed := selected.placed
  have advances := selected.advances_closed terminator
  obtain ⟨current, data, present, unended⟩ := selected
  obtain rfl : block = cur := Option.some.inj (current.symm.trans traced.current)
  have known : s.builder.function.content block = some (data.code, data.terminator) :=
    Function.content_eq_some.2 ⟨data, present, rfl, rfl⟩
  refine traced.keep placed advances.function ?_ rfl fun _ given => given
  exact traced.account.close present unended
    (fun v read => traced.provides sound known (usable v read)) targets

end Steps

/-- Code at the end of the current block reads what is provided there. -/
theorem BodyState.Emits.traced (emits : s.Emits t) (traced : s.Traced D cur) (sound : s.Sound)
    (placed : s.builder.Placed) : t.Traced D cur := by
  obtain ⟨code, last, known⟩ := traced.content placed
  have account : t.builder.function.Dominance D := by
    have emitted := emits.builder
    generalize t.builder = c at emitted
    induction emitted with
    | refl => exact traced.account
    | @push c block action ty before selected effect checked usable ih =>
      obtain rfl : block = cur :=
        Option.some.inj (selected.current.symm.trans (before.current.trans traced.current))
      obtain ⟨-, data, present, unended⟩ := selected
      have here : c.function.content block = some (data.code, data.terminator) :=
        Function.content_eq_some.2 ⟨data, present, rfl, rfl⟩
      refine ih.push present unended effect ty fun v read => ?_
      have ok := before.wellFormed sound.function
      rcases usable v read with
        given | slot | ⟨block', data', inst, current, present', member, result⟩
      · exact (traced.bound code last known v given).grow before.function known here
          fun _ dom => dom
      · exact ok.provides_slot ih (Function.lt_of_block? present) slot _
      · obtain rfl : block' = block :=
          Option.some.inj (current.symm.trans (before.current.trans traced.current))
        cases present.symm.trans present'
        have has : c.function.Has block' inst := ⟨data, present, (List.mem_filter.1 member).1⟩
        obtain ⟨name, ty, value⟩ := ok.result_known has result
        refine ⟨_, value, fun home origin => ?_⟩
        cases origin
        exact ⟨ih.self block' (Function.lt_of_block? present), fun _ =>
          Or.inr ⟨inst, member, result⟩⟩
  exact traced.keep placed emits.builder.function account emits.builder.current
    fun id given => emits.bound ▸ given

/-! ## Statements without branches -/

/-- A construct that stays in the current block, under the same account. -/
theorem BodyState.Traced.traces (traced : t.Traced D cur) : s.Traces D cur t :=
  ⟨D, cur, traced, .refl s D cur⟩

theorem BodyState.Local.blocks_reserve (s : BodyState) (ty : Ty) (name : String) :
    (s.withSlot ty name).builder.function.blocks.length = s.builder.function.blocks.length :=
  List.length_modify ..

/-- A new slot leaves the account and the current block. -/
theorem BodyState.Traced.withSlot (traced : s.Traced D cur) (local_ : s.Local scope) (ty : Ty)
    (name : String) : (s.withSlot ty name).Traced D cur :=
  traced.rebuilt local_.placed (s.extends_withSlot ty name) rfl
    (BodyState.Local.blocks_reserve s ty name) (s.builder.content_withSlot ty name)

/-- The slot of a variable can be used. -/
theorem BodyState.Local.usable_nextSlot (local_ : s.Local scope) {ty : Ty} (sized : ty.isSized)
    (name : String) {id : ValueId} (named : (BoundValue.slot (s.nextSlot ty)).value? = some id) :
    ((s.withSlot ty name).builder.function.slotTy? (.value id)).isSome := by
  cases named
  rw [(local_.valid_nextSlot sized name).1]
  rfl

theorem BodyState.Declares.traced {decl : Declarator} {mutability : Bool}
    (declares : s.Declares env scope decl mutability t) (local_ : s.Local scope)
    (traced : s.Traced D cur) :
    t.Traced D cur ∧ (mutability = true → s.OnlySlots t) := by
  cases declares with
  | @constant expr operand u b init run grown ok current blocks =>
    obtain ⟨emits, kind, stands⟩ := evaluate_stands local_.toReady run
    have local' := emits.local local_
    have traced' := emits.traced traced local_.sound local_.placed
    have content : ∀ id, b.content id = u.builder.content id := fun id => by
      rw [Builder.content, Builder.content, Function.block?, Function.block?, blocks]
    have renamed := traced'.rebuilt local'.placed grown current (by rw [blocks]) content
    have placed : (u.rebuilt b).builder.Placed :=
      (Builder.Advances.of_content grown current fun id _ => content id).placed local'.placed
    refine ⟨renamed.bind placed (local'.sound.rebuilt grown ok) decl.name fun id named => ?_,
      fun absurd_ => by cases absurd_⟩
    exact (stands.usable id named).advances (stands.valid.known named) current grown
  | @blank ty init sized =>
    have reserved := traced.withSlot local_ ty (env.name decl.name)
    have after := local_.after_withSlot sized (env.name decl.name)
    have usable {id : ValueId} (named : (BoundValue.slot (s.nextSlot ty)).value? = some id) :=
      local_.usable_nextSlot sized (env.name decl.name) named
    refine ⟨reserved.bind (after.advances.placed local_.placed) after.sound decl.name
      fun id named => Or.inr (Or.inl (usable named)), fun _ id given => ?_⟩
    exact (BodyState.bound_bound given).imp_right usable
  | @stored expr operand u ty block init run sized selected checked =>
    obtain ⟨emits, kind, stands⟩ := evaluate_stands local_.toReady run
    have local' := emits.local local_
    have traced' := emits.traced traced local_.sound local_.placed
    have reserved := traced'.withSlot local' ty (env.name decl.name)
    have after := local'.after_withSlot sized (env.name decl.name)
    have usable {id : ValueId} (named : (BoundValue.slot (u.nextSlot ty)).value? = some id) :=
      local'.usable_nextSlot sized (env.name decl.name) named
    have accepts : (u.withSlot ty (env.name decl.name)).Accepts
        (.store operand (.value (u.nextSlot ty).ptr)) none := by
      refine ⟨rfl, checked, fun id read => ?_⟩
      simp only [Ir.Action.operands, List.mem_cons, List.not_mem_nil, or_false] at read
      rcases read with rfl | here
      · exact (stands.withSlot ty _).usable id rfl
      · cases here
        exact Or.inr (Or.inl (usable rfl))
    have stored := BodyState.emits_push selected accepts
    have pushed := stored.traced reserved after.sound selected.placed
    have grown : (u.withSlot ty (env.name decl.name)).builder.function.Extends _ :=
      stored.builder.function
    -- the write goes behind the slot, which is a slot still
    have holds {id : ValueId} (named : (BoundValue.slot (u.nextSlot ty)).value? = some id) :
        (((u.withSlot ty (env.name decl.name)).push block
          (.store operand (.value (u.nextSlot ty).ptr)) none).builder.function.slotTy?
            (.value id)).isSome := by
      obtain ⟨home, inst, has, -, result⟩ := Function.slotTy?_isSome (usable named)
      rw [grown.slots id (after.sound.function.result_lt has result)]
      exact usable named
    refine ⟨pushed.bind (stored.builder.open selected).placed (stored.sound after.sound) decl.name
      fun id named => Or.inr (Or.inl (holds named)), fun _ id given => ?_⟩
    rcases BodyState.bound_bound given with before | named
    · exact Or.inl (emits.bound ▸ stored.bound ▸ before)
    · exact Or.inr (holds named)

theorem declarators_traced (kind : BindingKind) :
    ∀ {declarators : List Declarator} {s t : BodyState}, s.Local scope → s.Traced D cur →
      declarators.forM (lowerDeclarator env scope kind) s = .ok () t →
        t.Traced D cur ∧ (kind.isMutable = true → s.OnlySlots t)
  | [], s, t, _, traced, run => by
    cases run
    exact ⟨traced, fun _ => .of_lookups fun _ _ => rfl⟩
  | decl :: rest, s, t, local_, traced, run => by
    obtain ⟨u, first, run⟩ := declarators_cons_ok run
    obtain ⟨names, -, done, after⟩ := (lowerDeclarator_foretold env kind local_ decl).of_ok first
    obtain ⟨traced', only⟩ := (lowerDeclarator_ok local_ first).traced local_ traced
    have local' := after.local local_ done.1
    obtain ⟨names', -, done', -⟩ :=
      (lowerDeclarators_foretold env kind rest local').of_ok run
    obtain ⟨traced'', only'⟩ := declarators_traced kind local' traced' run
    exact ⟨traced'', fun mutability =>
      (only mutability).trans (only' mutability) after.sound done'.2⟩

/-! ## Conditionals -/

section Forks

variable {condition : Expr} {thenBranch : Stmt} {elseBranch : Option Stmt} {cond : Operand}
  {block : BlockId} {v v' w w' : BodyState}

/-- A branch that goes on only goes where what dominates is known. -/
theorem BodyState.Falls.account {next : BlockId} (falls : s.Falls next t)
    (traced : s.Traced D cur) (above : ∀ d, D next d → d = next ∨ D cur d) :
    t.builder.function.Dominance D := by
  cases falls with
  | ended ended => exact traced.account
  | @jumped block selected checked =>
    obtain ⟨current, data, known, unended⟩ := selected
    obtain rfl : block = cur := Option.some.inj (current.symm.trans traced.current)
    refine traced.account.close known unended (fun id read => ?_) fun v target d dom => ?_
    · simp [Ir.Terminator.operands] at read
    · obtain rfl : v = next := by simpa [Ir.Terminator.successors] using target
      exact above d dom

/-- The account `D'` says of old blocks what `D` says, and has the three blocks of a conditional
dominated by what dominates the block that forks. -/
structure BodyState.Spreads (s : BodyState) (D : BlockId → BlockId → Prop) (block : BlockId)
    (D' : BlockId → BlockId → Prop) : Prop where
  old : ∀ v d, v.index < s.next → (D' v d ↔ D v d)
  new : ∀ v d, s.next ≤ v.index → v.index < s.next + 3 → (D' v d ↔ d = v ∨ D block d)

/-- A branch starts in one of the blocks of a conditional and falls to the last of them. -/
theorem BodyState.Spreads.branch {start : BodyState} {id : BlockId} (spreads : s.Spreads D block D')
    (traces : start.Traces D' id v) (low : s.next ≤ id.index) (high : id.index < s.next + 3)
    (longer : s.next + 3 ≤ start.next) (falls : v.Falls ⟨s.next + 2⟩ v') :
    ∃ D'', v'.builder.function.Dominance D'' ∧ s.Spreads D block D'' := by
  obtain ⟨D'', cur'', traced, wider⟩ := traces
  have spreads' : s.Spreads D block D'' := {
    old := fun v d before =>
      (wider.old v d (Nat.lt_of_lt_of_le (Nat.lt_add_right 3 before) longer)).trans
        (spreads.old v d before)
    new := fun v d low high =>
      (wider.old v d (Nat.lt_of_lt_of_le high longer)).trans (spreads.new v d low high) }
  refine ⟨D'', falls.account traced fun d dom => ?_, spreads'⟩
  refine ((spreads'.new ⟨s.next + 2⟩ d (Nat.le_add_right _ _) (Nat.lt_succ_self _)).1 dom).imp_right
    fun dom => wider.above d ((spreads.new id d low high).2 (Or.inr dom))

section OnlySlots

variable (forks : s.Forks env scope condition thenBranch elseBranch cond block u v v' w w' t)
include forks

/-- Between the branches only the slots of the first one were bound. -/
theorem BodyState.Forks.onlySlots_then
    (thenOnly : ((u.fork block cond).at_ ⟨u.next⟩).OnlySlots v) :
    u.OnlySlots (v'.at_ ⟨u.next + 1⟩) := by
  have atFork : u.OnlySlots ((u.fork block cond).at_ ⟨u.next⟩) := .of_lookups fun _ _ => rfl
  have inThen : u.OnlySlots v := atFork.trans thenOnly forks.thenLocal.sound forks.thenDone.2
  have fallen : v.OnlySlots (v'.at_ ⟨u.next + 1⟩) :=
    .of_lookups fun other x => congrArg (·.scopes.lookupIn other x) forks.thenFalls.context
  exact inThen.trans fallen forks.thenSound forks.thenFalls.advances.function

/-- Behind a conditional only the slots of its branches were bound. -/
theorem BodyState.Forks.onlySlots (thenOnly : u.OnlySlots (v'.at_ ⟨u.next + 1⟩))
    (elseOnly : (v'.at_ ⟨u.next + 1⟩).OnlySlots w) : u.OnlySlots t := by
  have inElse : u.OnlySlots w := thenOnly.trans elseOnly forks.elseLocal.sound forks.elseDone.2
  have fallen : w.OnlySlots (w'.at_ ⟨u.next + 2⟩) :=
    .of_lookups fun other x => congrArg (·.scopes.lookupIn other x) forks.elseFalls.context
  rw [forks.last]
  exact inElse.trans fallen forks.elseSound forks.elseFalls.advances.function

end OnlySlots

/-- Both branches start with the account of the fork, and what follows them is
dominated by what dominates the fork. -/
theorem BodyState.Forks.traced
    (forks : s.Forks env scope condition thenBranch elseBranch cond block u v v' w w' t)
    (local_ : s.Local scope) (traced : s.Traced D cur)
    (thenTraced : ∀ {D₁ cur₁}, ((u.fork block cond).at_ ⟨u.next⟩).Traced D₁ cur₁ →
      ((u.fork block cond).at_ ⟨u.next⟩).Traces D₁ cur₁ v)
    (thenOnly : ∀ {D₁ cur₁}, ((u.fork block cond).at_ ⟨u.next⟩).Traced D₁ cur₁ →
      ((u.fork block cond).at_ ⟨u.next⟩).OnlySlots v)
    (elseTraced : ∀ {D₁ cur₁}, (v'.at_ ⟨u.next + 1⟩).Traced D₁ cur₁ →
      (v'.at_ ⟨u.next + 1⟩).Traces D₁ cur₁ w)
    (elseOnly : ∀ {D₁ cur₁}, (v'.at_ ⟨u.next + 1⟩).Traced D₁ cur₁ →
      (v'.at_ ⟨u.next + 1⟩).OnlySlots w) :
    s.Traces D cur t ∧ s.OnlySlots t := by
  have local' := forks.emits.local local_
  have traced' := forks.emits.traced traced local_.sound local_.placed
  have forked_ := forks.selected
  obtain ⟨current, data, known, unended⟩ := forked_
  obtain rfl : block = cur := Option.some.inj (current.symm.trans traced'.current)
  have inside : block.index < u.next := Function.lt_of_block? known
  have here : u.builder.function.content block = some (data.code, data.terminator) :=
    Function.content_eq_some.2 ⟨data, known, rfl, rfl⟩
  obtain ⟨-, kind, stands⟩ := evaluate_stands local_.toReady forks.condition
  -- the account at the fork: the three new blocks stand under the block that forks
  have account : (u.fork block cond).builder.function.Dominance
      (Function.forked D block u.next) :=
    traced'.account.fork local'.sound.function known unended fun id named =>
      traced'.provides local'.sound here (stands.usable id (named ▸ rfl))
  have spreads : u.Spreads D block (Function.forked D block u.next) :=
    ⟨fun _ _ before => Function.forked_old before,
      fun _ _ low high => Function.forked_new inside low high⟩
  have whole : ((u.fork block cond).at_ ⟨u.next⟩).next = u.next + 3 :=
    u.builder.length_fork block cond
  have grown : u.builder.function.Extends (u.fork block cond).builder.function :=
    forks.selected.extends_fork cond
  have thenGrown := forks.thenDone.2.trans forks.thenFalls.advances.function
  -- the three blocks by their offsets
  have first : u.next < u.next + 3 := Nat.lt_add_of_pos_right (by decide)
  have second : u.next + 1 < u.next + 3 := Nat.add_lt_add_left (by decide) _
  have third : u.next + 2 < u.next + 3 := Nat.lt_succ_self _
  -- the second branch starts with the account that the first one leaves, in which the blocks of
  -- the fork stand as they did: what the first one added is not above them
  have start : ((u.fork block cond).at_ ⟨u.next⟩).Traced (Function.forked D block u.next)
      ⟨u.next⟩ :=
    traced'.move local'.placed forks.thenLocal.sound grown account rfl (Nat.le_refl _)
      (fun d dom => (spreads.new _ d (Nat.le_refl _) first).2 (Or.inr dom))
      (.of_lookups fun _ _ => rfl)
  obtain ⟨D₂, thenAccount, spreads'⟩ := spreads.branch (thenTraced start) (Nat.le_refl _) first
    (Nat.le_of_eq whole.symm) forks.thenFalls
  have between := forks.onlySlots_then (thenOnly start)
  have startElse : (v'.at_ ⟨u.next + 1⟩).Traced D₂ ⟨u.next + 1⟩ :=
    traced'.move local'.placed forks.elseLocal.sound (grown.trans thenGrown) thenAccount rfl
      (Nat.le_succ _) (fun d dom => (spreads'.new _ d (Nat.le_succ _) second).2 (Or.inr dom))
      between
  obtain ⟨D₃, elseAccount, spreads''⟩ := spreads'.branch (elseTraced startElse) (Nat.le_succ _)
    second (whole ▸ BodyState.next_le thenGrown) forks.elseFalls
  have last (d : BlockId) : D₃ ⟨u.next + 2⟩ d ↔ d = ⟨u.next + 2⟩ ∨ D block d :=
    spreads''.new _ d (Nat.le_add_right _ _) third
  have only : u.OnlySlots t := forks.onlySlots between (elseOnly startElse)
  have sound : t.Sound := by
    rw [forks.last]
    have sound := forks.elseFalls.sound forks.elseSound
    exact sound.rebuilt (.refl _) sound.function
  have behind : t.Traced D₃ ⟨u.next + 2⟩ := by
    rw [forks.last] at only sound ⊢
    exact traced'.move local'.placed sound forks.branched.extends elseAccount rfl
      (Nat.le_add_right _ _) (fun d dom => (last d).2 (Or.inr dom)) only
  have short : s.next ≤ u.next := BodyState.next_le forks.emits.builder.function
  refine ⟨⟨D₃, _, behind, fun id d bound => ?_, fun d dom => (last d).2 (Or.inr dom)⟩,
    fun id given => ?_⟩
  · exact spreads''.old id d (Nat.lt_of_lt_of_le bound short)
  · exact forks.emits.bound ▸ only id given

end Forks

/-! ## Statements -/

theorem BodyState.Traces.trans (first : s.Traces D cur t)
    (second : ∀ {D' cur'}, t.Traced D' cur' → t.Traces D' cur' u) (longer : s.next ≤ t.next) :
    s.Traces D cur u := by
  obtain ⟨D', cur', traced, wider⟩ := first
  obtain ⟨D'', cur'', traced', wider'⟩ := second traced
  exact ⟨D'', cur'', traced', wider.trans longer wider'⟩

/-- Behind a block the names are those before it. -/
theorem BodyState.Traces.leave (local_ : s.Local scope) (traced : s.Traced D cur)
    (advances : s.builder.Advances t.builder) (sound : t.Sound)
    (traces : (s.entered scope).Traces D cur u) (builder : t.builder = u.builder)
    (same : ∀ other x, t.context.scopes.lookupIn other x = s.context.scopes.lookupIn other x) :
    s.Traces D cur t := by
  obtain ⟨D', cur', traced', wider⟩ := traces
  have account : t.builder.function.Dominance D' := builder ▸ traced'.account
  have current : t.builder.current = some cur' := builder ▸ traced'.current
  have only : s.OnlySlots t := .of_lookups same
  refine ⟨D', cur', ?_, wider.old, wider.above⟩
  rcases advances.selected with here | ⟨id, data, moved, new, -⟩
  · obtain rfl : cur' = cur := Option.some.inj (current.symm.trans (here.trans traced.current))
    refine traced.grow local_.placed advances.function account current wider.above
      fun id given => Or.inl ?_
    obtain ⟨other, x, bound, known, named⟩ := given
    exact ⟨other, x, bound, same other x ▸ known, named⟩
  · obtain rfl : cur' = id := Option.some.inj (current.symm.trans moved)
    exact traced.move local_.placed sound advances.function account current new wider.above only

theorem lowerReturn_traced (local_ : s.Local scope) (traced : s.Traced D cur)
    {value : Option Expr} {span : FileSpan}
    (run : lowerReturn env scope value span s = .ok () t) :
    t.Traced D cur ∧ s.OnlySlots t := by
  obtain ⟨u, operand, block, selected, checked, rfl, returns⟩ := lowerReturn_ok run
  have emits := returns.emits local_.toReady
  have usable : ∀ id, .value id ∈ (Terminator.ret operand).operands → u.Usable id := by
    intro id read
    cases returns with
    | nothing => simp [Ir.Terminator.operands] at read
    | @value expr operand u run =>
      obtain ⟨-, kind, stands⟩ := evaluate_stands local_.toReady run
      refine stands.usable id ?_
      obtain rfl : Operand.value id = operand := by
        simpa [Ir.Terminator.operands] using read
      rfl
  have traced' := emits.traced traced local_.sound local_.placed
  refine ⟨traced'.close (emits.local local_).sound selected usable fun v target => ?_, ?_⟩
  · simp [Ir.Terminator.successors] at target
  · exact .of_lookups fun other x => congrArg (·.lookupIn other x) emits.scopes

theorem skip_traced (traced : s.Traced D cur) {kind : SyntaxKind} {span : FileSpan} {p : Prop}
    (run : skip kind span s = .ok () t) : s.Traces D cur t ∧ (p → s.OnlySlots t) := by
  obtain rfl := skip_ok run
  have same : BodyState.Traced { s with context := s.context.warn ⟨.unhandledSyntax kind, span⟩ }
      D cur := ⟨traced.account, traced.current, traced.bound⟩
  exact ⟨same.traces, fun _ => .of_lookups fun _ _ => rfl⟩

mutual

/-- Statements keep a state traced, and only `const` statements bind values. -/
theorem lowerStmt_traced (env : Environment) : ∀ (stmt : Stmt) {scope : ScopeId} {s t : BodyState}
    {D : BlockId → BlockId → Prop} {cur : BlockId}, s.Local scope → s.Traced D cur →
      stmt.bareBranch Stmt.isConst = false → lowerStmt env scope stmt s = .ok () t →
        s.Traces D cur t ∧ (stmt.isConst = false → s.OnlySlots t)
  | .block stmts span, scope, s, t, D, cur, local_, traced, clear, run => by
    rw [Stmt.bareBranch] at clear
    obtain ⟨names, -, done, after⟩ := (lowerStmt_foretold env _ scope s local_).of_ok run
    obtain ⟨u, inner, rfl⟩ := block_ok local_.inside run
    have same := (block_spares local_ inner).lookups
    have traced' : (s.entered scope).Traced D cur :=
      traced.keep local_.placed (.refl _) traced.account rfl
        fun id ⟨other, x, bound, known, named⟩ =>
          ⟨other, x, bound, s.lookupIn_entered scope other x ▸ known, named⟩
    have traces := lowerStmts_traced env stmts local_.entered traced' clear inner
    exact ⟨.leave local_ traced after.advances after.sound traces rfl same,
      fun _ => .of_lookups same⟩
  | .expression expr span, scope, s, t, D, cur, local_, traced, clear, run => by
    have emits := expressionStatement_emits local_.toReady run
    refine ⟨(emits.traced traced local_.sound local_.placed).traces, fun _ => ?_⟩
    exact .of_lookups fun other x => congrArg (·.lookupIn other x) emits.scopes
  | .ifElse condition thenBranch elseBranch span, scope, s, t, D, cur, local_, traced, clear,
      run => by
    rw [Stmt.bareBranch] at clear
    simp only [Bool.or_eq_false_iff] at clear
    obtain ⟨⟨⟨thenBare, elseBare⟩, thenClear⟩, elseClear⟩ := clear
    obtain ⟨cond, block, u, v, v', w, w', forks⟩ := ifElse_ok local_ run
    obtain ⟨traces, only⟩ := forks.traced local_ traced
      (fun start =>
        (lowerStmt_traced env thenBranch forks.thenLocal start thenClear forks.thenRun).1)
      (fun start =>
        (lowerStmt_traced env thenBranch forks.thenLocal start thenClear forks.thenRun).2 thenBare)
      (fun start =>
        (lowerOptional_traced env elseBranch forks.elseLocal start elseClear forks.elseRun).1)
      (fun start =>
        (lowerOptional_traced env elseBranch forks.elseLocal start elseClear forks.elseRun).2
          elseBare)
    exact ⟨traces, fun _ => only⟩
  | .ret value span, scope, s, t, D, cur, local_, traced, clear, run => by
    rw [lowerStmt] at run
    obtain ⟨traced', only⟩ := lowerReturn_traced local_ traced run
    exact ⟨traced'.traces, fun _ => only⟩
  | .vars kind declarators span, scope, s, t, D, cur, local_, traced, clear, run => by
    rw [lowerStmt] at run
    obtain ⟨traced', only⟩ := declarators_traced kind local_ traced run
    exact ⟨traced'.traces, fun plain => only (by simpa [Stmt.isConst] using plain)⟩
  | .whileLoop .., _, _, _, _, _, _, traced, _, run
  | .breakLoop .., _, _, _, _, _, _, traced, _, run
  | .continueLoop .., _, _, _, _, _, _, traced, _, run
  | .empty .., _, _, _, _, _, _, traced, _, run => by
    rw [lowerStmt] at run
    exact skip_traced traced run

theorem lowerOptional_traced (env : Environment) : ∀ (stmt : Option Stmt) {scope : ScopeId}
    {s t : BodyState} {D : BlockId → BlockId → Prop} {cur : BlockId},
      s.Local scope → s.Traced D cur →
      Stmt.bareBranchOptional Stmt.isConst stmt = false →
        lowerOptional env scope stmt s = .ok () t →
          s.Traces D cur t ∧ (stmt.any Stmt.isConst = false → s.OnlySlots t)
  | none, scope, s, t, D, cur, local_, traced, clear, run => by
    rw [lowerOptional] at run
    cases run
    exact ⟨traced.traces, fun _ => .of_lookups fun _ _ => rfl⟩
  | some stmt, scope, s, t, D, cur, local_, traced, clear, run => by
    rw [lowerOptional] at run
    rw [Stmt.bareBranchOptional] at clear
    exact lowerStmt_traced env stmt local_ traced clear run

theorem lowerStmts_traced (env : Environment) : ∀ (stmts : List Stmt) {scope : ScopeId}
    {s t : BodyState} {D : BlockId → BlockId → Prop} {cur : BlockId},
      s.Local scope → s.Traced D cur →
      Stmt.bareBranches Stmt.isConst stmts = false → lowerStmts env scope stmts s = .ok () t →
        s.Traces D cur t
  | [], scope, s, t, D, cur, local_, traced, clear, run => by
    rw [lowerStmts] at run
    cases run
    exact traced.traces
  | stmt :: rest, scope, s, t, D, cur, local_, traced, clear, run => by
    rw [Stmt.bareBranches, Bool.or_eq_false_iff] at clear
    obtain ⟨u, first, onward⟩ := lowerStmts_cons_cases local_ run
    obtain ⟨names, -, done, -⟩ := (lowerStmt_foretold env stmt scope s local_).of_ok first
    refine (lowerStmt_traced env stmt local_ traced clear.1 first).1.trans (fun traced' => ?_)
      (BodyState.next_le done.2)
    rcases onward with ⟨-, -, journal, rfl⟩ | ⟨-, local', run⟩
    · exact ⟨_, _, ⟨traced'.account, traced'.current, traced'.bound⟩, .refl u _ _⟩
    · exact lowerStmts_traced env rest local' traced' clear.2 run

end

/-! ## Bodies -/

theorem ScopeTable.lookupIn_bindParams {other : ScopeId} {x : Symbol}
    {bound : BoundValue} : ∀ {params : List Param} {values : List ValueId} {table : ScopeTable},
    (table.bindParams scope params values).lookupIn other x = some bound →
      table.lookupIn other x = some bound ∨ ∃ id ∈ values, bound = .direct (.value id)
  | [], _, _, here => Or.inl here
  | _ :: _, [], _, here => Or.inl here
  | param :: params, value :: values, table, here => by
    rw [bindParams] at here
    rcases lookupIn_bindParams here with before | ⟨id, member, same⟩
    · rw [lookupIn_assign] at before
      split at before
      · cases before
        exact Or.inr ⟨value, List.mem_cons_self, rfl⟩
      · exact Or.inl before
    · exact Or.inr ⟨id, List.mem_cons_of_mem _ member, same⟩

/-- At the start of a body a binding is one from around it, or that of a parameter. -/
theorem BodyState.Starts.lookupIn {params : List Param} {tys : List Ty}
    (starts : s.Starts scope params tys t) {other : ScopeId} {x : Symbol} {bound : BoundValue}
    (here : t.context.scopes.lookupIn other x = some bound) :
    s.context.scopes.lookupIn other x = some bound ∨
      ∃ id ∈ s.builder.function.params, bound = .direct (.value id) := by
  rw [starts.context] at here
  rcases ScopeTable.lookupIn_bindParams here with before | param
  · exact Or.inl (s.lookupIn_entered scope other x ▸ before)
  · exact Or.inr param

/-- A parameter is provided everywhere. -/
theorem Ir.Function.WellFormed.provides_param {m : Module} {f g : Function} (ok : f.WellFormed m)
    (grown : f.Extends g) {id : ValueId} (member : id ∈ f.params) {block : BlockId}
    {before : List Instruction} : g.Provides D block before id := by
  rw [ok.params] at member
  obtain ⟨i, bound, rfl⟩ := List.mem_map.1 member
  obtain ⟨name, known⟩ := ok.paramValue i _ (List.getElem?_eq_getElem (List.mem_range.1 bound))
  obtain ⟨name', known'⟩ := grown.values _ _ known
  refine ⟨_, known', fun home origin => ?_⟩
  cases origin

/-- The account of a function with an entry block and nothing else. -/
theorem Ir.Function.dominance_entry {f : Function} {label : String}
    (entry : f.blocks = [⟨label, [], none⟩]) :
    f.Dominance fun v d => v = ⟨0⟩ ∧ d = ⟨0⟩ := by
  have known {id : BlockId} {code : List Instruction} {last : Option Terminator}
      (here : f.content id = some (code, last)) : code = [] ∧ last = none := by
    obtain ⟨data, present, rfl, rfl⟩ := Function.content_eq_some.1 here
    rw [Function.block?, entry] at present
    obtain rfl : data = ⟨label, [], none⟩ := List.mem_singleton.1 (List.mem_of_getElem? present)
    exact ⟨rfl, rfl⟩
  have first {v : BlockId} (bound : v.index < f.blocks.length) : v = ⟨0⟩ := by
    rw [entry] at bound
    cases v
    simpa using bound
  refine .of_content ?_ ?_ ?_ ?_ ?_ ?_ ?_
  · exact fun d dom => dom.2
  · rintro v d ⟨rfl, rfl⟩
    simp [entry]
  · exact fun v bound => ⟨first bound, first bound⟩
  · exact fun v bound => ⟨first bound, rfl⟩
  · intro u code t v d here
    cases (known here).2
  · intro id code last before inst after v here split_
    rw [(known here).1] at split_
    simp at split_
  · intro id code t v here
    cases (known here).2

/-- A body starts with names for its parameters alone. -/
theorem BodyState.Starts.traced {params : List Param} {tys : List Ty} {ty : Ir.FunctionTy}
    (starts : s.Starts scope params tys t) (declared : s.Declared scope ty)
    (fresh : ∀ id, ¬ s.Bound id) : t.Traced (fun v d => v = ⟨0⟩ ∧ d = ⟨0⟩) ⟨0⟩ where
  account := by
    obtain ⟨label, entry⟩ := starts.entry
    exact Function.dominance_entry entry
  current := starts.current
  bound := fun code last _ id ⟨other, x, bound, here, named⟩ => by
    rcases starts.lookupIn here with before | ⟨id', member, rfl⟩
    · exact absurd ⟨other, x, bound, before, named⟩ (fresh id)
    · cases named
      exact declared.sound.function.provides_param starts.function member

/-- The end of a body reads nothing and leads nowhere. -/
theorem BodyState.Sealed.account {span : FileSpan} (sealed : s.Sealed span t)
    (account : s.builder.function.Dominance D) : t.builder.function.Dominance D := by
  cases sealed with
  | ended ended => exact account
  | fell selected context =>
    obtain ⟨-, data, known, unended⟩ := selected
    refine account.close known unended (fun id read => ?_) fun v target => ?_
    · unfold Ir.Builder.fallOff at read
      split at read <;> simp [Ir.Terminator.operands] at read
    · unfold Ir.Builder.fallOff at target
      split at target <;> simp [Ir.Terminator.successors] at target

/-- Without a bare `const` branch, every use of a finished body is dominated. -/
theorem buildBody_dominance {decl : FunctionDecl} {ty : Ir.FunctionTy} {stmts : List Stmt}
    (declared : s.Declared scope ty) (count : decl.params.length = ty.params.length)
    (fresh : ∀ id, ¬ s.Bound id) (clear : Stmt.bareBranches Stmt.isConst stmts = false)
    (run : buildBody env scope decl stmts s = .ok () t) :
    ∃ D, t.builder.function.Dominance D := by
  obtain ⟨p, q, starts, body, sealed⟩ := buildBody_ok declared count run
  have traced := starts.traced declared fresh
  obtain ⟨D, cur, traced', -⟩ := lowerStmts_traced env stmts starts.local_ traced clear body
  exact ⟨D, sealed.account traced'.account⟩

end SsaLowering
