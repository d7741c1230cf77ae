/-
# SsaLowering.Proofs.Ir.Unfolding -- blocks that grow out of one open block

`Builder.Unfolds start pending b c` is the discipline of structured code.  On the way from
`b` to `c` the open block `start` was filled, and blocks were created behind it; those in
`pending` are still to be filled.  Every other new block has ended, unless it is where the
builder is now, `start` has ended if the builder has left it, and all other blocks are as
they were, open ones too: only slots may have come to the top of the entry block.

The discipline composes: what grows out of the block that is selected in `c` grows out of
`start` (`Unfolds.trans`).  No old block but `start` branches to a new one, unless a branch of
`b` led to a block that was not there yet (`Unfolds.predecessors`), and no builder makes such
a branch (`Construction.run_branchesInside`).
-/
import SsaLowering.Proofs.Ir.Atomicity
import SsaLowering.Proofs.Ir.Reachability

namespace SsaLowering.Ir

set_option autoImplicit false

/-! ## Blocks that are left alone -/

/-- The block `id` keeps its label and its end, if it has one, and gains nothing but slots. -/
structure BasicBlock.KeptAs (id : BlockId) (block later : BasicBlock) : Prop where
  label : later.name = block.name
  terminator : later.terminator = block.terminator
  instructions : BasicBlock.Reserves id block.instructions later.instructions

namespace BasicBlock.KeptAs

variable {id : BlockId} {block middle later : BasicBlock}

theorem refl (id : BlockId) (block : BasicBlock) : block.KeptAs id block :=
  ⟨rfl, rfl, .refl id block.instructions⟩

theorem trans (first : block.KeptAs id middle) (second : middle.KeptAs id later) :
    block.KeptAs id later where
  label := second.label.trans first.label
  terminator := second.terminator.trans first.terminator
  instructions := first.instructions.trans second.instructions

end BasicBlock.KeptAs

/-- No branch leads out of the function. -/
def Function.BranchesInside (f : Function) : Prop :=
  ∀ block target, target ∈ f.successors block → target.index < f.blocks.length

namespace Builder

variable {b c d : Builder} {start mid id : BlockId} {pending rest : List BlockId}

/-- On the way from `b` to `c` the block `id` was created. -/
def Creates (b c : Builder) (id : BlockId) : Prop :=
  b.function.blocks.length ≤ id.index ∧ id.index < c.function.blocks.length

/-- Between `b` and `c` the block `start` was filled, and blocks grew out of it; those in
`pending` are created but not yet entered. -/
structure Unfolds (start : BlockId) (pending : List BlockId) (b c : Builder) : Prop where
  inside : start.index < b.function.blocks.length
  longer : b.function.blocks.length ≤ c.function.blocks.length
  selected : ∃ id, c.current = some id ∧ id ∉ pending ∧ (id = start ∨ b.Creates c id)
  finished : ∀ id, b.Creates c id → c.current ≠ some id → id ∉ pending → c.hasTerminator id
  waiting : ∀ id ∈ pending, b.Creates c id ∧ c.hasTerminator id = false
  left : c.current ≠ some start → c.hasTerminator start
  kept : ∀ id block, id ≠ start → b.function.block? id = some block →
    ∃ later, c.function.block? id = some later ∧ block.KeptAs id later

/-! ## What an end is -/

theorem hasTerminator_of_block {block : BasicBlock} (known : b.function.block? id = some block) :
    b.hasTerminator id = block.terminator.isSome := by
  rw [hasTerminator, known, Option.bind_some]

theorem isTerminated_of_current (current : b.current = some id) :
    b.isTerminated = b.hasTerminator id := by
  rw [isTerminated, current]

theorem exists_block (inside : id.index < b.function.blocks.length) :
    ∃ block, b.function.block? id = some block :=
  ⟨_, List.getElem?_eq_getElem inside⟩

theorem open_of_not_hasTerminator (current : b.current = some id)
    (inside : id.index < b.function.blocks.length) (unended : b.hasTerminator id = false) :
    b.Open id := by
  obtain ⟨block, known⟩ := exists_block inside
  rw [hasTerminator_of_block known, Option.isSome_eq_false_iff, Option.isNone_iff_eq_none] at unended
  exact ⟨current, block, known, unended⟩

theorem length_appendBlock (b : Builder) (name : String) :
    (b.appendBlock name).2.function.blocks.length = b.function.blocks.length + 1 :=
  Function.length_addBlock _ _

theorem block?_appendBlock_old (name : String) (old : id.index < b.function.blocks.length) :
    (b.appendBlock name).2.function.block? id = b.function.block? id :=
  (Function.block?_addBlock _ _ id).trans (if_neg (Nat.ne_of_lt old))

theorem block?_appendBlock_new (b : Builder) (name : String) :
    ∃ label, (b.appendBlock name).2.function.block? (b.appendBlock name).1 =
      some ⟨label, [], none⟩ :=
  ⟨_, (Function.block?_addBlock _ _ _).trans (if_pos rfl)⟩

namespace Unfolds

/-! ## Composition -/

/-- The selected block exists. -/
theorem current_inside (unfolds : Unfolds start pending b c) (current : c.current = some id) :
    id.index < c.function.blocks.length := by
  obtain ⟨id', current', -, here⟩ := unfolds.selected
  obtain rfl : id = id' := Option.some.inj (current.symm.trans current')
  rcases here with rfl | created
  · exact Nat.lt_of_lt_of_le unfolds.inside unfolds.longer
  · exact created.2

theorem hasTerminator_kept (unfolds : Unfolds start pending b c) (other : id ≠ start)
    (inside : id.index < b.function.blocks.length) : c.hasTerminator id = b.hasTerminator id := by
  obtain ⟨block, known⟩ := exists_block inside
  obtain ⟨later, known', kept⟩ := unfolds.kept id block other known
  rw [hasTerminator_of_block known, hasTerminator_of_block known', kept.terminator]

/-- What grows out of the selected block grows out of the block where all began. -/
theorem trans (first : Unfolds start pending b c) (current : c.current = some mid)
    (second : Unfolds mid [] c d) : Unfolds start pending b d := by
  obtain ⟨mid', current', entered, origin⟩ := first.selected
  obtain rfl : mid = mid' := Option.some.inj (current.symm.trans current')
  have growing {id : BlockId} (created : b.Creates c id) : b.Creates d id :=
    ⟨created.1, Nat.lt_of_lt_of_le created.2 second.longer⟩
  -- a block that is not new behind `c` and not its selected one is as it was in `c`
  have same {id : BlockId} (other : id ≠ mid) (old : id.index < c.function.blocks.length) :
      d.hasTerminator id = c.hasTerminator id := second.hasTerminator_kept other old
  refine ⟨first.inside, first.longer.trans second.longer, ?selected, ?finished, ?waiting, ?left,
    ?kept⟩
  case selected =>
    obtain ⟨id, here, -, rfl | created⟩ := second.selected
    · exact ⟨id, here, entered, origin.imp_right growing⟩
    · refine ⟨id, here, fun waits => ?_, .inr ⟨first.longer.trans created.1, created.2⟩⟩
      exact absurd (first.waiting id waits).1.2 (Nat.not_lt.2 created.1)
  case finished =>
    intro id created elsewhere passed
    rcases Nat.lt_or_ge id.index c.function.blocks.length with old | new
    · by_cases here : id = mid
      · subst here
        exact second.left elsewhere
      · rw [same here old]
        refine first.finished id ⟨created.1, old⟩ ?_ passed
        rw [current]
        exact fun selected => here (Option.some.inj selected).symm
    · exact second.finished id ⟨new, created.2⟩ elsewhere List.not_mem_nil
  case waiting =>
    intro id waits
    obtain ⟨created, unended⟩ := first.waiting id waits
    have other : id ≠ mid := fun here => entered (here ▸ waits)
    exact ⟨growing created, (same other created.2).trans unended⟩
  case left =>
    intro elsewhere
    by_cases here : start = mid
    · subst here
      exact second.left elsewhere
    · rw [same here (Nat.lt_of_lt_of_le first.inside first.longer)]
      apply first.left
      rw [current]
      exact fun selected => here (Option.some.inj selected).symm
  case kept =>
    intro id block other known
    obtain ⟨later, known', kept⟩ := first.kept id block other known
    have away : id ≠ mid := by
      rintro rfl
      rcases origin with here | created
      · exact other here
      · exact absurd (Function.lt_of_block? known) (Nat.not_lt.2 created.1)
    obtain ⟨last, known', kept'⟩ := second.kept id later away known'
    exact ⟨last, known', kept.trans kept'⟩

/-! ## Blocks that are created and entered -/

/-- A new block, to be entered later. -/
theorem appendBlock (unfolds : Unfolds start pending b c) (name : String) :
    Unfolds start (pending ++ [(c.appendBlock name).1]) b (c.appendBlock name).2 := by
  obtain ⟨id, current, entered, origin⟩ := unfolds.selected
  have inside := unfolds.current_inside current
  have longer := c.length_appendBlock name
  have old {other : BlockId} (before : other.index < c.function.blocks.length) :
      (c.appendBlock name).2.hasTerminator other = c.hasTerminator other := by
    rw [hasTerminator, hasTerminator, block?_appendBlock_old name before]
  have growing {other : BlockId} (created : b.Creates c other) :
      b.Creates (c.appendBlock name).2 other :=
    ⟨created.1, by rw [longer]; exact Nat.lt_succ_of_lt created.2⟩
  refine ⟨unfolds.inside, by rw [longer]; exact Nat.le_succ_of_le unfolds.longer,
    ⟨id, current, ?_, origin.imp_right growing⟩, ?finished, ?waiting, ?left, ?kept⟩
  · rw [List.mem_append, List.mem_singleton, not_or]
    refine ⟨entered, ?_⟩
    rintro rfl
    exact Nat.lt_irrefl _ inside
  case finished =>
    intro other created elsewhere passed
    rw [List.mem_append, List.mem_singleton, not_or] at passed
    have before : other.index < c.function.blocks.length := by
      have bound := created.2
      rw [longer] at bound
      refine Nat.lt_of_le_of_ne (Nat.le_of_lt_succ bound) fun here => passed.2 ?_
      cases other
      exact congrArg BlockId.mk here
    rw [old before]
    exact unfolds.finished other ⟨created.1, before⟩ elsewhere passed.1
  case waiting =>
    intro other waits
    rcases List.mem_append.1 waits with waits | here
    · obtain ⟨created, unended⟩ := unfolds.waiting other waits
      exact ⟨growing created, (old created.2).trans unended⟩
    · obtain rfl := List.mem_singleton.1 here
      refine ⟨⟨unfolds.longer, by rw [longer]; exact Nat.lt_succ_self _⟩, ?_⟩
      obtain ⟨label, known⟩ := c.block?_appendBlock_new name
      rw [hasTerminator_of_block known]
      rfl
  case left =>
    intro elsewhere
    rw [old (Nat.lt_of_lt_of_le unfolds.inside unfolds.longer)]
    exact unfolds.left elsewhere
  case kept =>
    intro other block differs known
    obtain ⟨later, known', grown⟩ := unfolds.kept other block differs known
    exact ⟨later, (block?_appendBlock_old name (Function.lt_of_block? known')).trans known', grown⟩

/-- A block that has ended is left for a pending one. -/
theorem enter (unfolds : Unfolds start (id :: rest) b c) (ended : c.isTerminated = true)
    (once : id ∉ rest) : Unfolds start rest b (c.at_ id) := by
  obtain ⟨last, current, -, -⟩ := unfolds.selected
  rw [isTerminated_of_current current] at ended
  obtain ⟨created, unended⟩ := unfolds.waiting id List.mem_cons_self
  refine ⟨unfolds.inside, unfolds.longer, ⟨id, rfl, once, .inr created⟩, ?finished, ?waiting,
    ?left, unfolds.kept⟩
  case finished =>
    intro other created elsewhere passed
    have differs : other ≠ id := fun here => elsewhere (congrArg some here.symm)
    by_cases here : other = last
    · rw [here]
      exact ended
    · refine unfolds.finished other created ?_ ?_
      · rw [current]
        exact fun same => here (Option.some.inj same).symm
      · rw [List.mem_cons, not_or]
        exact ⟨differs, passed⟩
  case waiting => exact fun other waits => unfolds.waiting other (List.mem_cons_of_mem id waits)
  case left =>
    intro _
    by_cases here : start = last
    · rw [here]
      exact ended
    · apply unfolds.left
      rw [current]
      exact fun same => here (Option.some.inj same).symm

/-- A pending block is open once it is entered. -/
theorem open_at (unfolds : Unfolds start (id :: rest) b c) : (c.at_ id).Open id := by
  obtain ⟨created, unended⟩ := unfolds.waiting id List.mem_cons_self
  exact open_of_not_hasTerminator (b := c.at_ id) rfl created.2 unended

/-- Where nothing has ended the selected block is open. -/
theorem open_current (unfolds : Unfolds start pending b c) (unended : c.isTerminated = false) :
    ∃ id, c.Open id := by
  obtain ⟨id, current, -, -⟩ := unfolds.selected
  rw [isTerminated_of_current current] at unended
  exact ⟨id, open_of_not_hasTerminator current (unfolds.current_inside current) unended⟩

/-! ## Predecessors -/

/-- A block that is left alone leads where it led before. -/
theorem successors_kept (unfolds : Unfolds start pending b c) (other : id ≠ start)
    (inside : id.index < b.function.blocks.length) :
    c.function.successors id = b.function.successors id := by
  obtain ⟨block, known⟩ := exists_block inside
  obtain ⟨later, known', kept⟩ := unfolds.kept id block other known
  rw [Function.successors, Function.successors, known, known', Option.bind_some, Option.bind_some,
    kept.terminator]

/-- A block that is created is entered from the blocks that were created with it and from the
one where all began. -/
theorem predecessors (unfolds : Unfolds start pending b c) (inside : b.function.BranchesInside)
    {block : BlockId} (created : b.Creates c id) (edge : id ∈ c.function.successors block) :
    block = start ∨ b.Creates c block := by
  by_cases here : block = start
  · exact .inl here
  · refine .inr ⟨Nat.le_of_not_lt fun old => ?_, Function.lt_of_mem_successors edge⟩
    rw [unfolds.successors_kept here old] at edge
    exact absurd (inside block id edge) (Nat.not_lt.2 created.1)

end Unfolds

/-! ## Work at the open block -/

/-- A change of the open block alone, or of the slots at the top of the entry block. -/
theorem Open.unfolds (opened : b.Open start) (current : c.current = b.current)
    (count : c.function.blocks.length = b.function.blocks.length)
    (kept : ∀ id block, id ≠ start → b.function.block? id = some block →
      ∃ later, c.function.block? id = some later ∧ block.KeptAs id later) :
    Unfolds start [] b c := by
  obtain ⟨block, known, -⟩ := opened.unended
  have here : c.current = some start := current.trans opened.current
  refine ⟨Function.lt_of_block? known, Nat.le_of_eq count.symm,
    ⟨start, here, List.not_mem_nil, .inl rfl⟩, ?_, ?_, ?_, kept⟩
  · intro id created
    exact absurd created.2 (count ▸ Nat.not_lt.2 created.1)
  · exact fun id absent => absurd absent List.not_mem_nil
  · exact fun elsewhere => absurd here elsewhere

theorem Open.unfolds_self (opened : b.Open start) : Unfolds start [] b b :=
  opened.unfolds rfl rfl fun id block _ known => ⟨block, known, .refl id block⟩

theorem Open.unfolds_push (opened : b.Open start) (action : Action) (ty : Option Ty) :
    Unfolds start [] b { b with function := b.function.push start action ty } := by
  refine opened.unfolds rfl (List.length_modify ..) fun id block other known => ?_
  refine ⟨block, ?_, .refl id block⟩
  rw [Function.block?_push, known, Option.map_some, if_neg (Ne.symm other)]

theorem Open.unfolds_closed (opened : b.Open start) (terminator : Terminator) :
    Unfolds start [] b (b.closed start terminator) := by
  refine opened.unfolds rfl (List.length_modify ..) fun id block other known => ?_
  refine ⟨block, ?_, .refl id block⟩
  rw [closed, Function.block?_close, known, Option.map_some, if_neg (Ne.symm other)]

/-- A name for a value changes no block. -/
theorem Open.nameValue {value : ValueId} {name : String} {named : Bool} (opened : b.Open start)
    (done : b.nameValue value name = .ok (named, c)) : Unfolds start [] b c ∧ c.Open start := by
  obtain ⟨data, known, ⟨-, -, rfl⟩ | ⟨-, -, rfl⟩⟩ := nameValue_ok.1 done
  · exact ⟨opened.unfolds_self, opened⟩
  · exact ⟨opened.unfolds rfl rfl fun id block _ known => ⟨block, known, .refl id block⟩,
      opened.current, opened.unended⟩

/-- A slot goes to the entry block, wherever the builder is. -/
theorem Open.alloca {ty : Ty} {name : String} {ptr : ValueId} (opened : b.Open start)
    (done : b.alloca ty name = .ok (ptr, c)) : Unfolds start [] b c ∧ c.Open start := by
  obtain ⟨-, -, -, rfl⟩ := alloca_ok.1 done
  constructor
  · refine opened.unfolds rfl (List.length_modify ..) fun id block other known => ?_
    refine ⟨_, (Function.block?_reserve _ ty _ id).trans (congrArg _ known), ?_⟩
    split
    · rename_i entry
      subst entry
      exact ⟨rfl, rfl, block.reserves_insertSlot rfl⟩
    · exact .refl id block
  · obtain ⟨block, known, unended⟩ := opened.unended
    refine ⟨opened.current, _, (Function.block?_reserve _ ty _ start).trans (congrArg _ known), ?_⟩
    split <;> exact unended

/-- An instruction goes to the end of the open block. -/
theorem Open.emit {action : Action} {signature : Option FunctionTy} {result : Option ValueId}
    (opened : b.Open start) (done : b.emit action signature = .ok (result, c)) :
    Unfolds start [] b c ∧ c.Open start := by
  obtain ⟨block, ty, selected, -, -, rfl⟩ := emit_ok.1 done
  obtain rfl := Option.some.inj (opened.current.symm.trans selected.current)
  exact ⟨opened.unfolds_push action ty, opened.push action ty⟩

theorem Open.emitValue {action : Action} {value : ValueId} (opened : b.Open start)
    (done : b.emitValue action = .ok (value, c)) : Unfolds start [] b c ∧ c.Open start := by
  obtain ⟨block, ty, selected, -, -, rfl⟩ := emitValue_ok.1 done
  obtain rfl := Option.some.inj (opened.current.symm.trans selected.current)
  exact ⟨opened.unfolds_push action _, opened.push action _⟩

theorem Open.store {value ptr : Operand} (opened : b.Open start)
    (done : b.store value ptr = .ok c) : Unfolds start [] b c ∧ c.Open start := by
  obtain ⟨block, selected, -, rfl⟩ := store_ok.1 done
  obtain rfl := Option.some.inj (opened.current.symm.trans selected.current)
  exact ⟨opened.unfolds_push _ none, opened.push _ none⟩

end Builder

/-! ## Builders that were made by operations -/

theorem Function.targets_of_checked {f : Function} {terminator : Terminator}
    (checked : f.checkTerminator terminator = .ok ()) {target : BlockId}
    (member : target ∈ terminator.successors) : target.index < f.blocks.length := by
  unfold checkTerminator at checked
  split at checked
  · exact absurd checked except_throw_ok
  · rename_i known
    have exists_ := List.find?_eq_none.1 known target member
    rw [Bool.not_eq_true, Option.isNone_eq_false_iff, Option.isSome_iff_exists] at exists_
    obtain ⟨block, known⟩ := exists_
    exact lt_of_block? known

/-- No sequence of operations makes a branch that leads out of the function. -/
theorem Construction.run_branchesInside (name : String) (ty : FunctionTy) (ops : List Operation) :
    ((start name ty).run ops).builder.function.BranchesInside := by
  intro block target edge
  rw [Function.successors] at edge
  split at edge
  · rename_i terminator ended
    obtain ⟨data, known, ended⟩ := Option.bind_eq_some_iff.1 ended
    have checked := (recorded_run name ty ops).layout.terminated block data terminator known ended
    exact Function.targets_of_checked checked edge
  · cases edge

end SsaLowering.Ir
