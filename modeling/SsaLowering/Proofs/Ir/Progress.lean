/-
# SsaLowering.Proofs.Ir.Progress -- how a builder moves on

`Builder.Advances b c` says that `c` was reached from `b` by finished constructs:
blocks that were not selected are untouched, the selection stays or moves to a
new block, and every block that is left has ended.  `Builder.Emits` is the case
of instructions at the end of the selected block, each of which reads values that
are usable there.
-/
import SsaLowering.Proofs.Ir.WellFormed

namespace SsaLowering.Ir

set_option autoImplicit false

theorem Function.Extends.length_le {f g : Function} (grown : f.Extends g) :
    f.blocks.length ≤ g.blocks.length := by
  rcases Nat.eq_zero_or_pos f.blocks.length with empty | some_
  · omega
  · have last : (f.block? ⟨f.blocks.length - 1⟩).isSome := by
      rw [Function.block?, isSome_getElem?]
      show f.blocks.length - 1 < f.blocks.length
      omega
    obtain ⟨block, known⟩ := Option.isSome_iff_exists.1 (grown.isSome_block? last)
    have bound := Function.lt_of_block? known
    simp only [] at bound
    omega

namespace Builder

variable {b c d : Builder}

/-! ## Selection -/

/-- The selected block exists. -/
def Placed (b : Builder) : Prop :=
  ∃ block data, b.current = some block ∧ b.function.block? block = some data

theorem Open.placed {block : BlockId} (selected : b.Open block) : b.Placed := by
  obtain ⟨current, data, known, -⟩ := selected
  exact ⟨block, data, current, known⟩

theorem isTerminated_of_block {block : BlockId} {data : BasicBlock}
    (current : b.current = some block) (known : b.function.block? block = some data) :
    b.isTerminated = data.terminator.isSome := by
  rw [isTerminated, current]
  simp only [hasTerminator, known, Option.bind_some]

theorem Open.not_terminated {block : BlockId} (selected : b.Open block) :
    b.isTerminated = false := by
  obtain ⟨current, data, known, unended⟩ := selected
  rw [isTerminated_of_block current known, unended]
  rfl

theorem Placed.open (placed : b.Placed) (unended : b.isTerminated = false) :
    ∃ block, b.Open block := by
  obtain ⟨block, data, current, known⟩ := placed
  rw [isTerminated_of_block current known] at unended
  exact ⟨block, current, data, known, by simpa using unended⟩

/-! ## Finished constructs -/

/-- Every block has ended, save the selected one and those in `pending`. -/
def EndedExcept (b : Builder) (pending : BlockId → Prop) : Prop :=
  ∀ id data, b.function.block? id = some data → b.current ≠ some id → ¬ pending id →
    data.terminator.isSome

/-- What of a block is fixed once the block is left: its code and its end. -/
def content (b : Builder) (id : BlockId) : Option (List Instruction × Option Terminator) :=
  (b.function.block? id).map fun data => (data.code, data.terminator)

/-- `c` was reached from `b` by finished constructs. -/
structure Advances (b c : Builder) : Prop where
  function : b.function.Extends c.function
  frozen : ∀ id, b.current ≠ some id → id.index < b.function.blocks.length →
    c.content id = b.content id
  selected : c.current = b.current ∨
    ∃ id data, c.current = some id ∧ b.function.blocks.length ≤ id.index ∧
      c.function.block? id = some data
  ended : ∀ pending, b.EndedExcept pending → c.EndedExcept pending

theorem Advances.refl (b : Builder) : b.Advances b where
  function := .refl _
  frozen := fun _ _ _ => rfl
  selected := Or.inl rfl
  ended := fun _ done => done

theorem Advances.trans (first : b.Advances c) (second : c.Advances d) : b.Advances d where
  function := first.function.trans second.function
  frozen := fun id other old => by
    have elsewhere : c.current ≠ some id := by
      rcases first.selected with same | ⟨new, -, moved, beyond, -⟩
      · rwa [same]
      · rw [moved]
        rintro ⟨rfl⟩
        omega
    rw [second.frozen id elsewhere (Nat.lt_of_lt_of_le old first.function.length_le),
      first.frozen id other old]
  selected := by
    have longer := first.function.length_le
    rcases second.selected with same | ⟨id, data, moved, beyond, known⟩
    · rcases first.selected with same' | ⟨id, data, moved, beyond, known⟩
      · exact Or.inl (same.trans same')
      · obtain ⟨data', known', -⟩ := second.function.blocks id data known
        exact Or.inr ⟨id, data', same.trans moved, beyond, known'⟩
    · exact Or.inr ⟨id, data, moved, Nat.le_trans longer beyond, known⟩
  ended := fun pending done => second.ended pending (first.ended pending done)

theorem Advances.placed (advances : b.Advances c) (placed : b.Placed) : c.Placed := by
  rcases advances.selected with same | ⟨id, data, moved, -, known⟩
  · obtain ⟨block, data, current, known⟩ := placed
    obtain ⟨data', known', -⟩ := advances.function.blocks block data known
    exact ⟨block, data', same.trans current, known'⟩
  · exact ⟨id, data, moved, known⟩

/-- A change that leaves all blocks but the selected one alone. -/
theorem Advances.of_content (grown : b.function.Extends c.function)
    (current : c.current = b.current)
    (same : ∀ id, b.current ≠ some id → c.content id = b.content id) : b.Advances c where
  function := grown
  frozen := fun id other _ => same id other
  selected := Or.inl current
  ended := fun pending done id data known other outside => by
    rw [current] at other
    have kept := same id other
    simp only [content, known, Option.map_some] at kept
    obtain ⟨data', known', view⟩ := Option.map_eq_some_iff.1 kept.symm
    have ends : data'.terminator = data.terminator := (Prod.mk.inj view).2
    rw [← ends]
    exact done id data' known' other outside

/-! ## Instructions at the end of the selected block -/

/-- A value is given, or the address of a slot, or an instruction of the selected block
has defined it. -/
def Usable (given : ValueId → Prop) (b : Builder) (id : ValueId) : Prop :=
  given id ∨ (b.function.slotTy? (.value id)).isSome ∨
    ∃ block data inst, b.current = some block ∧ b.function.block? block = some data ∧
      inst ∈ data.code ∧ inst.result = some id

/-- Instructions were added at the end of the selected block, under the signatures of `m`,
and each reads values that were usable there. -/
inductive Emits (m : Module) (given : ValueId → Prop) (b : Builder) : Builder → Prop
  | refl : Emits m given b b
  | push {c : Builder} {block : BlockId} {action : Action} {ty : Option Ty}
      (before : Emits m given b c) (selected : c.Open block) (effect : action.isAlloca = false)
      (checked : c.function.checkAction (Function.signatureFor m action) action = .ok ty)
      (usable : ∀ id, .value id ∈ action.operands → c.Usable given id) :
      Emits m given b { c with function := c.function.push block action ty }

variable {m : Module} {given : ValueId → Prop}

theorem Emits.trans (first : Emits m given b c) (second : Emits m given c d) :
    Emits m given b d := by
  induction second with
  | refl => exact first
  | push _ selected effect checked usable ih =>
    exact .push ih selected effect checked usable

theorem Emits.congr {m' : Module} {given' : ValueId → Prop} (emits : Emits m given b c)
    (same : Function.signatureFor m' = Function.signatureFor m)
    (more : ∀ id, given id → given' id) : Emits m' given' b c := by
  induction emits with
  | refl => exact .refl
  | push _ selected effect checked usable ih =>
    exact .push ih selected effect (same ▸ checked) fun id read =>
      (usable id read).imp_left (more id)

theorem Emits.current (emits : Emits m given b c) : c.current = b.current := by
  induction emits with
  | refl => rfl
  | push _ _ _ _ _ ih => exact ih

theorem extends_push_open {block : BlockId} (selected : b.Open block) (action : Action)
    (ty : Option Ty) : b.function.Extends (b.function.push block action ty) := by
  obtain ⟨-, data, known, unended⟩ := selected
  exact Function.extends_push known unended action ty

theorem Emits.function (emits : Emits m given b c) : b.function.Extends c.function := by
  induction emits with
  | refl => exact .refl _
  | push _ selected _ _ _ ih => exact ih.trans (extends_push_open selected _ _)

theorem Open.push {block : BlockId} (selected : b.Open block) (action : Action)
    (ty : Option Ty) :
    Open { b with function := b.function.push block action ty } block := by
  obtain ⟨current, data, known, unended⟩ := selected
  refine ⟨current, data.append ⟨ty.map fun _ => ⟨b.function.values.length⟩, action⟩, ?_, unended⟩
  rw [Function.block?_push, known, Option.map_some, if_pos rfl]

theorem Emits.open (emits : Emits m given b c) {block : BlockId} (selected : b.Open block) :
    c.Open block := by
  induction emits with
  | refl => exact selected
  | push _ here _ _ _ ih =>
    obtain rfl := Option.some.inj (here.current.symm.trans ih.current)
    exact here.push _ _

theorem Emits.wellFormed (emits : Emits m given b c) (ok : b.function.WellFormed m) :
    c.function.WellFormed m := by
  induction emits with
  | refl => exact ok
  | push _ selected effect checked _ ih =>
    obtain ⟨-, data, known, unended⟩ := selected
    exact Function.wellFormed_push ih known unended effect checked

theorem Emits.advances (emits : Emits m given b c) : b.Advances c := by
  refine .of_content emits.function emits.current ?_
  induction emits with
  | refl => exact fun _ _ => rfl
  | push before selected _ _ _ ih =>
    intro id other
    have elsewhere : ¬ _ = id := fun here =>
      other (before.current ▸ here ▸ selected.current)
    rw [← ih id other, content, content, Function.block?_push, Option.map_map]
    refine congrArg (Option.map · _) (funext fun data => ?_)
    rw [Function.comp_apply, if_neg elsewhere]

/-- What is usable stays usable. -/
theorem Usable.advances {id : ValueId} (usable : b.Usable given id)
    (bound : id.index < b.function.values.length) (current : c.current = b.current)
    (grown : b.function.Extends c.function) : c.Usable given id := by
  refine usable.imp_right (Or.imp ?_ ?_)
  · intro slot
    rwa [grown.slots id bound]
  · rintro ⟨block, data, inst, selected, known, member, result⟩
    obtain ⟨data', known', -, longer, -⟩ := grown.blocks block data known
    exact ⟨block, data', inst, current.trans selected, known', longer.subset member, result⟩

/-! ## The end of a block, and branches -/

/-- The builder after the end of a block. -/
def closed (b : Builder) (block : BlockId) (terminator : Terminator) : Builder :=
  { b with function := b.function.close block terminator }

theorem content_closed_of_ne {block id : BlockId} (differs : block ≠ id) (terminator : Terminator) :
    (b.closed block terminator).content id = b.content id := by
  rw [content, content, closed, Function.block?_close, Option.map_map]
  refine congrArg (Option.map · _) (funext fun data => ?_)
  rw [Function.comp_apply, if_neg differs]

theorem Open.advances_closed {block : BlockId} (selected : b.Open block)
    (terminator : Terminator) : b.Advances (b.closed block terminator) := by
  obtain ⟨current, data, known, unended⟩ := selected
  refine .of_content (Function.extends_close known unended terminator) rfl fun id other => ?_
  refine content_closed_of_ne ?_ terminator
  rintro rfl
  exact other current

theorem Open.isTerminated_closed {block : BlockId} (selected : b.Open block)
    (terminator : Terminator) : (b.closed block terminator).isTerminated = true := by
  obtain ⟨current, data, known, -⟩ := selected
  have ended : (b.closed block terminator).function.block? block =
      some { data with terminator := some terminator } := by
    rw [closed, Function.block?_close, known, Option.map_some, if_pos rfl]
  exact isTerminated_of_block (b := b.closed block terminator) current ended

/-- The builder with another block selected. -/
def at_ (b : Builder) (block : BlockId) : Builder := { b with current := some block }

theorem open_of_content {block : BlockId} {code : List Instruction}
    (view : b.content block = some (code, none)) : (b.at_ block).Open block := by
  obtain ⟨data, known, same⟩ := Option.map_eq_some_iff.1 view
  exact ⟨rfl, data, known, (Prod.mk.inj same).2⟩

/-- A block that has ended may be left for a pending one. -/
theorem EndedExcept.at_ {pending rest : BlockId → Prop} (done : b.EndedExcept pending)
    (ended : b.isTerminated = true) {block : BlockId}
    (covered : ∀ id, pending id → id = block ∨ rest id) : (b.at_ block).EndedExcept rest := by
  intro id data known other outside
  by_cases here : b.current = some id
  · rwa [isTerminated_of_block here known] at ended
  · refine done id data known here fun waiting => ?_
    rcases covered id waiting with rfl | more
    · exact other rfl
    · exact outside more

/-- The builder with the three blocks of a conditional, whose first two the selected
block branches to. -/
def fork (b : Builder) (block : BlockId) (cond : Operand) : Builder :=
  (((b.appendBlock "then").2.appendBlock "else").2.appendBlock "endif").2.closed block
    (.condBr cond ⟨b.function.blocks.length⟩ ⟨b.function.blocks.length + 1⟩)

end Builder

namespace Function

variable {f : Function}

theorem length_addBlock (f : Function) (label : String) :
    (f.addBlock label).blocks.length = f.blocks.length + 1 := by
  simp [addBlock]

/-- A function with three new blocks. -/
def addBlocks (f : Function) (first second third : String) : Function :=
  ((f.addBlock first).addBlock second).addBlock third

theorem length_addBlocks (f : Function) (first second third : String) :
    (f.addBlocks first second third).blocks.length = f.blocks.length + 3 := by
  simp [addBlocks, addBlock]

theorem extends_addBlocks (f : Function) (first second third : String) :
    f.Extends (f.addBlocks first second third) :=
  ((extends_addBlock _ _).trans (extends_addBlock _ _)).trans (extends_addBlock _ _)

theorem wellFormed_addBlocks {m : Module} (ok : f.WellFormed m) (first second third : String) :
    (f.addBlocks first second third).WellFormed m :=
  wellFormed_addBlock (wellFormed_addBlock (wellFormed_addBlock ok _) _) _

theorem block?_addBlocks_old (first second third : String) {id : BlockId}
    (old : id.index < f.blocks.length) :
    (f.addBlocks first second third).block? id = f.block? id := by
  rw [addBlocks, block?_addBlock, if_neg (by simp only [length_addBlock]; omega),
    block?_addBlock, if_neg (by simp only [length_addBlock]; omega), block?_addBlock,
    if_neg (by omega)]

theorem block?_addBlocks_new (first second third : String) {id : BlockId}
    (low : f.blocks.length ≤ id.index) (high : id.index < f.blocks.length + 3) :
    ∃ label, (f.addBlocks first second third).block? id = some ⟨label, [], none⟩ := by
  simp only [addBlocks, block?_addBlock, length_addBlock]
  by_cases last : id.index = f.blocks.length + 1 + 1
  · exact ⟨third, if_pos last⟩
  · by_cases middle : id.index = f.blocks.length + 1
    · exact ⟨second, by rw [if_neg last, if_pos middle]⟩
    · exact ⟨first, by rw [if_neg last, if_neg middle, if_pos (by omega)]⟩

end Function

namespace Builder

variable {b c d : Builder} {block : BlockId} {cond : Operand}

/-- The three blocks of a conditional, before the branch to them. -/
theorem exists_addBlocks (b : Builder) :
    ∃ first second third,
      (((b.appendBlock "then").2.appendBlock "else").2.appendBlock "endif").2.function =
        b.function.addBlocks first second third :=
  ⟨_, _, _, rfl⟩

theorem fork_function (b : Builder) (block : BlockId) (cond : Operand) :
    ∃ first second third, (b.fork block cond).function =
      (b.function.addBlocks first second third).close block
        (.condBr cond ⟨b.function.blocks.length⟩ ⟨b.function.blocks.length + 1⟩) :=
  ⟨_, _, _, rfl⟩

theorem instructions_fork (b : Builder) (block : BlockId) (cond : Operand) :
    (b.fork block cond).function.instructions = b.function.instructions := by
  obtain ⟨first, second, third, same⟩ := b.fork_function block cond
  rw [same, Function.instructions_close, Function.addBlocks, Function.instructions_addBlock,
    Function.instructions_addBlock, Function.instructions_addBlock]

theorem length_fork (b : Builder) (block : BlockId) (cond : Operand) :
    (b.fork block cond).function.blocks.length = b.function.blocks.length + 3 := by
  obtain ⟨first, second, third, same⟩ := b.fork_function block cond
  rw [same, ← Function.length_addBlocks b.function first second third]
  simp [Function.close]

theorem content_fork_old (cond : Operand) {id : BlockId} (differs : block ≠ id)
    (old : id.index < b.function.blocks.length) :
    (b.fork block cond).content id = b.content id := by
  rw [fork, content_closed_of_ne differs, content, content]
  exact congrArg _ (Function.block?_addBlocks_old _ _ _ old)

theorem content_fork_new (bound : block.index < b.function.blocks.length) (cond : Operand)
    {id : BlockId} (low : b.function.blocks.length ≤ id.index)
    (high : id.index < b.function.blocks.length + 3) :
    (b.fork block cond).content id = some ([], none) := by
  have differs : block ≠ id := by
    rintro rfl
    omega
  rw [fork, content_closed_of_ne differs, content]
  obtain ⟨label, known⟩ := b.function.block?_addBlocks_new _ _ _ low high
  exact congrArg _ known

theorem Open.addBlocks (selected : b.Open block) :
    (((b.appendBlock "then").2.appendBlock "else").2.appendBlock "endif").2.Open block := by
  obtain ⟨current, data, known, unended⟩ := selected
  refine ⟨current, data, ?_, unended⟩
  exact (Function.block?_addBlocks_old _ _ _ (Function.lt_of_block? known)).trans known

theorem Open.extends_fork (selected : b.Open block) (cond : Operand) :
    b.function.Extends (b.fork block cond).function :=
  (Function.extends_addBlocks _ _ _ _).trans (selected.addBlocks.advances_closed _).function

theorem Open.isTerminated_fork (selected : b.Open block) (cond : Operand) :
    (b.fork block cond).isTerminated = true :=
  selected.addBlocks.isTerminated_closed _

/-- The branch of a conditional is well-typed when its condition is a boolean. -/
theorem checkTerminator_fork (typed : b.function.operandTy cond = .ok .bool) :
    (((b.appendBlock "then").2.appendBlock "else").2.appendBlock "endif").2.function.checkTerminator
      (.condBr cond ⟨b.function.blocks.length⟩ ⟨b.function.blocks.length + 1⟩) = .ok () := by
  obtain ⟨first, second, third, same⟩ := b.exists_addBlocks
  rw [same]
  have known : ∀ target ∈ [BlockId.mk b.function.blocks.length,
      ⟨b.function.blocks.length + 1⟩],
      ((b.function.addBlocks first second third).block? target).isSome := by
    intro target member
    have bounds : b.function.blocks.length ≤ target.index ∧
        target.index < b.function.blocks.length + 3 := by
      simp only [List.mem_cons, List.not_mem_nil, or_false] at member
      rcases member with rfl | rfl <;> simp
    obtain ⟨label, known⟩ :=
      b.function.block?_addBlocks_new first second third bounds.1 bounds.2
    rw [known]
    rfl
  have none_ : ((Terminator.condBr cond ⟨b.function.blocks.length⟩
      ⟨b.function.blocks.length + 1⟩).successors.find? fun target =>
        ((b.function.addBlocks first second third).block? target).isNone) = none := by
    rw [List.find?_eq_none]
    intro target member
    simpa [Option.isSome_iff_ne_none] using known target member
  rw [Function.checkTerminator]
  exact none_ ▸ Function.expectTy_ok.2
    (Function.operandTy_mono (Function.extends_addBlocks _ _ _ _) typed)

theorem Open.wellFormed_fork {m : Module} (selected : b.Open block)
    (ok : b.function.WellFormed m) (typed : b.function.operandTy cond = .ok .bool) :
    (b.fork block cond).function.WellFormed m := by
  obtain ⟨-, data, known, unended⟩ := selected.addBlocks
  exact Function.wellFormed_close (Function.wellFormed_addBlocks ok _ _ _) known unended
    (checkTerminator_fork typed)

/-- The states between the branches of a conditional: `c` behind the first branch and `d`
behind the second, both of which have ended. -/
structure Branched (b : Builder) (block : BlockId) (cond : Operand) (c d : Builder) : Prop where
  selected : b.Open block
  first : ((b.fork block cond).at_ ⟨b.function.blocks.length⟩).Advances c
  firstEnded : c.isTerminated = true
  second : (c.at_ ⟨b.function.blocks.length + 1⟩).Advances d
  secondEnded : d.isTerminated = true

/-- The block of the second branch is untouched by the first. -/
theorem Open.content_else (selected : b.Open block)
    (first : ((b.fork block cond).at_ ⟨b.function.blocks.length⟩).Advances c) {id : BlockId}
    (low : b.function.blocks.length < id.index) (high : id.index < b.function.blocks.length + 3) :
    c.content id = some ([], none) := by
  obtain ⟨-, data, known, -⟩ := selected
  rw [first.frozen id]
  · exact content_fork_new (Function.lt_of_block? known) cond (Nat.le_of_lt low) high
  · rintro ⟨rfl⟩
    exact Nat.lt_irrefl _ low
  · show id.index < (b.fork block cond).function.blocks.length
    rwa [length_fork]

theorem Branched.content_end (branched : Branched b block cond c d) :
    d.content ⟨b.function.blocks.length + 2⟩ = some ([], none) := by
  have longer := branched.first.function.length_le
  rw [branched.second.frozen]
  · exact branched.selected.content_else branched.first (by simp) (by simp)
  · simp [at_]
  · show b.function.blocks.length + 2 < c.function.blocks.length
    have here : ((b.fork block cond).at_ ⟨b.function.blocks.length⟩).function.blocks.length =
        b.function.blocks.length + 3 := b.length_fork block cond
    omega

theorem Branched.extends (branched : Branched b block cond c d) :
    b.function.Extends d.function :=
  ((branched.selected.extends_fork cond).trans branched.first.function).trans
    branched.second.function

/-- A conditional is a finished construct once its last block is selected. -/
theorem Branched.advances (branched : Branched b block cond c d) :
    b.Advances (d.at_ ⟨b.function.blocks.length + 2⟩) := by
  have current := branched.selected.current
  have whole := b.length_fork block cond
  have longer := branched.first.function.length_le
  have inside : block.index < b.function.blocks.length := by
    obtain ⟨-, data, known, -⟩ := branched.selected
    exact Function.lt_of_block? known
  refine ⟨branched.extends, fun id other old => ?_, Or.inr ?_, fun pending done => ?_⟩
  · -- a block from before that is not the one that forks is out of the reach of both branches
    have differs : block ≠ id := by
      rintro rfl
      exact other current
    have inner : d.content id = c.content id := by
      refine branched.second.frozen id ?_ (Nat.lt_of_lt_of_le (by simp [at_, whole]; omega) longer)
      rintro ⟨rfl⟩
      exact absurd old (Nat.not_lt.2 (Nat.le_succ _))
    have outer : c.content id = (b.fork block cond).content id := by
      refine branched.first.frozen id ?_ (by simp [at_, whole]; omega)
      rintro ⟨rfl⟩
      simp at old
    exact (inner.trans outer).trans (content_fork_old cond differs old)
  · obtain ⟨data, known, -⟩ := Option.map_eq_some_iff.1 branched.content_end
    exact ⟨⟨b.function.blocks.length + 2⟩, data, rfl, by simp, known⟩
  · -- only the two blocks that follow may be open while a branch is lowered
    have start : ((b.fork block cond).at_ ⟨b.function.blocks.length⟩).EndedExcept fun id =>
        (id = ⟨b.function.blocks.length + 1⟩ ∨ id = ⟨b.function.blocks.length + 2⟩) ∨
          pending id := by
      intro id data known other outside
      by_cases here : block = id
      · subst here
        have ended := branched.selected.isTerminated_fork cond
        rwa [isTerminated_of_block (b := b.fork block cond) current known] at ended
      · have bound := Function.lt_of_block? known
        rw [show ((b.fork block cond).at_ ⟨b.function.blocks.length⟩).function.blocks.length =
          b.function.blocks.length + 3 from whole] at bound
        have old : id.index < b.function.blocks.length := by
          rcases Nat.lt_or_ge id.index b.function.blocks.length with old | new
          · exact old
          · refine absurd ?_ outside
            cases id with | mk index =>
            have differs : index ≠ b.function.blocks.length := by
              rintro rfl
              exact other rfl
            simp only [BlockId.mk.injEq] at new bound ⊢
            omega
        have view := content_fork_old cond here old
        rw [content, show (b.fork block cond).function.block? id = some data from known] at view
        obtain ⟨data', known', same⟩ := Option.map_eq_some_iff.1 view.symm
        have ends : data'.terminator = data.terminator := (Prod.mk.inj same).2
        rw [← ends]
        refine done id data' known' ?_ fun waiting => outside (Or.inr waiting)
        rw [current]
        rintro ⟨rfl⟩
        exact here rfl
    have middle : (c.at_ ⟨b.function.blocks.length + 1⟩).EndedExcept fun id =>
        id = ⟨b.function.blocks.length + 2⟩ ∨ pending id :=
      (branched.first.ended _ start).at_ branched.firstEnded fun id waiting => by tauto
    exact (branched.second.ended _ middle).at_ branched.secondEnded
      fun id waiting => waiting

end Builder

end SsaLowering.Ir
