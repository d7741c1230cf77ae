/-
# SsaLowering.Proofs.Ir.Reachability -- where control can arrive while a function grows

A block is `Reached` if some walk from the entry ends in it.  Code and new blocks
change nothing of that, and the end of a block adds its targets, as long as they
have not ended (`reached_close`).  A builder is `Live` if control can arrive at
the point where the next code goes, and `Builder.Flows` is what a finished
construct does to both: it enters no block that was there before, and control
arrives behind it if it arrives before it and the construct completes.  A
conditional completes if one of its branches does (`Branched.flows`).
-/
import SsaLowering.Proofs.Ir.Account

namespace SsaLowering.Ir

set_option autoImplicit false

namespace Function

variable {f g : Function} {m : Module} {block u v : BlockId}

/-! ## Blocks that control can enter -/

/-- Some walk from the entry ends in the block. -/
def Reached (f : Function) (v : BlockId) : Prop := ∃ passed, f.Walk passed v

theorem reached_entry (f : Function) : f.Reached ⟨0⟩ := ⟨_, .entry⟩

theorem Reached.step (reached : f.Reached u) (edge : v ∈ f.successors u) : f.Reached v := by
  obtain ⟨passed, walk⟩ := reached
  exact ⟨_, walk.step edge⟩

/-- What holds of the entry and goes along every edge holds of what is reached. -/
theorem Reached.along {P : BlockId → Prop} (reached : f.Reached v) (entry : P ⟨0⟩)
    (edge : ∀ u v, P u → v ∈ f.successors u → P v) : P v := by
  obtain ⟨passed, walk⟩ := reached
  induction walk with
  | entry => exact entry
  | step before step ih => exact edge _ _ ih step

theorem contains_reachable (inside : v.index < f.blocks.length) :
    f.reachable.contains v = true ↔ f.Reached v := by
  rw [List.contains_iff_mem, mem_reachable]
  exact and_iff_right inside

/-- Only blocks of the function are reached, since every target is one. -/
theorem WellFormed.lt_of_reached (ok : f.WellFormed m) (nonempty : 0 < f.blocks.length)
    (reached : f.Reached v) : v.index < f.blocks.length := by
  refine reached.along (P := fun v => v.index < f.blocks.length) nonempty fun u v _ edge => ?_
  obtain ⟨code, t, known, target⟩ := mem_successors.1 edge
  exact ok.successor_lt known target

/-! ## Changes of a function -/

/-- A change that keeps the end of a block keeps its successors. -/
theorem successors_of_map {change : BasicBlock → BasicBlock}
    (changed : g.block? u = (f.block? u).map change)
    (same : ∀ data, (change data).terminator = data.terminator) :
    g.successors u = f.successors u := by
  rw [successors, successors, changed, Option.bind_map]
  simp only [Function.comp_def, same]

theorem successors_push (action : Action) (ty : Option Ty) :
    (f.push block action ty).successors u = f.successors u := by
  refine successors_of_map (block?_push f block u action ty) fun data => ?_
  split <;> rfl

theorem successors_congr (same : g.content u = f.content u) : g.successors u = f.successors u := by
  have last (h : Function) : (h.block? u).bind (·.terminator) = (h.content u).bind (·.2) := by
    rw [content, Option.bind_map]
    rfl
  rw [successors, successors, last, last, same]

theorem successors_of_ge (beyond : f.blocks.length ≤ u.index) : f.successors u = [] := by
  refine List.eq_nil_iff_forall_not_mem.2 fun v edge => ?_
  exact absurd (lt_of_mem_successors edge) (Nat.not_lt.2 beyond)

theorem successors_addBlock (label : String) :
    (f.addBlock label).successors u = f.successors u := by
  by_cases new : u.index = f.blocks.length
  · rw [successors_of_ge (Nat.le_of_eq new.symm), successors, block?_addBlock, if_pos new]
    rfl
  · rw [successors, successors, block?_addBlock, if_neg new]

theorem mem_successors_close {data : BasicBlock} (known : f.block? block = some data)
    (unended : data.terminator = none) {t : Terminator} :
    v ∈ (f.close block t).successors u ↔
      v ∈ f.successors u ∨ (u = block ∧ v ∈ t.successors) := by
  unfold successors
  rw [block?_close]
  by_cases here : block = u
  · subst here
    simp [known, unended]
  · cases f.block? u with
    | none => simp [Ne.symm here]
    | some data => simp [here, Ne.symm here]

/-- A block that has not ended in a later state had not ended before. -/
theorem Extends.successors_eq_nil (grown : f.Extends g) (open_ : g.successors u = []) :
    f.successors u = [] := by
  refine List.eq_nil_iff_forall_not_mem.2 fun v edge => ?_
  obtain ⟨code, t, known, target⟩ := mem_successors.1 edge
  obtain ⟨data, known, -, last⟩ := content_eq_some.1 known
  obtain ⟨data', known', -, -, ended⟩ := grown.blocks u data known
  have edge' : v ∈ g.successors u :=
    mem_successors.2 ⟨_, t, content_eq_some.2 ⟨data', known', rfl, (ended t last).1⟩, target⟩
  rw [open_] at edge'
  cases edge'

theorem successors_of_content {code : List Instruction} (view : f.content u = some (code, none)) :
    f.successors u = [] := by
  refine List.eq_nil_iff_forall_not_mem.2 fun v edge => ?_
  obtain ⟨code', t, known, -⟩ := mem_successors.1 edge
  rw [view] at known
  cases known

theorem reached_congr (same : ∀ u, g.successors u = f.successors u) :
    g.Reached v ↔ f.Reached v := by
  constructor
  · intro reached
    exact reached.along f.reached_entry fun u v before edge => before.step (same u ▸ edge)
  · intro reached
    exact reached.along g.reached_entry fun u v before edge => before.step ((same u).symm ▸ edge)

/-- The end of a block that is reached adds its targets, from where control goes no further. -/
theorem reached_close {data : BasicBlock} (known : f.block? block = some data)
    (unended : data.terminator = none) {t : Terminator}
    (open_ : ∀ v ∈ t.successors, f.successors v = []) :
    (f.close block t).Reached v ↔ f.Reached v ∨ (f.Reached block ∧ v ∈ t.successors) := by
  have edges {u v : BlockId} := mem_successors_close (u := u) (v := v) (t := t) known unended
  have kept {v : BlockId} (reached : f.Reached v) : (f.close block t).Reached v :=
    reached.along (reached_entry _) fun u v before edge => before.step (edges.2 (Or.inl edge))
  constructor
  · intro reached
    refine reached.along (P := fun v => f.Reached v ∨ (f.Reached block ∧ v ∈ t.successors))
      (Or.inl f.reached_entry) fun u v before edge => ?_
    rcases edges.1 edge with old | ⟨rfl, target⟩
    · rcases before with before | ⟨-, target⟩
      · exact Or.inl (before.step old)
      · rw [open_ u target] at old
        cases old
    · rcases before with before | ⟨before, -⟩ <;> exact Or.inr ⟨before, target⟩
  · rintro (reached | ⟨reached, target⟩)
    · exact kept reached
    · exact (kept reached).step (edges.2 (Or.inr ⟨rfl, target⟩))

end Function

namespace Builder

variable {b c c' d d' : Builder} {block next : BlockId} {completes completes' : Bool}

/-! ## Points that control can reach -/

/-- Control can arrive where the next code goes. -/
def Live (b : Builder) : Prop := ∃ block, b.Open block ∧ b.function.Reached block

theorem Open.live_iff (selected : b.Open block) : b.Live ↔ b.function.Reached block := by
  constructor
  · rintro ⟨other, selected', reached⟩
    obtain rfl := Option.some.inj (selected.current.symm.trans selected'.current)
    exact reached
  · intro reached
    exact ⟨block, selected, reached⟩

theorem not_live_of_isTerminated (ended : b.isTerminated = true) : ¬ b.Live := by
  rintro ⟨block, selected, -⟩
  rw [selected.not_terminated] at ended
  cases ended

theorem live_at {code : List Instruction} (view : b.content block = some (code, none)) :
    (b.at_ block).Live ↔ b.function.Reached block :=
  (open_of_content view).live_iff

/-! ## Finished constructs -/

/-- What a finished construct does to the blocks that control can enter. -/
structure Flows (b : Builder) (completes : Bool) (c : Builder) : Prop where
  longer : b.function.blocks.length ≤ c.function.blocks.length
  reached : ∀ v, v.index < b.function.blocks.length →
    (c.function.Reached v ↔ b.function.Reached v)
  live : c.Live ↔ b.Live ∧ completes = true

theorem Flows.refl (b : Builder) : b.Flows true b where
  longer := Nat.le_refl _
  reached := fun _ _ => Iff.rfl
  live := (and_iff_left rfl).symm

theorem Flows.trans (first : b.Flows completes c) (second : c.Flows completes' d) :
    b.Flows (completes && completes') d where
  longer := first.longer.trans second.longer
  reached := fun v old =>
    (second.reached v (Nat.lt_of_lt_of_le old first.longer)).trans (first.reached v old)
  live := by rw [second.live, first.live, Bool.and_eq_true, and_assoc]

/-- Behind an end nothing is lowered, whether it would complete or not. -/
theorem Flows.of_isTerminated (ended : b.isTerminated = true) (completes : Bool) :
    b.Flows completes b where
  longer := Nat.le_refl _
  reached := fun _ _ => Iff.rfl
  live := (and_iff_left_of_imp fun live => absurd live (not_live_of_isTerminated ended)).symm

/-- Work at the selected block that ends no block. -/
theorem Open.flows (selected : b.Open block) (selected' : c.Open block)
    (longer : b.function.blocks.length ≤ c.function.blocks.length)
    (same : ∀ u, c.function.successors u = b.function.successors u) : b.Flows true c where
  longer := longer
  reached := fun _ _ => Function.reached_congr same
  live := by
    rw [selected'.live_iff, selected.live_iff, Function.reached_congr same]
    exact (and_iff_left rfl).symm

/-- Work at the selected block that changes no code and no end. -/
theorem Open.flows_content (selected : b.Open block) (current : c.current = b.current)
    (longer : b.function.blocks.length ≤ c.function.blocks.length)
    (same : ∀ u, c.content u = b.content u) : b.Flows true c := by
  have selected' : c.Open block := by
    obtain ⟨here, data, known, unended⟩ := selected
    have view : c.function.content block = some (data.code, none) :=
      (same block).trans (Function.content_eq_some.2 ⟨data, known, rfl, unended⟩)
    obtain ⟨data', known', -, unended'⟩ := Function.content_eq_some.1 view
    exact ⟨current.trans here, data', known', unended'⟩
  exact selected.flows selected' longer fun u => Function.successors_congr (same u)

theorem Open.flows_push (selected : b.Open block) (action : Action) (ty : Option Ty) :
    b.Flows true { b with function := b.function.push block action ty } :=
  selected.flows (selected.push action ty) (extends_push_open selected action ty).length_le
    fun _ => Function.successors_push action ty

theorem Emits.flows {m : Module} {given : ValueId → Prop} (emits : Emits m given b c) :
    b.Flows true c := by
  induction emits with
  | refl => exact .refl b
  | push before here _ _ _ ih => exact ih.trans (here.flows_push _ _)

/-- An end without a target. -/
theorem Open.flows_closed (selected : b.Open block) {t : Terminator} (last : t.successors = []) :
    b.Flows false (b.closed block t) where
  longer := (selected.advances_closed t).function.length_le
  reached := by
    intro v _
    obtain ⟨-, data, known, unended⟩ := selected
    rw [closed, Function.reached_close known unended (by simp [last])]
    simp [last]
  live := by
    have ended := not_live_of_isTerminated (selected.isTerminated_closed t)
    simp [ended]

/-! ## Conditionals -/

/-- A jump to a block that has not ended enters this block, if control arrives at the jump. -/
theorem Open.reached_jump {v : BlockId} (selected : b.Open block)
    (open_ : (b.closed block (.br next)).function.successors next = []) :
    (b.closed block (.br next)).function.Reached v ↔
      b.function.Reached v ∨ (b.Live ∧ v = next) := by
  rw [selected.live_iff]
  have before := (selected.advances_closed (.br next)).function.successors_eq_nil open_
  obtain ⟨-, data, known, unended⟩ := selected
  rw [closed, Function.reached_close known unended]
  · rw [Terminator.successors, List.mem_singleton]
  · rw [Terminator.successors]
    exact List.forall_mem_singleton.2 before

/-- A conditional enters its first two blocks, if control arrives at it. -/
theorem Open.reached_fork {v : BlockId} (selected : b.Open block) (cond : Operand) :
    (b.fork block cond).function.Reached v ↔ b.function.Reached v ∨
      (b.function.Reached block ∧
        (v = ⟨b.function.blocks.length⟩ ∨ v = ⟨b.function.blocks.length + 1⟩)) := by
  obtain ⟨first, second, third, same⟩ := b.fork_function block cond
  have kept (u : BlockId) :
      (b.function.addBlocks first second third).successors u = b.function.successors u := by
    rw [Function.addBlocks, Function.successors_addBlock, Function.successors_addBlock,
      Function.successors_addBlock]
  obtain ⟨-, data, known, unended⟩ := selected
  have inside := Function.lt_of_block? known
  rw [same, Function.reached_close ((Function.block?_addBlocks_old _ _ _ inside).trans known)
    unended, Function.reached_congr kept, Function.reached_congr kept]
  · simp [Terminator.successors]
  · intro target member
    rw [kept]
    refine Function.successors_of_ge ?_
    simp only [Terminator.successors, List.mem_cons, List.not_mem_nil, or_false] at member
    rcases member with rfl | rfl <;> simp

theorem Open.reached_fork_old {v : BlockId} (selected : b.Open block) (cond : Operand)
    (old : v.index < b.function.blocks.length) :
    (b.fork block cond).function.Reached v ↔ b.function.Reached v := by
  rw [selected.reached_fork cond, or_iff_left]
  rintro ⟨-, rfl | rfl⟩
  · exact Nat.lt_irrefl _ old
  · exact absurd old (Nat.not_lt.2 (Nat.le_succ _))

theorem Open.reached_fork_new {m : Module} (selected : b.Open block)
    (ok : b.function.WellFormed m) (cond : Operand) (k : Nat) :
    (b.fork block cond).function.Reached ⟨b.function.blocks.length + k⟩ ↔
      b.function.Reached block ∧ k < 2 := by
  have new : ¬ b.function.Reached ⟨b.function.blocks.length + k⟩ := by
    intro reached
    obtain ⟨-, data, known, -⟩ := selected
    have nonempty := Nat.zero_lt_of_lt (Function.lt_of_block? known)
    exact absurd (ok.lt_of_reached nonempty reached) (Nat.not_lt.2 (Nat.le_add_right _ k))
  rw [selected.reached_fork cond, or_iff_right new]
  refine and_congr_right fun _ => ?_
  simp only [BlockId.mk.injEq]
  omega

/-- Behind a construct that falls to `next` control arrives there as it would behind the
construct. -/
theorem Flows.falls {v : BlockId} (flows : b.Flows completes c)
    (falls : ∀ v, c'.function.Reached v ↔ c.function.Reached v ∨ (c.Live ∧ v = next))
    (old : v.index < b.function.blocks.length) :
    c'.function.Reached v ↔
      b.function.Reached v ∨ ((b.Live ∧ completes = true) ∧ v = next) := by
  rw [falls, flows.reached v old, flows.live]

/-- A conditional completes if one of its branches does: `c` is the state behind the first one
and `c'` behind its jump, `d` and `d'` the same for the second. -/
theorem Branched.flows {m : Module} {cond : Operand} (branched : Branched b block cond c' d')
    (ok : b.function.WellFormed m)
    (first : ((b.fork block cond).at_ ⟨b.function.blocks.length⟩).Flows completes c)
    (firstFalls : ∀ v, c'.function.Reached v ↔ c.function.Reached v ∨
      (c.Live ∧ v = ⟨b.function.blocks.length + 2⟩))
    (second : (c'.at_ ⟨b.function.blocks.length + 1⟩).Flows completes' d)
    (secondFalls : ∀ v, d'.function.Reached v ↔ d.function.Reached v ∨
      (d.Live ∧ v = ⟨b.function.blocks.length + 2⟩)) :
    b.Flows (completes || completes') (d'.at_ ⟨b.function.blocks.length + 2⟩) := by
  have selected := branched.selected
  have inside : block.index < b.function.blocks.length := by
    obtain ⟨-, data, known, -⟩ := selected
    exact Function.lt_of_block? known
  have count := b.length_fork block cond
  have longer : b.function.blocks.length + 3 ≤ c'.function.blocks.length :=
    count ▸ branched.first.function.length_le
  have forked := selected.reached_fork_new ok cond
  -- behind the first branch control arrives where it did at the fork, or in the last block
  have between {v : BlockId} (known : v.index < b.function.blocks.length + 3) :
      c'.function.Reached v ↔ (b.fork block cond).function.Reached v ∨
        ((b.function.Reached block ∧ completes = true) ∧ v = ⟨b.function.blocks.length + 2⟩) := by
    have starts : ((b.fork block cond).at_ ⟨b.function.blocks.length⟩).Live ↔
        b.function.Reached block := by
      rw [live_at (content_fork_new inside cond (Nat.le_refl _)
        (Nat.lt_add_of_pos_right (by decide)))]
      exact (forked 0).trans (and_iff_left (by decide))
    rw [← starts]
    exact first.falls firstFalls (Nat.lt_of_lt_of_eq known count.symm)
  -- and behind the second one where it did behind the first, or in the last block
  have behind {v : BlockId} (known : v.index < b.function.blocks.length + 3) :
      d'.function.Reached v ↔ c'.function.Reached v ∨
        ((b.function.Reached block ∧ completes' = true) ∧ v = ⟨b.function.blocks.length + 2⟩) := by
    have starts : (c'.at_ ⟨b.function.blocks.length + 1⟩).Live ↔ b.function.Reached block := by
      have empty : c'.content ⟨b.function.blocks.length + 1⟩ = some ([], none) :=
        selected.content_else branched.first (Nat.lt_succ_self _) (by simp)
      rw [live_at empty, between (by simp), forked]
      simp
    rw [← starts]
    exact second.falls secondFalls (Nat.lt_of_lt_of_le known longer)
  refine ⟨?_, ?_, ?_⟩
  · have last : c'.function.blocks.length ≤ d'.function.blocks.length :=
      branched.second.function.length_le
    exact (Nat.le_add_right _ 3).trans (longer.trans last)
  · intro v old
    have other : v ≠ ⟨b.function.blocks.length + 2⟩ := by
      rintro rfl
      exact absurd old (Nat.not_lt.2 (Nat.le_add_right _ 2))
    have known : v.index < b.function.blocks.length + 3 := Nat.lt_add_right 3 old
    refine (behind known).trans ?_
    rw [between known, selected.reached_fork_old cond old]
    simp [other]
  · rw [live_at branched.content_end, behind (by simp), between (by simp), forked,
      selected.live_iff]
    simp [← and_or_left]

end Builder

end SsaLowering.Ir
