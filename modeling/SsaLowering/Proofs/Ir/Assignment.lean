/-
# SsaLowering.Proofs.Ir.Assignment -- slots that are written before they are read

An account of assignment says of every block which slots have been written whenever
control enters it (`Function.Assigns`): none at the entry, and along an edge no others
than those that were written before or are written in the block that control leaves.
Every change that a builder makes to a function takes an account to an account, as long
as an instruction reads a slot that is written by then.

On walks an account means what it says: a read of a slot comes after a write to it
(`Assigns.writtenBeforeRead`).
-/
import SsaLowering.Proofs.Ir.Account
import SsaLowering.Proofs.Ir.Slots

namespace SsaLowering.Ir

set_option autoImplicit false

/-! ## Reads and writes -/

/-- The action reads from the address. -/
def Action.Loads (action : Action) (p : ValueId) : Prop := ∃ ty, action = .load ty (.value p)

/-- The action writes to the address. -/
def Action.Stores (action : Action) (p : ValueId) : Prop :=
  ∃ value, action = .store value (.value p)

/-- Some of the instructions writes to the address. -/
def Written (insts : List Instruction) (p : ValueId) : Prop :=
  ∃ inst ∈ insts, inst.action.Stores p

theorem Written.mono {insts more : List Instruction} {p : ValueId} (written : Written insts p)
    (among : insts ⊆ more) : Written more p := by
  obtain ⟨inst, member, stores⟩ := written
  exact ⟨inst, among member, stores⟩

namespace Function

variable {m : Module} {f g : Function} {Q : ValueId → Prop} {A A' : BlockId → ValueId → Prop}
  {block : BlockId}

/-- On every walk a read from the address comes after a write to it. -/
def WrittenBeforeRead (f : Function) (p : ValueId) : Prop :=
  ∀ past v position inst, f.Walk (v :: past) v → (f.instructionsOf v)[position]? = some inst →
    inst.action.Loads p → Written (f.executed past v position) p

/-- What has been written at the start of each block, and enough of it for every read of an
address for which `Q` holds. -/
structure Assigns (f : Function) (Q : ValueId → Prop) (A : BlockId → ValueId → Prop) : Prop where
  entry : ∀ p, ¬ A ⟨0⟩ p
  edge : ∀ u code t v p, f.content u = some (code, some t) → v ∈ t.successors → A v p →
    A u p ∨ Written code p
  reads : ∀ v code last before inst after p, f.content v = some (code, last) →
    code = before ++ inst :: after → inst.action.Loads p → Q p → A v p ∨ Written before p

/-- The address has been written at the end of what there is of a block. -/
def AssignedAt (f : Function) (A : BlockId → ValueId → Prop) (v : BlockId) (p : ValueId) : Prop :=
  A v p ∨ ∃ data, f.block? v = some data ∧ Written data.code p

theorem AssignedAt.mono {v : BlockId} {p : ValueId} (assigned : f.AssignedAt A v p)
    (grown : f.Extends g) : g.AssignedAt A v p := by
  refine assigned.imp_right ?_
  rintro ⟨data, known, written⟩
  obtain ⟨data', known', -, longer, -⟩ := grown.blocks v data known
  exact ⟨data', known', written.mono longer.subset⟩

theorem AssignedAt.written {data : BasicBlock} (known : f.block? block = some data) {p : ValueId}
    (assigned : f.AssignedAt A block p) : A block p ∨ Written data.code p := by
  refine assigned.imp_right ?_
  rintro ⟨data', known', written⟩
  cases known.symm.trans known'
  exact written

/-- In a function with an entry block and nothing else there is nothing to account for. -/
theorem Assigns.of_entry {label : String} (entry : f.blocks = [⟨label, [], none⟩]) :
    f.Assigns Q fun _ _ => False := by
  have known {id : BlockId} {code : List Instruction} {last : Option Terminator}
      (here : f.content id = some (code, last)) : code = [] := by
    obtain ⟨data, present, rfl, -⟩ := content_eq_some.1 here
    rw [block?, entry] at present
    obtain rfl : data = ⟨label, [], none⟩ := List.mem_singleton.1 (List.mem_of_getElem? present)
    rfl
  refine ⟨fun _ assigned => assigned, fun _ _ _ _ _ _ _ => False.elim, ?_⟩
  intro v code last before inst after p here split_
  rw [known here] at split_
  simp at split_

/-! ## Walks -/

/-- What has been written at the start of a block was written in a block on the way. -/
theorem Assigns.written (account : f.Assigns Q A) {passed : List BlockId} {v : BlockId}
    {p : ValueId} (walk : f.Walk passed v) (assigned : A v p) :
    ∃ u ∈ passed.tail, Written (f.instructionsOf u) p := by
  induction walk with
  | entry => exact absurd assigned (account.entry p)
  | @step passed u v before edge ih =>
    obtain ⟨code, t, known, target⟩ := mem_successors.1 edge
    rcases account.edge u code t v p known target assigned with above | written
    · obtain ⟨w, on, written⟩ := ih above
      exact ⟨w, List.mem_of_mem_tail on, written⟩
    · obtain ⟨data, present, rfl, -⟩ := content_eq_some.1 known
      obtain ⟨past, rfl⟩ := before.eq_cons
      refine ⟨u, List.mem_cons_self, ?_⟩
      rw [instructionsOf_eq present]
      exact written.mono (List.filter_subset_self _)

theorem Assigns.writtenBeforeRead (account : f.Assigns Q A) (laid : f.Layout) {p : ValueId}
    (counts : Q p) : f.WrittenBeforeRead p := by
  intro past v position inst walk here loads
  cases known : f.block? v with
  | none =>
    rw [instructionsOf, known] at here
    cases here
  | some data =>
    obtain ⟨leading, split_, only, -⟩ := laid.slotsFirst v data known
    rw [instructionsOf_eq known, split_] at here
    have beyond : leading.length ≤ position := by
      by_contra early
      rw [List.getElem?_append_left (Nat.not_le.1 early)] at here
      have slot := only inst (List.mem_of_getElem? here)
      obtain ⟨ty, action⟩ := loads
      rw [action] at slot
      cases slot
    rw [List.getElem?_append_right beyond] at here
    obtain ⟨bound, rfl⟩ := List.getElem?_eq_some_iff.1 here
    have cut : data.code = data.code.take (position - leading.length) ++
        data.code[position - leading.length] :: data.code.drop (position - leading.length + 1) := by
      rw [List.getElem_cons_drop, List.take_append_drop]
    rcases account.reads v _ _ _ _ _ p (content_eq_some.2 ⟨data, known, rfl, rfl⟩) cut loads counts
      with assigned | ⟨source, earlier, stores⟩
    · obtain ⟨u, on, source, member, stores⟩ := account.written walk assigned
      exact ⟨source, mem_executed.2 (Or.inl ⟨u, on, member⟩), stores⟩
    · obtain ⟨i, early, place⟩ := List.mem_take_iff_getElem.1 earlier
      refine ⟨source, mem_executed.2 (Or.inr ⟨leading.length + i, by omega, ?_⟩), stores⟩
      rw [instructionsOf_eq known, split_, List.getElem?_append_right (Nat.le_add_right _ _),
        Nat.add_sub_cancel_left]
      exact List.getElem?_eq_some_iff.2 ⟨by omega, place⟩

/-! ## Changes of a function -/

section Changes

variable (account : f.Assigns Q A)
include account

/-- Names and slots change no account. -/
theorem Assigns.congr (same : ∀ id, g.content id = f.content id) : g.Assigns Q A where
  entry := account.entry
  edge := fun u code t v p known => account.edge u code t v p (same u ▸ known)
  reads := fun v code last before inst after p known =>
    account.reads v code last before inst after p (same v ▸ known)

/-- An instruction reads slots that are written by then. -/
theorem Assigns.push {data : BasicBlock} (known : f.block? block = some data)
    (unended : data.terminator = none) {action : Action} (effect : action.isAlloca = false)
    (ty : Option Ty) (reads : ∀ p, action.Loads p → Q p → f.AssignedAt A block p) :
    (f.push block action ty).Assigns Q A := by
  have other {id : BlockId} (differs : block ≠ id) := content_push_of_ne differs action ty (f := f)
  have here := unended ▸ content_push known effect ty
  refine ⟨account.entry, ?_, ?_⟩
  · intro u code t v p at_
    by_cases same : block = u
    · subst same
      rw [here] at at_
      cases at_
    · rw [other same] at at_
      exact account.edge u code t v p at_
  · intro v code last before inst after p at_ split_ loads counts
    by_cases same : block = v
    · subst same
      cases here.symm.trans at_
      rcases List.eq_nil_or_concat after with rfl | ⟨front, final, rfl⟩
      · obtain ⟨rfl, same⟩ := List.append_inj' split_ rfl
        cases same
        exact (reads p loads counts).written known
      · rw [List.concat_eq_append, ← List.cons_append, ← List.append_assoc] at split_
        obtain ⟨split_, -⟩ := List.append_inj' split_ rfl
        exact account.reads block _ _ before inst front p
          (content_eq_some.2 ⟨data, known, rfl, rfl⟩) split_ loads counts
    · rw [other same] at at_
      exact account.reads v code last before inst after p at_ split_ loads counts

/-- Where the end of a block leads, no other slots count as written than at its end. -/
theorem Assigns.close {data : BasicBlock} (known : f.block? block = some data) {t : Terminator}
    (targets : ∀ v ∈ t.successors, ∀ p, A v p → f.AssignedAt A block p) :
    (f.close block t).Assigns Q A := by
  have other {id : BlockId} (differs : block ≠ id) := content_close_of_ne differs t (f := f)
  have here := content_close known t
  refine ⟨account.entry, ?_, ?_⟩
  · intro u code t' v p at_ target
    by_cases same : block = u
    · subst same
      cases here.symm.trans at_
      exact fun assigned => (targets v target p assigned).written known
    · rw [other same] at at_
      exact account.edge u code t' v p at_ target
  · intro v code last before inst after p at_
    by_cases same : block = v
    · subst same
      cases here.symm.trans at_
      exact account.reads block _ _ before inst after p
        (content_eq_some.2 ⟨data, known, rfl, rfl⟩)
    · rw [other same] at at_
      exact account.reads v code last before inst after p at_

/-- Of new blocks anything may be said while they are empty and nothing leads to them. -/
theorem Assigns.addBlocks (ok : f.WellFormed m) (nonempty : 0 < f.blocks.length)
    (first second third : String) (same : ∀ v p, v.index < f.blocks.length → (A' v p ↔ A v p)) :
    (f.addBlocks first second third).Assigns Q A' := by
  have old {id : BlockId} {code : List Instruction} {last : Option Terminator}
      (known : (f.addBlocks first second third).content id = some (code, last)) :
      (code = [] ∧ last = none) ∨
        (id.index < f.blocks.length ∧ f.content id = some (code, last)) := by
    obtain ⟨data, present, rfl, rfl⟩ := content_eq_some.1 known
    rcases Nat.lt_or_ge id.index f.blocks.length with before | new
    · right
      rw [block?_addBlocks_old _ _ _ before] at present
      exact ⟨before, content_eq_some.2 ⟨data, present, rfl, rfl⟩⟩
    · left
      have bound := lt_of_block? present
      rw [length_addBlocks] at bound
      obtain ⟨label, empty⟩ := f.block?_addBlocks_new first second third new bound
      cases present.symm.trans empty
      exact ⟨rfl, rfl⟩
  refine ⟨fun p => ?_, ?_, ?_⟩
  · rw [same _ _ nonempty]
    exact account.entry p
  · intro u code t v p known target assigned
    rcases old known with ⟨-, absent⟩ | ⟨before, known⟩
    · cases absent
    · rw [same u p before]
      exact account.edge u code t v p known target
        ((same v p (ok.successor_lt known target)).1 assigned)
  · intro v code last before inst after p known split_ loads counts
    rcases old known with ⟨rfl, -⟩ | ⟨earlier, known⟩
    · simp at split_
    · rw [same v p earlier]
      exact account.reads v code last before inst after p known split_ loads counts

end Changes

/-- What has been written at the start of the blocks of a conditional, from `n` on: what has
been written at the end of the block that forks. -/
def joined (A : BlockId → ValueId → Prop) (n : Nat) (written : ValueId → Prop) :
    BlockId → ValueId → Prop :=
  fun v p => if v.index < n then A v p else written p

theorem joined_old {v : BlockId} {n : Nat} {written : ValueId → Prop} {p : ValueId}
    (old : v.index < n) : joined A n written v p ↔ A v p := by
  rw [joined, if_pos old]

theorem joined_new {v : BlockId} {n : Nat} {written : ValueId → Prop} {p : ValueId}
    (new : n ≤ v.index) : joined A n written v p ↔ written p := by
  rw [joined, if_neg (Nat.not_lt.2 new)]

/-- Both branches of a conditional and what follows them start with what was written at the
end of the block that forks. -/
theorem Assigns.fork {b : Builder} (account : b.function.Assigns Q A)
    (ok : b.function.WellFormed m) {data : BasicBlock}
    (known : b.function.block? block = some data) (cond : Operand) :
    (b.fork block cond).function.Assigns Q
      (joined A b.function.blocks.length (b.function.AssignedAt A block)) := by
  obtain ⟨first, second, third, same⟩ := b.fork_function block cond
  have inside := lt_of_block? known
  rw [same]
  refine (account.addBlocks ok (Nat.lt_of_le_of_lt (Nat.zero_le _) inside) first second third
    fun v p old => joined_old old).close ((block?_addBlocks_old _ _ _ inside).trans known)
    fun v target p assigned => ?_
  have forked : b.function.AssignedAt A block p := by
    refine (joined_new ?_).1 assigned
    simp only [Terminator.successors, List.mem_cons, List.not_mem_nil, or_false] at target
    rcases target with rfl | rfl <;> simp
  exact (forked.mono (extends_addBlocks _ _ _ _)).imp_left (joined_old inside).2

end Function

end SsaLowering.Ir
