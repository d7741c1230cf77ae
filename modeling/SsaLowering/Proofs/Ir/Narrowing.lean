/-
# SsaLowering.Proofs.Ir.Narrowing -- where the narrowing of dominator sets ends

A table of sets is `Shrinking` when no set is smaller than what the predecessors of
its block leave of it.  The table that narrowing starts from is (`shrinking_start`),
and setting one block keeps it so.  From such a table a round changes nothing or
makes the table lighter (`narrow_cases`), so the weight sees every change, and the
sets that narrowing ends with satisfy the equation of every block
(`refined_dominators`).
-/
import SsaLowering.Proofs.Ir.Dominance

namespace SsaLowering.Ir

set_option autoImplicit false

/-! ## Smaller sets -/

namespace BlockSet

/-- Every block of `s` is a block of `t`. -/
def Within (s t : BlockSet) : Prop := ∀ block, s.contains block → t.contains block

theorem Within.refl (s : BlockSet) : s.Within s := fun _ has => has

theorem Within.trans {s t u : BlockSet} (first : s.Within t) (second : t.Within u) :
    s.Within u := fun block has => second block (first block has)

theorem Within.mask_le {s t : BlockSet} (within : s.Within t) : s.mask ≤ t.mask :=
  Nat.le_of_testBit fun i has => within ⟨i⟩ has

theorem within_empty (s : BlockSet) : empty.Within s := fun block has => by
  simp [empty, contains] at has

theorem Within.insert {s t : BlockSet} (within : s.Within t) (added : BlockId) :
    (s.insert added).Within (t.insert added) := fun block has => by
  rw [contains_insert, Bool.or_eq_true] at has ⊢
  exact has.imp_left (within block)

end BlockSet

namespace Function

variable {preds : Array (List BlockId)} {doms next : Array BlockSet}

/-- The set of every block in `next` lies within its set in `doms`. -/
def AllWithin (next doms : Array BlockSet) : Prop :=
  ∀ index, (next.getD index .empty).Within (doms.getD index .empty)

/-- The equation of a block has no larger right side when the sets are no larger. -/
theorem AllWithin.refined (within : AllWithin next doms) (preds : Array (List BlockId))
    (index : Nat) : (refined preds next index).Within (refined preds doms index) := by
  unfold Function.refined
  split
  · exact .refl _
  · refine BlockSet.Within.insert (fun block has => ?_) _
    rw [contains_common] at has ⊢
    exact ⟨has.1, fun u pred => within u.index block (has.2 u pred)⟩

theorem getD_setIfInBounds (doms : Array BlockSet) (index other : Nat) (s : BlockSet) :
    (doms.setIfInBounds index s).getD other .empty =
      if index = other ∧ index < doms.size then s else doms.getD other .empty := by
  simp only [Array.getD_eq_getD_getElem?, Array.getElem?_setIfInBounds]
  by_cases same : index = other
  · subst same
    by_cases bound : index < doms.size <;> simp [bound]
  · simp [same]

/-- Putting in a smaller set makes the table smaller. -/
theorem allWithin_set {index : Nat} {s : BlockSet} (within : s.Within (doms.getD index .empty)) :
    AllWithin (doms.setIfInBounds index s) doms := by
  intro other
  rw [getD_setIfInBounds]
  split
  · rename_i here
    exact here.1 ▸ within
  · exact .refl _

/-! ## Weight -/

theorem weight_eq_sum (doms : Array BlockSet) : weight doms = (doms.toList.map (·.mask)).sum := by
  rw [weight, ← Array.foldl_toList, List.sum_eq_foldl, List.foldl_map]

/-- Putting in a smaller set changes nothing or makes the table lighter. -/
theorem set_eq_or_lighter {index : Nat} {s : BlockSet}
    (within : s.Within (doms.getD index .empty)) :
    (doms.setIfInBounds index s = doms ∧ (index < doms.size → s = doms.getD index .empty)) ∨
      weight (doms.setIfInBounds index s) < weight doms := by
  rcases Nat.lt_or_ge index doms.size with bound | beyond
  · have here : doms.getD index .empty = doms[index] := by
      rw [Array.getD_eq_getD_getElem?, Array.getElem?_eq_getElem bound, Option.getD_some]
    rw [here] at within ⊢
    rcases Nat.lt_or_eq_of_le within.mask_le with lighter | same
    · right
      have split_ : doms.toList = doms.toList.take index ++
          doms[index] :: doms.toList.drop (index + 1) := by
        rw [← Array.getElem_toList, List.getElem_cons_drop, List.take_append_drop]
      rw [weight_eq_sum, weight_eq_sum, Array.toList_setIfInBounds,
        List.set_eq_take_append_cons_drop, if_pos (by simpa using bound)]
      conv_rhs => rw [split_]
      simp only [List.map_append, List.map_cons, List.sum_append, List.sum_cons]
      omega
    · left
      obtain rfl : s = doms[index] := by cases s; exact congrArg _ same
      refine ⟨?_, fun _ => rfl⟩
      rw [Array.setIfInBounds, dif_pos bound, Array.set_getElem_self]
  · exact Or.inl ⟨Array.setIfInBounds_eq_of_size_le beyond, fun bound => by omega⟩

/-! ## Rounds -/

/-- No set is smaller than what its equation leaves of it. -/
def Shrinking (preds : Array (List BlockId)) (doms : Array BlockSet) : Prop :=
  ∀ index, index < doms.size → (refined preds doms index).Within (doms.getD index .empty)

theorem Shrinking.set (shrinking : Shrinking preds doms) {index : Nat}
    (bound : index < doms.size) :
    Shrinking preds (doms.setIfInBounds index (refined preds doms index)) := by
  have smaller := allWithin_set (shrinking index bound)
  intro other inside
  rw [Array.size_setIfInBounds] at inside
  refine (smaller.refined preds other).trans ?_
  rw [getD_setIfInBounds]
  by_cases here : index = other ∧ index < doms.size
  · rw [if_pos here, here.1]
    exact .refl _
  · rw [if_neg here]
    exact shrinking other inside

/-- Setting some blocks one after the other changes nothing, and then their equations
hold, or makes the table lighter. -/
theorem rounds_cases : ∀ (rounds : List Nat) {doms : Array BlockSet}, Shrinking preds doms →
    (∀ index ∈ rounds, index < doms.size) →
    let next := rounds.foldl
      (fun doms index => doms.setIfInBounds index (refined preds doms index)) doms
    Shrinking preds next ∧
      ((next = doms ∧ ∀ index ∈ rounds, refined preds doms index = doms.getD index .empty) ∨
        weight next < weight doms)
  | [], _, shrinking, _ => ⟨shrinking, Or.inl ⟨rfl, by simp⟩⟩
  | index :: rest, doms, shrinking, inside => by
    rw [List.forall_mem_cons] at inside
    have later := rounds_cases rest (shrinking.set inside.1) fun other member => by
      rw [Array.size_setIfInBounds]
      exact inside.2 other member
    rw [List.foldl_cons]
    refine ⟨later.1, ?_⟩
    rcases set_eq_or_lighter (shrinking index inside.1) with ⟨same, equation⟩ | lighter
    · rw [same] at later ⊢
      refine later.2.imp_left fun ⟨unchanged, equations⟩ => ⟨unchanged, ?_⟩
      rw [List.forall_mem_cons]
      exact ⟨equation inside.1, equations⟩
    · right
      rcases later.2 with ⟨unchanged, -⟩ | lighter'
      · rwa [unchanged]
      · exact Nat.lt_trans lighter' lighter

theorem narrow_cases (shrinking : Shrinking preds doms) :
    Shrinking preds (narrow preds doms) ∧
      ((narrow preds doms = doms ∧
          ∀ index < doms.size, refined preds doms index = doms.getD index .empty) ∨
        weight (narrow preds doms) < weight doms) := by
  have round := rounds_cases (List.range doms.size) shrinking fun index member =>
    List.mem_range.1 member
  simp only [List.mem_range] at round
  exact round

/-- Narrowing ends where a round changes nothing. -/
theorem settle_stable (shrinking : Shrinking preds doms) :
    narrow preds (settle preds doms) = settle preds doms ∧
      ∀ index < (settle preds doms).size,
        refined preds (settle preds doms) index = (settle preds doms).getD index .empty := by
  fun_induction settle preds doms with
  | case1 doms next lighter ih => exact ih (narrow_cases shrinking).1
  | case2 doms next done => exact (narrow_cases shrinking).2.resolve_right done

theorem size_narrow (preds : Array (List BlockId)) (doms : Array BlockSet) :
    (narrow preds doms).size = doms.size := by
  unfold narrow
  generalize List.range doms.size = rounds
  induction rounds generalizing doms with
  | nil => rfl
  | cons index rest ih => rw [List.foldl_cons, ih, Array.size_setIfInBounds]

theorem size_settle (preds : Array (List BlockId)) (doms : Array BlockSet) :
    (settle preds doms).size = doms.size := by
  fun_induction settle preds doms with
  | case1 doms next lighter ih => rw [ih, size_narrow]
  | case2 doms next done => rfl

/-! ## The sets of a function -/

variable {f : Function}

/-- The table that narrowing starts from. -/
def startTable (count : Nat) : Array BlockSet :=
  Array.ofFn fun (index : Fin count) =>
    if index.val = 0 then BlockSet.singleton ⟨0⟩ else .below count

theorem dominators_eq (f : Function) :
    f.dominators = settle (f.predecessors f.reachable) (startTable f.blocks.length) :=
  rfl

theorem getD_startTable {count index : Nat} (bound : index < count) :
    (startTable count).getD index .empty =
      if index = 0 then BlockSet.singleton ⟨0⟩ else .below count := by
  simp [startTable, Array.getD_eq_getD_getElem?, bound]

theorem startTable_within (count index : Nat) :
    ((startTable count).getD index .empty).Within (.below count) := by
  rcases Nat.lt_or_ge index count with bound | beyond
  · rw [getD_startTable bound]
    split
    · intro block has
      rw [BlockSet.contains_below]
      rw [BlockSet.singleton, BlockSet.contains_insert] at has
      obtain rfl : block = ⟨0⟩ := by simpa [BlockSet.empty, BlockSet.contains] using has
      exact decide_eq_true (Nat.lt_of_le_of_lt (Nat.zero_le index) bound)
    · exact .refl _
  · rw [Array.getD_eq_getD_getElem?, Array.getElem?_eq_none (by simpa [startTable] using beyond)]
    exact BlockSet.within_empty _

theorem shrinking_start (preds : Array (List BlockId)) (count : Nat) :
    Shrinking preds (startTable count) := by
  intro index bound
  replace bound : index < count := by simpa [startTable] using bound
  rw [getD_startTable bound]
  unfold refined
  split
  · exact .refl _
  · intro block has
    rw [BlockSet.contains_insert, Bool.or_eq_true] at has
    rcases has with above | here
    · rw [contains_common] at above
      obtain ⟨u, pred⟩ := List.exists_mem_of_ne_nil _ above.1
      exact startTable_within count u.index block (above.2 u pred)
    · rw [BlockSet.contains_below, of_decide_eq_true here]
      exact decide_eq_true bound

/-- The sets of a function are stable: one more round changes nothing. -/
theorem narrow_dominators (f : Function) :
    narrow (f.predecessors f.reachable) f.dominators = f.dominators := by
  rw [dominators_eq]
  exact (settle_stable (shrinking_start _ _)).1

/-- The set of every block is what its equation says. -/
theorem refined_dominators {index : Nat} (bound : index < f.blocks.length) :
    refined (f.predecessors f.reachable) f.dominators index =
      f.dominators.getD index .empty := by
  rw [dominators_eq]
  refine (settle_stable (shrinking_start _ _)).2 index ?_
  rw [size_settle]
  simpa [startTable] using bound

end Function

end SsaLowering.Ir
