/-
# SsaLowering.Proofs.Ir.Dominance -- an account of dominance, and what it is good for

A `Dominance f D` is a relation `D` on the blocks of `f`, read "is dominated by",
that follows the edges backwards and under which every read has its definition
before it.  It can be kept while the function is built, one block at a time, and
it never has to be the largest such relation.  The computed sets contain it
(`Backwards.contains_dominators`), so a function with an account passes the last
check of the verifier (`Dominance.dominated`).
-/
import SsaLowering.Proofs.Ir.Search
import SsaLowering.Proofs.Ir.Verification

namespace SsaLowering.Ir

set_option autoImplicit false

/-! ## Reachable blocks -/

namespace Function

variable {f : Function} {v : BlockId}

theorem lt_of_mem_reachable (reached : v ∈ f.reachable) : v.index < f.blocks.length :=
  mem_blockIds.1 (List.mem_filter.1 reached).1

/-- A reachable block other than the entry has a reachable predecessor. -/
theorem exists_predecessor (reached : v ∈ f.reachable) (other : v ≠ ⟨0⟩) :
    ∃ u ∈ f.reachable, v ∈ f.successors u := by
  obtain ⟨entry, first, path⟩ := mem_reachable_iff.1 reached
  obtain ⟨rfl, -⟩ := entry?_eq_some.1 first
  rcases path.cases_tail with same | ⟨u, before, edge⟩
  · exact absurd same other
  · exact ⟨u, mem_reachable_iff.2 ⟨_, first, before⟩, edge.successor⟩

theorem mem_predecessors (reached : v ∈ f.reachable) {u : BlockId} :
    u ∈ (f.predecessors f.reachable).getD v.index [] ↔ u ∈ f.reachable ∧ v ∈ f.successors u := by
  have bound := lt_of_mem_reachable reached
  simp only [predecessors, Array.getD_eq_getD_getElem?, List.getElem?_toArray,
    List.getElem?_map, blockIds, List.getElem?_range bound, Option.map_some, Option.getD_some,
    List.mem_map, List.mem_filter, List.contains_iff_mem]
  constructor
  · rintro ⟨_, ⟨⟨u, visited, rfl⟩, edge⟩, rfl⟩
    exact ⟨visited, edge⟩
  · rintro ⟨visited, edge⟩
    exact ⟨_, ⟨⟨u, visited, rfl⟩, edge⟩, rfl⟩

/-! ## Narrowing -/

theorem contains_common {doms : Array BlockSet} {d : BlockId} :
    ∀ {blocks : List BlockId}, (common doms blocks).contains d ↔
      blocks ≠ [] ∧ ∀ u ∈ blocks, (doms.getD u.index .empty).contains d
  | [] => by simp [common, BlockSet.empty, BlockSet.contains]
  | first :: rest => by
    have step : ∀ (blocks : List BlockId) (acc : BlockSet),
        (blocks.foldl (fun acc block => acc.inter (doms.getD block.index .empty)) acc).contains
          d ↔ acc.contains d ∧ ∀ u ∈ blocks, (doms.getD u.index .empty).contains d := by
      intro blocks
      induction blocks with
      | nil => simp
      | cons block blocks ih =>
        intro acc
        rw [List.foldl_cons, ih, BlockSet.contains_inter, Bool.and_eq_true, List.forall_mem_cons,
          and_assoc]
    rw [common, step, List.forall_mem_cons]
    simp

/-! ## Accounts of dominance -/

/-- The value is defined before the end of the code `before` of `block`, or in another
block that `D` says dominates it; parameters and slots are defined before any code. -/
def Provides (f : Function) (D : BlockId → BlockId → Prop) (block : BlockId)
    (before : List Instruction) (id : ValueId) : Prop :=
  ∃ data, f.value? id = some data ∧ ∀ home, data.origin = .inst home →
    D block home ∧ (home = block →
      (f.slotTy? (.value id)).isSome ∨ ∃ inst ∈ before, inst.result = some id)

/-- `D v d` says that every walk to `v` passes `d`. -/
structure Dominance (f : Function) (D : BlockId → BlockId → Prop) : Prop where
  entry : ∀ d, D ⟨0⟩ d → d = ⟨0⟩
  bound : ∀ v d, D v d → v.index < f.blocks.length ∧ d.index < f.blocks.length
  self : ∀ v, v.index < f.blocks.length → D v v
  root : ∀ v, v.index < f.blocks.length → D v ⟨0⟩
  edge : ∀ u v d, v ∈ f.successors u → D v d → d = v ∨ D u d
  reads : ∀ id data before inst after v, f.block? id = some data →
    data.code = before ++ inst :: after → .value v ∈ inst.action.operands →
      f.Provides D id before v
  ends : ∀ id data t v, f.block? id = some data → data.terminator = some t →
    .value v ∈ t.operands → f.Provides D id data.code v

variable {D : BlockId → BlockId → Prop}

/-- `D` follows the edges between reachable blocks backwards. -/
structure Backwards (f : Function) (D : BlockId → BlockId → Prop) : Prop where
  entry : ∀ d, D ⟨0⟩ d → d = ⟨0⟩
  bound : ∀ v d, D v d → d.index < f.blocks.length
  edge : ∀ u v d, u ∈ f.reachable → v ∈ f.successors u → D v d → d = v ∨ D u d

theorem Dominance.backwards (account : f.Dominance D) : f.Backwards D where
  entry := account.entry
  bound := fun v d dom => (account.bound v d dom).2
  edge := fun u v d _ => account.edge u v d

/-- The sets contain what the account says, on reachable blocks. -/
def Kept (f : Function) (D : BlockId → BlockId → Prop) (doms : Array BlockSet) : Prop :=
  doms.size = f.blocks.length ∧
    ∀ v d, v ∈ f.reachable → D v d → (doms.getD v.index .empty).contains d

theorem Backwards.contains_refined (back : f.Backwards D) {doms : Array BlockSet}
    (kept : Kept f D doms) {v d : BlockId} (reached : v ∈ f.reachable) (dom : D v d) :
    (refined (f.predecessors f.reachable) doms v.index).contains d := by
  unfold refined
  split
  · rename_i first
    obtain rfl : v = ⟨0⟩ := by cases v; simpa using first
    rw [back.entry d dom, BlockSet.singleton, BlockSet.contains_insert]
    simp
  · rename_i other
    rw [BlockSet.contains_insert, Bool.or_eq_true]
    by_cases here : d = v
    · exact Or.inr (by simp [here])
    · left
      obtain ⟨u, visited, edge⟩ := exists_predecessor reached (by rintro rfl; exact other rfl)
      refine contains_common.2 ⟨List.ne_nil_of_mem ((mem_predecessors reached).2 ⟨visited, edge⟩),
        fun u pred => ?_⟩
      obtain ⟨visited, edge⟩ := (mem_predecessors reached).1 pred
      exact kept.2 u d visited ((back.edge u v d visited edge dom).resolve_left here)

theorem Backwards.kept_set (back : f.Backwards D) {doms : Array BlockSet}
    (kept : Kept f D doms) (index : Nat) :
    Kept f D (doms.setIfInBounds index
      (refined (f.predecessors f.reachable) doms index)) := by
  refine ⟨by rw [Array.size_setIfInBounds]; exact kept.1, fun v d reached dom => ?_⟩
  have old := kept.2 v d reached dom
  have bound : v.index < doms.size := kept.1 ▸ lt_of_mem_reachable reached
  rw [Array.getD_eq_getD_getElem?, Array.getElem?_setIfInBounds]
  split
  · rename_i here
    subst here
    rw [if_pos bound]
    exact back.contains_refined kept reached dom
  · rwa [Array.getD_eq_getD_getElem?] at old

theorem Backwards.kept_narrow (back : f.Backwards D) {doms : Array BlockSet}
    (kept : Kept f D doms) :
    Kept f D (narrow (f.predecessors f.reachable) doms) := by
  unfold narrow
  generalize List.range doms.size = rounds
  induction rounds generalizing doms with
  | nil => exact kept
  | cons index rest ih => exact ih (back.kept_set kept index)

theorem Backwards.kept_settle (back : f.Backwards D) {doms : Array BlockSet}
    (kept : Kept f D doms) :
    Kept f D (settle (f.predecessors f.reachable) doms) := by
  generalize same : f.predecessors f.reachable = preds
  fun_induction settle preds doms with
  | case1 doms next smaller ih =>
    subst same
    exact ih (back.kept_narrow kept)
  | case2 doms next done => exact kept

/-- The computed sets contain what an account says of a reachable block. -/
theorem Backwards.contains_dominators (back : f.Backwards D) {v d : BlockId}
    (reached : v ∈ f.reachable) (dom : D v d) :
    (f.dominators.getD v.index .empty).contains d := by
  refine (back.kept_settle ⟨by simp, fun v d reached dom => ?_⟩).2 v d reached dom
  have bound := lt_of_mem_reachable reached
  simp only [Array.getD_eq_getD_getElem?, Array.getElem?_ofFn, bound, dif_pos, Option.getD_some]
  split
  · rename_i first
    obtain rfl : v = ⟨0⟩ := by cases v; simpa using first
    rw [back.entry d dom, BlockSet.singleton, BlockSet.contains_insert]
    simp
  · rw [BlockSet.contains_below]
    exact decide_eq_true (back.bound v d dom)

/-! ## A function with an account passes the last check -/

/-- A value is the result of one instruction only. -/
theorem WellFormed.site_unique {m : Module} (ok : f.WellFormed m) {id : ValueId} {a b : Site}
    (here : (id, a) ∈ f.results) (there : (id, b) ∈ f.results) : a = b := by
  have distinct := ok.unique
  rw [← map_fst_results] at distinct
  cases List.inj_on_of_nodup_map distinct here there rfl
  rfl

theorem slotTy?_isSome {id : ValueId} (slot : (f.slotTy? (.value id)).isSome) :
    ∃ block inst, f.Has block inst ∧ inst.action.isAlloca ∧ inst.result = some id := by
  obtain ⟨ty, found⟩ := Option.isSome_iff_exists.1 slot
  rw [slotTy?_value] at found
  obtain ⟨data, among, found⟩ := List.exists_of_findSome?_eq_some found
  obtain ⟨inst, member, found⟩ := List.exists_of_findSome?_eq_some found
  obtain ⟨i, known⟩ := List.mem_iff_getElem?.1 among
  refine ⟨⟨i⟩, inst, ⟨data, known, member⟩, ?_⟩
  unfold Instruction.slotOf? at found
  split at found
  · rename_i ty' alloca
    split at found
    · rename_i result
      exact ⟨by rw [alloca]; rfl, result⟩
    · cases found
  · cases found

/-- A slot stands before the code of the entry block. -/
theorem WellFormed.slot_site {m : Module} (ok : f.WellFormed m) {id : ValueId}
    (slot : (f.slotTy? (.value id)).isSome) {block : BlockId} {data : BasicBlock}
    (known : f.block? block = some data) {slots : List Instruction}
    (split_ : data.instructions = slots ++ data.code) {site : Site}
    (here : (id, site) ∈ f.results) (home : site.block = block) : site.position < slots.length := by
  obtain ⟨b, inst, ⟨data', known', member⟩, isSlot, result⟩ := slotTy?_isSome slot
  obtain ⟨j, place⟩ := List.mem_iff_getElem?.1 member
  have listed : (id, Site.mk b j) ∈ f.results :=
    mem_results.2 ⟨data', inst, known', place, result⟩
  obtain rfl := ok.site_unique here listed
  subst home
  cases known.symm.trans known'
  rw [split_] at place
  rcases Nat.lt_or_ge j slots.length with before | beyond
  · exact before
  · rw [List.getElem?_append_right beyond] at place
    have effect := (List.mem_filter.1 (List.mem_of_getElem? place)).2
    rw [isSlot] at effect
    cases effect

/-- What is provided before a position of a block is defined there, or in a dominator. -/
theorem WellFormed.defined_before {m : Module} (ok : f.WellFormed m) {block : BlockId}
    {data : BasicBlock} (known : f.block? block = some data) {slots before after : List Instruction}
    (split_ : data.instructions = slots ++ data.code) (code : data.code = before ++ after)
    {id : ValueId} (provided : f.Provides D block before id) {site : Site}
    (here : (id, site) ∈ f.results) :
    D block site.block ∧
      (site.block = block → site.position < slots.length + before.length) := by
  obtain ⟨entry, value, origin⟩ := provided
  obtain ⟨home, inst, known', place, result⟩ := mem_results.1 here
  obtain ⟨name, t, value'⟩ :=
    ok.result_known ⟨home, known', List.mem_of_getElem? place⟩ result
  cases value.symm.trans value'
  obtain ⟨dom, defined⟩ := origin site.block rfl
  refine ⟨dom, fun same => ?_⟩
  rcases defined same with slot | ⟨inst', member, result'⟩
  · have early := ok.slot_site slot known split_ here same
    omega
  · obtain ⟨j, place'⟩ := List.mem_iff_getElem?.1 member
    have bound := (List.getElem?_eq_some_iff.1 place').1
    have listed : data.instructions[slots.length + j]? = some inst' := by
      rw [split_, code, List.getElem?_append_right (by omega),
        List.getElem?_append_left (by omega)]
      simpa using place'
    have there : (id, Site.mk block (slots.length + j)) ∈ f.results :=
      mem_results.2 ⟨data, inst', known, listed, result'⟩
    rw [ok.site_unique here there]
    exact Nat.add_lt_add_left bound _

/-- What a use reads is defined earlier in its block, or in a dominator. -/
theorem Dominance.use_defined {m : Module} (ok : f.WellFormed m) (account : f.Dominance D)
    {block : BlockId} {data : BasicBlock} (known : f.block? block = some data) {use : Use}
    (read : use ∈ data.uses) {site : Site} (here : (use.value, site) ∈ f.results) :
    D block site.block ∧ (site.block = block → site.position < use.position) := by
  obtain ⟨slots, split_, leading, -⟩ := ok.slotsFirst block data known
  rcases mem_uses.1 read with ⟨inst, place, member⟩ | ⟨last, t, ended, member⟩
  · -- a slot reads nothing, so the instruction stands in the code
    have beyond : slots.length ≤ use.position := by
      rcases Nat.lt_or_ge use.position slots.length with before | beyond
      · rw [split_, List.getElem?_append_left before] at place
        have isSlot := leading inst (List.mem_of_getElem? place)
        cases action : inst.action <;> rw [action] at isSlot member
        · cases member
        all_goals cases isSlot
      · exact beyond
    rw [split_, List.getElem?_append_right beyond] at place
    obtain ⟨bound, rfl⟩ := List.getElem?_eq_some_iff.1 place
    have code : data.code = data.code.take (use.position - slots.length) ++
        data.code[use.position - slots.length] ::
          data.code.drop (use.position - slots.length + 1) := by
      rw [List.getElem_cons_drop, List.take_append_drop]
    have early := ok.defined_before known split_ code
      (account.reads block data _ _ _ _ known code member) here
    rwa [List.length_take, Nat.min_eq_left (Nat.le_of_lt bound), Nat.add_sub_cancel' beyond]
      at early
  · have early := ok.defined_before known split_ (List.append_nil _).symm
      (account.ends block data t _ known ended member) here
    rwa [← List.length_append, ← split_, ← last] at early

theorem Dominance.dominated {m : Module} (ok : f.WellFormed m) (account : f.Dominance D) :
    f.Dominated := by
  intro id block use site known read here reached
  rw [List.contains_iff_mem] at reached
  obtain ⟨dom, early⟩ := account.use_defined ok known read here
  unfold Function.precedes
  split
  · rename_i same
    exact decide_eq_true (early same)
  · exact account.backwards.contains_dominators reached dom

end Function

end SsaLowering.Ir
