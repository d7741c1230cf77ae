/-
# SsaLowering.Proofs.Ir.Layout -- where the values of a function come from

`Function.Layout f` is the part of the invariant of a function under construction
that needs no module: every entry of the value table is a parameter or the result of
exactly one instruction, in the block the entry records, terminators satisfy their
rule, and the slots are the first instructions of the entry block.  It holds of a
declaration (`layout_declare`) and is kept by all five changes of `Emission`.
-/
import SsaLowering.Proofs.Ir.Emission

namespace SsaLowering.Ir

set_option autoImplicit false

namespace Function

/-- `inst` stands in the block `block`. -/
def Has (f : Function) (block : BlockId) (inst : Instruction) : Prop :=
  ∃ data, f.block? block = some data ∧ inst ∈ data.instructions

/-- The values that instructions define, in block order. -/
def resultIds (f : Function) : List ValueId := f.instructions.filterMap (·.result)

/-- Every value has one origin, and slots come first. -/
structure Layout (f : Function) : Prop where
  params : f.params = (List.range f.ty.params.length).map ValueId.mk
  paramValue : ∀ i ty, f.ty.params[i]? = some ty →
    ∃ name, f.value? ⟨i⟩ = some ⟨name, ty, .param i⟩
  paramOrigin : ∀ id data i, f.value? id = some data → data.origin = .param i →
    id = ⟨i⟩ ∧ i < f.ty.params.length
  defined : ∀ id data block, f.value? id = some data → data.origin = .inst block →
    ∃ inst, f.Has block inst ∧ inst.result = some id
  unique : f.resultIds.Nodup
  result_known : ∀ block inst id, f.Has block inst → inst.result = some id →
    ∃ name t, f.value? id = some ⟨name, t, .inst block⟩
  terminated : ∀ block data t, f.block? block = some data → data.terminator = some t →
    f.checkTerminator t = .ok ()
  slotsFirst : ∀ block data, f.block? block = some data →
    ∃ slots, data.instructions = slots ++ data.code ∧ (∀ inst ∈ slots, inst.action.isAlloca) ∧
      (block ≠ ⟨0⟩ → slots = [])

variable {f : Function}

/-- Every defined value has a number below the size of the table. -/
theorem Layout.result_lt (laid : f.Layout) {block : BlockId} {inst : Instruction}
    {id : ValueId} (has : f.Has block inst) (result : inst.result = some id) :
    id.index < f.values.length := by
  obtain ⟨name, t, known⟩ := laid.result_known block inst id has result
  exact value?_lt known

theorem mem_instructions {inst : Instruction} :
    inst ∈ f.instructions ↔ ∃ block, f.Has block inst := by
  rw [instructions, List.mem_flatMap]
  constructor
  · rintro ⟨data, among, member⟩
    obtain ⟨i, known⟩ := List.mem_iff_getElem?.1 among
    exact ⟨⟨i⟩, data, known, member⟩
  · rintro ⟨block, data, known, member⟩
    exact ⟨data, List.mem_of_getElem? known, member⟩

theorem Layout.mem_resultIds_lt (laid : f.Layout) {id : ValueId}
    (member : id ∈ f.resultIds) : id.index < f.values.length := by
  obtain ⟨inst, among, result⟩ := List.mem_filterMap.1 member
  obtain ⟨block, has⟩ := mem_instructions.1 among
  exact laid.result_lt has result

/-! ## A declaration -/

theorem value?_declare (name : String) (ty : FunctionTy) (id : ValueId) :
    (declare name ty).value? id = ty.params[id.index]?.map fun param =>
      ⟨none, param, .param id.index⟩ := by
  simp [value?, declare]

theorem not_has_declare {name : String} {ty : FunctionTy} {block : BlockId} {inst : Instruction} :
    ¬ (declare name ty).Has block inst := by
  rintro ⟨data, absent, -⟩
  cases absent

theorem layout_declare (name : String) (ty : FunctionTy) : (declare name ty).Layout where
  params := rfl
  paramValue := fun i param known => ⟨none, by rw [value?_declare]; exact known ▸ rfl⟩
  paramOrigin := fun id data i known origin => by
    rw [value?_declare, Option.map_eq_some_iff] at known
    obtain ⟨param, known, rfl⟩ := known
    cases origin
    exact ⟨rfl, (List.getElem?_eq_some_iff.1 known).1⟩
  defined := fun id data block known origin => by
    rw [value?_declare, Option.map_eq_some_iff] at known
    obtain ⟨param, known, rfl⟩ := known
    cases origin
  unique := List.nodup_nil
  result_known := fun _ _ _ has => absurd has not_has_declare
  terminated := fun _ _ _ absent => by cases absent
  slotsFirst := fun _ _ absent => by cases absent

/-! ## New instructions -/

/-- A change of one item, by which its part grows. -/
theorem flatMap_modify_perm {α β : Type} {g : α → List β} {change : α → α} {xs : List β} :
    ∀ {l : List α} {i : Nat} {a : α}, l[i]? = some a → (g (change a)).Perm (g a ++ xs) →
      ((l.modify i change).flatMap g).Perm (l.flatMap g ++ xs)
  | a :: rest, 0, _, known, grown => by
    cases known
    simp only [List.modify_zero_cons, List.flatMap_cons]
    refine (grown.append_right _).trans ?_
    rw [List.append_assoc, List.append_assoc]
    exact (List.perm_append_comm).append_left _
  | a :: rest, i + 1, _, known, grown => by
    simp only [List.modify_succ_cons, List.flatMap_cons, List.append_assoc]
    exact (flatMap_modify_perm (List.getElem?_cons_succ.symm.trans known) grown).append_left _

theorem flatMap_modify_same {α β : Type} {g : α → List β} {change : α → α}
    (same : ∀ a, g (change a) = g a) :
    ∀ (l : List α) (i : Nat), (l.modify i change).flatMap g = l.flatMap g
  | [], _ => by simp
  | a :: rest, 0 => by simp [same]
  | a :: rest, i + 1 => by simp [flatMap_modify_same same rest i]

theorem lt_of_block? {block : BlockId} {data : BasicBlock} (known : f.block? block = some data) :
    block.index < f.blocks.length :=
  (List.getElem?_eq_some_iff.1 known).1

theorem resultIds_perm {g : Function} {inst : Instruction}
    (grown : g.instructions.Perm (f.instructions ++ [inst])) :
    g.resultIds.Perm (f.resultIds ++ inst.result.toList) := by
  refine (grown.filterMap _).trans (List.Perm.of_eq ?_)
  rw [List.filterMap_append, resultIds]
  cases result : inst.result <;> simp [result]

theorem instructions_push {block : BlockId} {data : BasicBlock}
    (known : f.block? block = some data) (action : Action) (ty : Option Ty) :
    (f.push block action ty).instructions.Perm
      (f.instructions ++ [⟨ty.map fun _ => ⟨f.values.length⟩, action⟩]) :=
  flatMap_modify_perm known (List.Perm.refl _)

theorem instructions_reserve {entry : BasicBlock} (known : f.block? ⟨0⟩ = some entry) (ty : Ty)
    (name : String) :
    (f.reserve ty name).instructions.Perm
      (f.instructions ++ [⟨some ⟨f.values.length⟩, .alloca ty⟩]) := by
  refine flatMap_modify_perm known ?_
  refine List.perm_middle.trans ?_
  rw [List.takeWhile_append_dropWhile]
  exact (List.perm_append_singleton _ _).symm

theorem has_push {block id : BlockId} {data : BasicBlock} (known : f.block? block = some data)
    {action : Action} {ty : Option Ty} {inst : Instruction} :
    (f.push block action ty).Has id inst ↔
      f.Has id inst ∨ (id = block ∧ inst = ⟨ty.map fun _ => ⟨f.values.length⟩, action⟩) := by
  simp only [Has, block?_push, Option.map_eq_some_iff]
  constructor
  · rintro ⟨_, ⟨data', known', rfl⟩, member⟩
    split at member
    · rename_i here
      rcases List.mem_append.1 member with old | new
      · exact Or.inl ⟨data', known', old⟩
      · exact Or.inr ⟨here.symm, List.mem_singleton.1 new⟩
    · exact Or.inl ⟨data', known', member⟩
  · rintro (⟨data', known', member⟩ | ⟨rfl, rfl⟩)
    · refine ⟨_, ⟨data', known', rfl⟩, ?_⟩
      split
      · exact List.mem_append_left _ member
      · exact member
    · refine ⟨_, ⟨data, known, rfl⟩, ?_⟩
      simp [BasicBlock.append]

theorem has_reserve {id : BlockId} {entry : BasicBlock} (known : f.block? ⟨0⟩ = some entry)
    {ty : Ty} {name : String} {inst : Instruction} :
    (f.reserve ty name).Has id inst ↔
      f.Has id inst ∨ (id = ⟨0⟩ ∧ inst = ⟨some ⟨f.values.length⟩, .alloca ty⟩) := by
  have among (data : BasicBlock) (new : Instruction) :
      inst ∈ (data.insertSlot new).instructions ↔ inst ∈ data.instructions ∨ inst = new := by
    conv_rhs => rw [← data.instructions.takeWhile_append_dropWhile
      (p := fun inst => inst.action.isAlloca)]
    simp only [BasicBlock.insertSlot, List.mem_append, List.mem_cons]
    tauto
  simp only [Has, block?_reserve, Option.map_eq_some_iff]
  constructor
  · rintro ⟨_, ⟨data, known', rfl⟩, member⟩
    split at member
    · rename_i here
      exact ((among _ _).1 member).imp (fun old => ⟨data, known', old⟩) fun new => ⟨here, new⟩
    · exact Or.inl ⟨data, known', member⟩
  · rintro (⟨data, known', member⟩ | ⟨rfl, rfl⟩)
    · refine ⟨_, ⟨data, known', rfl⟩, ?_⟩
      split
      · exact (among _ _).2 (Or.inl member)
      · exact member
    · exact ⟨_, ⟨entry, known, rfl⟩, by rw [if_pos rfl]; exact (among _ _).2 (Or.inr rfl)⟩

/-! ## Ends, names and new blocks -/

theorem has_close {block id : BlockId} {terminator : Terminator} {inst : Instruction} :
    (f.close block terminator).Has id inst ↔ f.Has id inst := by
  simp only [Has, block?_close, Option.map_eq_some_iff]
  constructor
  · rintro ⟨_, ⟨before, value, rfl⟩, member⟩
    refine ⟨before, value, ?_⟩
    split at member <;> exact member
  · rintro ⟨before, value, member⟩
    refine ⟨_, ⟨before, value, rfl⟩, ?_⟩
    split <;> exact member

theorem instructions_close (f : Function) (block : BlockId) (terminator : Terminator) :
    (f.close block terminator).instructions = f.instructions := by
  unfold close instructions
  exact flatMap_modify_same (by intro _; rfl) _ _

theorem block?_addBlock_cases {label : String} {id : BlockId} {data : BasicBlock}
    (known : (f.addBlock label).block? id = some data) :
    f.block? id = some data ∨ data = ⟨label, [], none⟩ := by
  rw [block?_addBlock] at known
  split at known
  · exact Or.inr (Option.some.inj known).symm
  · exact Or.inl known

theorem has_addBlock {label : String} {id : BlockId} {inst : Instruction} :
    (f.addBlock label).Has id inst ↔ f.Has id inst := by
  constructor
  · rintro ⟨data, known, member⟩
    rcases block?_addBlock_cases known with old | rfl
    · exact ⟨data, old, member⟩
    · cases member
  · rintro ⟨data, known, member⟩
    refine ⟨data, ?_, member⟩
    rw [block?_addBlock, if_neg (Nat.ne_of_lt (lt_of_block? known))]
    exact known

theorem instructions_addBlock (f : Function) (label : String) :
    (f.addBlock label).instructions = f.instructions := by
  simp [instructions, addBlock]

/-! ## Results -/

theorem Layout.resultIds_nodup (laid : f.Layout) {g : Function} {inst : Instruction}
    (grown : g.instructions.Perm (f.instructions ++ [inst]))
    (fresh : ∀ id, inst.result = some id → id = ⟨f.values.length⟩) : g.resultIds.Nodup := by
  rw [(resultIds_perm grown).nodup_iff, List.nodup_append]
  refine ⟨laid.unique, by cases inst.result <;> simp, fun id old id' new same => ?_⟩
  subst same
  have bound := laid.mem_resultIds_lt old
  have here := fresh id (Option.mem_toList.1 new)
  subst here
  exact absurd bound (Nat.lt_irrefl _)

/-- Results that are there stay in the table. -/
theorem Layout.result_mono (laid : f.Layout) {g : Function} (grown : f.Extends g)
    {block : BlockId} {inst : Instruction} {id : ValueId} (has : f.Has block inst)
    (result : inst.result = some id) : ∃ name t, g.value? id = some ⟨name, t, .inst block⟩ := by
  obtain ⟨name, t, known⟩ := laid.result_known block inst id has result
  obtain ⟨name', known⟩ := grown.values id _ known
  exact ⟨name', t, known⟩

/-! ## Every change keeps the layout -/

/-- An entry behind a table of values is the only one that is not in the table. -/
theorem getElem?_append_toList {values : List ValueData} (added : Option ValueData) {index : Nat}
    {data : ValueData} (known : (values ++ added.toList)[index]? = some data) :
    values[index]? = some data ∨ (index = values.length ∧ added = some data) := by
  rcases Nat.lt_or_ge index values.length with before | beyond
  · rw [List.getElem?_append_left before] at known
    exact Or.inl known
  · rw [List.getElem?_append_right beyond] at known
    cases added with
    | none => simp at known
    | some new =>
      obtain ⟨bound, rfl⟩ := List.getElem?_eq_some_iff.1 known
      simp only [Option.toList_some, List.length_singleton] at bound
      exact Or.inr ⟨by omega, by simp⟩

theorem layout_push (laid : f.Layout) {block : BlockId} {data : BasicBlock}
    (known : f.block? block = some data) (unended : data.terminator = none) {action : Action}
    (effect : action.isAlloca = false) (ty : Option Ty) :
    (f.push block action ty).Layout where
  params := laid.params
  paramValue := fun i t param => by
    obtain ⟨name, value⟩ := laid.paramValue i t param
    exact ⟨name, value?_push_of_some value block action ty⟩
  paramOrigin := fun id entry i value origin => by
    rcases getElem?_append_toList _ value with old | ⟨-, new⟩
    · exact laid.paramOrigin id entry i old origin
    · obtain ⟨t, -, rfl⟩ := Option.map_eq_some_iff.1 new
      cases origin
  defined := fun id entry block' value origin => by
    rcases getElem?_append_toList _ value with old | ⟨here, new⟩
    · obtain ⟨inst, has, result⟩ := laid.defined id entry block' old origin
      exact ⟨inst, (has_push known).2 (Or.inl has), result⟩
    · obtain ⟨t, rfl, rfl⟩ := Option.map_eq_some_iff.1 new
      cases origin
      refine ⟨_, (has_push known).2 (Or.inr ⟨rfl, rfl⟩), ?_⟩
      cases id
      simpa using here.symm
  unique := by
    refine laid.resultIds_nodup (instructions_push known action ty) fun id result => ?_
    obtain ⟨_, _, rfl⟩ := Option.map_eq_some_iff.1 result
    rfl
  result_known := fun id inst value has result => by
    have grown := extends_push known unended action ty
    rcases (has_push known).1 has with old | ⟨rfl, rfl⟩
    · exact laid.result_mono grown old result
    · obtain ⟨t, rfl, rfl⟩ := Option.map_eq_some_iff.1 result
      exact ⟨none, t, by simp [value?, push]⟩
  terminated := fun id after t value ended => by
    rw [block?_push, Option.map_eq_some_iff] at value
    obtain ⟨before, value, rfl⟩ := value
    refine checkTerminator_mono (extends_push known unended action ty)
      (laid.terminated id before t value ?_)
    split at ended <;> exact ended
  slotsFirst := fun id after value => by
    rw [block?_push, Option.map_eq_some_iff] at value
    obtain ⟨before, value, rfl⟩ := value
    obtain ⟨slots, split_, leading, only⟩ := laid.slotsFirst id before value
    refine ⟨slots, ?_, leading, only⟩
    split
    · rw [BasicBlock.code_append, effect, if_neg Bool.false_ne_true, ← List.append_assoc,
        ← split_]
      rfl
    · exact split_

theorem layout_close (laid : f.Layout) {block : BlockId} {data : BasicBlock}
    (known : f.block? block = some data) (unended : data.terminator = none)
    {terminator : Terminator} (checked : f.checkTerminator terminator = .ok ()) :
    (f.close block terminator).Layout where
  params := laid.params
  paramValue := laid.paramValue
  paramOrigin := laid.paramOrigin
  defined := fun id entry block' value origin => by
    obtain ⟨inst, has, result⟩ := laid.defined id entry block' value origin
    exact ⟨inst, has_close.2 has, result⟩
  unique := by
    rw [resultIds, instructions_close]
    exact laid.unique
  result_known := fun id inst value has =>
    laid.result_mono (extends_close known unended terminator) (has_close.1 has)
  terminated := fun id after t value ended => by
    rw [block?_close, Option.map_eq_some_iff] at value
    obtain ⟨before, value, rfl⟩ := value
    refine checkTerminator_mono (extends_close known unended terminator) ?_
    split at ended
    · cases ended
      exact checked
    · exact laid.terminated id before t value ended
  slotsFirst := fun id after value => by
    rw [block?_close, Option.map_eq_some_iff] at value
    obtain ⟨before, value, rfl⟩ := value
    obtain ⟨slots, split_, leading, only⟩ := laid.slotsFirst id before value
    refine ⟨slots, ?_, leading, only⟩
    split <;> exact split_

theorem insertSlot_of_slotsFirst {data : BasicBlock} {slots : List Instruction}
    (split_ : data.instructions = slots ++ data.code)
    (leading : ∀ inst ∈ slots, inst.action.isAlloca) (inst : Instruction) :
    (data.insertSlot inst).instructions = slots ++ inst :: data.code := by
  have none_ : data.code.takeWhile (·.action.isAlloca) = [] := by
    rw [List.takeWhile_eq_nil_iff]
    intro bound
    have member := List.getElem_mem bound
    exact (Bool.not_eq_true' _).mp (List.mem_filter.1 member).2 |> ne_true_of_eq_false
  have rest : data.code.dropWhile (·.action.isAlloca) = data.code := by
    have whole := data.code.takeWhile_append_dropWhile (p := fun inst => inst.action.isAlloca)
    rwa [none_, List.nil_append] at whole
  rw [BasicBlock.insertSlot, split_, List.takeWhile_append_of_pos leading,
    List.dropWhile_append_of_pos leading, none_, rest, List.append_nil]

theorem layout_reserve (laid : f.Layout) {entry : BasicBlock}
    (known : f.block? ⟨0⟩ = some entry) (ty : Ty) (name : String) :
    (f.reserve ty name).Layout where
  params := laid.params
  paramValue := fun i t param => by
    obtain ⟨name', value⟩ := laid.paramValue i t param
    exact ⟨name', value?_reserve_of_some value ty name⟩
  paramOrigin := fun id entry i value origin => by
    rcases getElem?_append_toList (some _) value with old | ⟨-, new⟩
    · exact laid.paramOrigin id entry i old origin
    · cases new
      cases origin
  defined := fun id data block value origin => by
    rcases getElem?_append_toList (some _) value with old | ⟨here, new⟩
    · obtain ⟨inst, has, result⟩ := laid.defined id data block old origin
      exact ⟨inst, (has_reserve known).2 (Or.inl has), result⟩
    · cases new
      cases origin
      refine ⟨_, (has_reserve known).2 (Or.inr ⟨rfl, rfl⟩), ?_⟩
      cases id
      simpa using here.symm
  unique := by
    refine laid.resultIds_nodup (instructions_reserve known ty name) fun id result => ?_
    cases result
    rfl
  result_known := fun id inst value has result => by
    have grown := extends_reserve f ty name
    rcases (has_reserve known).1 has with old | ⟨rfl, rfl⟩
    · exact laid.result_mono grown old result
    · cases result
      exact ⟨some name, .ptr, by simp [value?, reserve]⟩
  terminated := fun id after t value ended => by
    rw [block?_reserve, Option.map_eq_some_iff] at value
    obtain ⟨before, value, rfl⟩ := value
    refine checkTerminator_mono (extends_reserve f ty name) (laid.terminated id before t value ?_)
    split at ended <;> exact ended
  slotsFirst := fun id after value => by
    rw [block?_reserve, Option.map_eq_some_iff] at value
    obtain ⟨before, value, rfl⟩ := value
    obtain ⟨slots, split_, leading, only⟩ := laid.slotsFirst id before value
    split
    · -- the entry block: the new slot is the last of those that lead it
      rename_i here
      refine ⟨slots ++ [⟨some ⟨f.values.length⟩, .alloca ty⟩], ?_, ?_, fun other =>
        absurd here other⟩
      · rw [insertSlot_of_slotsFirst split_ leading, BasicBlock.code_insertSlot _ rfl]
        simp
      · intro inst member
        rcases List.mem_append.1 member with old | new
        · exact leading inst old
        · rw [List.mem_singleton.1 new]
          rfl
    · exact ⟨slots, split_, leading, only⟩

/-- A new slot holds what it was reserved for. -/
theorem Layout.slotTy?_reserve (laid : f.Layout) {entry : BasicBlock}
    (known : f.block? ⟨0⟩ = some entry) (ty : Ty) (name : String) :
    (f.reserve ty name).slotTy? (.value ⟨f.values.length⟩) = some ty := by
  have older : ∀ inst ∈ entry.instructions.takeWhile (·.action.isAlloca),
      inst.slotOf? ⟨f.values.length⟩ = none := by
    intro inst member
    refine slotOf?_of_ne fun result => ?_
    have has : f.Has ⟨0⟩ inst := ⟨entry, known, (List.takeWhile_sublist _).subset member⟩
    exact absurd (laid.result_lt has result) (Nat.lt_irrefl _)
  rw [slotTy?_value]
  simp only [block?] at known
  simp only [reserve]
  cases blocks : f.blocks with
  | nil =>
    rw [blocks] at known
    cases known
  | cons first rest =>
    rw [blocks] at known
    cases known
    rw [List.modify_zero_cons, List.findSome?_cons, List.findSome?_append,
      List.findSome?_eq_none_iff.2 older]
    simp [Instruction.slotOf?]

theorem layout_rename (laid : f.Layout) (value : ValueId) (name : String) :
    (f.rename value name).Layout := by
  have grown := extends_rename f value name
  have same : ∀ {id data}, (f.rename value name).value? id = some data →
      ∃ name', f.value? id = some { data with name := name' } := by
    intro id data known
    rw [value?_rename, Option.map_eq_some_iff] at known
    obtain ⟨before, known, rfl⟩ := known
    refine ⟨before.name, ?_⟩
    split <;> exact known
  exact {
    params := laid.params
    paramValue := fun i t param => by
      obtain ⟨name', known⟩ := laid.paramValue i t param
      obtain ⟨name'', known⟩ := grown.values _ _ known
      exact ⟨name'', known⟩
    paramOrigin := fun id data i known origin => by
      obtain ⟨name', known⟩ := same known
      exact laid.paramOrigin id _ i known origin
    defined := fun id data block known origin => by
      obtain ⟨name', known⟩ := same known
      exact laid.defined id _ block known origin
    unique := laid.unique
    result_known := fun id inst value has => laid.result_mono grown has
    terminated := fun id data t known ended =>
      checkTerminator_mono grown (laid.terminated id data t known ended)
    slotsFirst := laid.slotsFirst }

theorem layout_addBlock (laid : f.Layout) (label : String) : (f.addBlock label).Layout where
  params := laid.params
  paramValue := laid.paramValue
  paramOrigin := laid.paramOrigin
  defined := fun id data block known origin => by
    obtain ⟨inst, has, result⟩ := laid.defined id data block known origin
    exact ⟨inst, has_addBlock.2 has, result⟩
  unique := by
    rw [resultIds, instructions_addBlock]
    exact laid.unique
  result_known := fun id inst value has =>
    laid.result_mono (extends_addBlock f label) (has_addBlock.1 has)
  terminated := fun id data t known ended => by
    rcases block?_addBlock_cases known with old | rfl
    · exact checkTerminator_mono (extends_addBlock f label) (laid.terminated id data t old ended)
    · cases ended
  slotsFirst := fun id data known => by
    rcases block?_addBlock_cases known with old | rfl
    · exact laid.slotsFirst id data old
    · exact ⟨[], rfl, by simp, fun _ => rfl⟩

end Function

end SsaLowering.Ir
