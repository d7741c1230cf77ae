/-
# SsaLowering.Proofs.Ir.Aggregates -- where the aggregates of a function are

`Function.aggregates` lists the instructions and ends that have aggregates among their
operands, each as a row that shows which operands are aggregates and which.  The order of the
rows does not matter: a new instruction adds its row, wherever it stands, and no other change
of a function adds one.
-/
import SsaLowering.Proofs.Ir.Mentions

namespace SsaLowering

set_option autoImplicit false

/-- A row, unless nothing is in it. -/
def occupied {α : Type} (row : List (Option α)) : List (List (Option α)) :=
  if row.any Option.isSome then [row] else []

theorem occupied_map {α β : Type} (g : α → β) (row : List (Option α)) :
    occupied (row.map (Option.map g)) = (occupied row).map (List.map (Option.map g)) := by
  have same : (row.map (Option.map g)).any Option.isSome = row.any Option.isSome := by
    simp [List.any_map, Function.comp_def]
  rw [occupied, occupied, same]
  split <;> rfl

theorem mem_occupied {α : Type} {row : List (Option α)} {a : α} (member : some a ∈ row) :
    row ∈ occupied row := by
  have any : row.any Option.isSome = true := List.any_eq_true.2 ⟨_, member, rfl⟩
  rw [occupied, if_pos any]
  exact List.mem_singleton_self row

namespace Ir

def Operand.aggregate? : Operand → Option Constant
  | .constant (.struct ty fields) => some (.struct ty fields)
  | _ => none

/-- The row of the aggregates among operands. -/
def aggregatesAmong (operands : List Operand) : List (List (Option Constant)) :=
  occupied (operands.map Operand.aggregate?)

def BasicBlock.aggregates (block : BasicBlock) : List (List (Option Constant)) :=
  block.instructions.flatMap (fun inst => aggregatesAmong inst.action.operands) ++
    block.terminator.toList.flatMap fun terminator => aggregatesAmong terminator.operands

def Function.aggregates (f : Function) : List (List (Option Constant)) :=
  f.blocks.flatMap (·.aggregates)

/-- Among operands that are no aggregates there is no row. -/
theorem aggregatesAmong_eq_nil {operands : List Operand}
    (plain : ∀ operand ∈ operands, operand.aggregate? = none) : aggregatesAmong operands = [] := by
  rw [aggregatesAmong, occupied, if_neg]
  simpa using plain

theorem exists_row_of_mem {operands : List Operand} {ty : StructTy} {fields : List Constant}
    (member : .constant (.struct ty fields) ∈ operands) :
    ∃ row ∈ aggregatesAmong operands, some (.struct ty fields) ∈ row :=
  have placed : some (Constant.struct ty fields) ∈ operands.map Operand.aggregate? :=
    List.mem_map.2 ⟨_, member, rfl⟩
  ⟨_, mem_occupied placed, placed⟩

namespace Function

variable {f : Function} {block : BlockId}

/-- Each aggregate that a function mentions is in a row. -/
theorem exists_row_of_mentions {ty : StructTy} {fields : List Constant}
    (mentioned : .constant (.struct ty fields) ∈ f.mentions) :
    ∃ row ∈ f.aggregates, some (.struct ty fields) ∈ row := by
  obtain ⟨data, among, mentioned⟩ := List.mem_flatMap.1 mentioned
  have within (row : List (Option Constant)) (member : row ∈ data.aggregates) :
      row ∈ f.aggregates := List.mem_flatMap.2 ⟨data, among, member⟩
  rcases List.mem_append.1 mentioned with here | here
  · obtain ⟨inst, member, here⟩ := List.mem_flatMap.1 here
    have operand : .constant (.struct ty fields) ∈ inst.action.operands := by
      rcases List.mem_append.1 here with callee | operand
      · cases action : inst.action <;> simp [action] at callee
      · exact operand
    obtain ⟨row, listed, found⟩ := exists_row_of_mem operand
    exact ⟨row, within row (List.mem_append_left _ (List.mem_flatMap.2 ⟨inst, member, listed⟩)),
      found⟩
  · obtain ⟨terminator, member, here⟩ := List.mem_flatMap.1 here
    obtain ⟨row, listed, found⟩ := exists_row_of_mem here
    exact ⟨row,
      within row (List.mem_append_right _ (List.mem_flatMap.2 ⟨terminator, member, listed⟩)), found⟩

theorem aggregates_push {data : BasicBlock} (known : f.block? block = some data) (action : Action)
    (ty : Option Ty) :
    (f.push block action ty).aggregates.Perm
      (f.aggregates ++ aggregatesAmong action.operands) := by
  refine flatMap_modify_perm known ?_
  simp only [BasicBlock.aggregates, List.flatMap_append, List.flatMap_singleton, List.append_assoc]
  exact List.perm_append_comm.append_left _

/-- An open block has no end yet. -/
theorem aggregates_close {data : BasicBlock} (known : f.block? block = some data)
    (unended : data.terminator = none) (terminator : Terminator) :
    (f.close block terminator).aggregates.Perm
      (f.aggregates ++ aggregatesAmong terminator.operands) := by
  refine flatMap_modify_perm known (List.Perm.of_eq ?_)
  simp [BasicBlock.aggregates, unended]

theorem aggregates_reserve {entry : BasicBlock} (known : f.block? ⟨0⟩ = some entry) (ty : Ty)
    (name : String) : (f.reserve ty name).aggregates.Perm f.aggregates := by
  have same : (f.reserve ty name).aggregates.Perm (f.aggregates ++ []) := by
    refine flatMap_modify_perm known (List.Perm.of_eq ?_)
    rw [List.append_nil]
    refine congrArg (· ++ _) ?_
    conv_rhs => rw [← List.takeWhile_append_dropWhile (p := fun inst : Instruction =>
      inst.action.isAlloca) (l := entry.instructions)]
    rw [List.flatMap_append, List.flatMap_append, List.flatMap_cons]
    rfl
  rwa [List.append_nil] at same

theorem aggregates_addBlock (f : Function) (label : String) :
    (f.addBlock label).aggregates = f.aggregates := by
  simp [aggregates, addBlock, BasicBlock.aggregates]

end Function

theorem Builder.aggregates_fork {b : Builder} {block : BlockId} (selected : b.Open block)
    (cond : Operand) :
    (b.fork block cond).function.aggregates.Perm
      (b.function.aggregates ++ aggregatesAmong [cond]) := by
  obtain ⟨-, data, known, unended⟩ := selected
  obtain ⟨first, second, third, same⟩ := b.fork_function block cond
  have known' : (b.function.addBlocks first second third).block? block = some data :=
    (Function.block?_addBlocks_old _ _ _ (Function.lt_of_block? known)).trans known
  rw [same]
  refine (Function.aggregates_close known' unended _).trans (List.Perm.of_eq ?_)
  rw [Function.addBlocks, Function.aggregates_addBlock, Function.aggregates_addBlock,
    Function.aggregates_addBlock]
  rfl

end Ir

end SsaLowering
