/-
# SsaLowering.Proofs.Ir.Slots -- the slots of a function

A slot is an instruction that reserves stack space.  The slots of a function lead its
entry block and stand nowhere else (`Layout.slots_lead`), in the order in which they
were reserved: of all changes of a function `reserve` alone adds one, behind those that
are there.
-/
import SsaLowering.Proofs.Ir.Walk

namespace SsaLowering.Ir

set_option autoImplicit false

/-- The slots among some instructions. -/
def slotsAmong (insts : List Instruction) : List Instruction := insts.filter (·.action.isAlloca)

theorem slotsAmong_append (l k : List Instruction) :
    slotsAmong (l ++ k) = slotsAmong l ++ slotsAmong k :=
  List.filter_append ..

theorem slotsAmong_single {inst : Instruction} (effect : inst.action.isAlloca = false) :
    slotsAmong [inst] = [] := by
  simp [slotsAmong, effect]

theorem slotsAmong_cons {inst : Instruction} (reserves : inst.action.isAlloca = true)
    (rest : List Instruction) : slotsAmong (inst :: rest) = inst :: slotsAmong rest :=
  List.filter_cons_of_pos reserves

theorem BasicBlock.slotsAmong_code (data : BasicBlock) : slotsAmong data.code = [] := by
  rw [slotsAmong, List.filter_eq_nil_iff]
  intro inst member
  simpa using (List.mem_filter.1 member).2

namespace Function

variable {f g : Function}

theorem instructionsOf_eq {id : BlockId} {data : BasicBlock} (known : f.block? id = some data) :
    f.instructionsOf id = data.instructions := by
  rw [instructionsOf, known]
  rfl

/-- The slots in the order in which they were reserved. -/
def slots (f : Function) : List Instruction := slotsAmong (f.instructionsOf ⟨0⟩)

/-- The addresses of the slots, in the same order. -/
def slotIds (f : Function) : List ValueId := f.slots.filterMap (·.result)

/-- The slots of a function lead its entry block. -/
theorem Layout.slots_lead (laid : f.Layout) (block : BlockId) :
    ∃ rest, f.instructionsOf block = slotsAmong (f.instructionsOf block) ++ rest ∧
      slotsAmong rest = [] ∧ (block ≠ ⟨0⟩ → slotsAmong (f.instructionsOf block) = []) := by
  cases known : f.block? block with
  | none =>
    have nothing : f.instructionsOf block = [] := by
      rw [instructionsOf, known]
      rfl
    exact ⟨[], by rw [nothing]; rfl, rfl, fun _ => by rw [nothing]; rfl⟩
  | some data =>
    obtain ⟨leading, split_, only, later⟩ := laid.slotsFirst block data known
    have lead : slotsAmong data.instructions = leading := by
      rw [split_, slotsAmong_append, data.slotsAmong_code, List.append_nil]
      exact List.filter_eq_self.2 only
    rw [instructionsOf_eq known, lead]
    exact ⟨data.code, split_, data.slotsAmong_code, later⟩

theorem slotIds_nodup (laid : f.Layout) : f.slotIds.Nodup := by
  refine laid.unique.sublist (List.Sublist.filterMap _ ?_)
  refine List.filter_sublist.trans ?_
  cases known : f.block? ⟨0⟩ with
  | none =>
    rw [instructionsOf, known]
    exact List.nil_sublist _
  | some data =>
    rw [instructionsOf_eq known]
    exact List.sublist_flatten_of_mem (List.mem_map_of_mem (List.mem_of_getElem? known))

/-! ## Changes of a function -/

theorem slots_congr {change : BasicBlock → BasicBlock}
    (known : g.block? ⟨0⟩ = (f.block? ⟨0⟩).map change)
    (same : ∀ data, slotsAmong (change data).instructions = slotsAmong data.instructions) :
    g.slots = f.slots := by
  unfold slots instructionsOf
  rw [known]
  cases f.block? ⟨0⟩ with
  | none => rfl
  | some data => exact same data

theorem slots_of_blocks (same : g.blocks = f.blocks) : g.slots = f.slots := by
  rw [slots, slots, instructionsOf, instructionsOf, block?, block?, same]

theorem slots_push (f : Function) (block : BlockId) {action : Action}
    (effect : action.isAlloca = false) (ty : Option Ty) :
    (f.push block action ty).slots = f.slots := by
  refine slots_congr (block?_push ..) fun data => ?_
  split
  · rw [BasicBlock.append, slotsAmong_append, slotsAmong_single effect, List.append_nil]
  · rfl

theorem slots_close (f : Function) (block : BlockId) (terminator : Terminator) :
    (f.close block terminator).slots = f.slots := by
  refine slots_congr (block?_close ..) fun data => ?_
  split <;> rfl

theorem slots_addBlock (f : Function) (label : String) : (f.addBlock label).slots = f.slots := by
  unfold slots instructionsOf
  rw [block?_addBlock]
  split
  · rename_i first
    rw [block?, List.getElem?_eq_none (Nat.le_of_eq first.symm)]
    rfl
  · rfl

/-- A slot is put behind the slots that are there. -/
theorem slots_reserve (laid : f.Layout) {entry : BasicBlock} (known : f.block? ⟨0⟩ = some entry)
    (ty : Ty) (name : String) :
    (f.reserve ty name).slots = f.slots ++ [⟨some ⟨f.values.length⟩, .alloca ty⟩] := by
  have here : (f.reserve ty name).block? ⟨0⟩ =
      some (entry.insertSlot ⟨some ⟨f.values.length⟩, .alloca ty⟩) := by
    rw [block?_reserve, known, Option.map_some, if_pos rfl]
  obtain ⟨leading, split_, only, -⟩ := laid.slotsFirst _ entry known
  rw [slots, slots, instructionsOf_eq here, instructionsOf_eq known,
    insertSlot_of_slotsFirst split_ only, split_, slotsAmong_append, slotsAmong_append,
    slotsAmong_cons rfl, entry.slotsAmong_code, List.append_nil]

theorem slotIds_reserve (laid : f.Layout) {entry : BasicBlock} (known : f.block? ⟨0⟩ = some entry)
    (ty : Ty) (name : String) :
    (f.reserve ty name).slotIds = f.slotIds ++ [⟨f.values.length⟩] := by
  rw [slotIds, slotIds, slots_reserve laid known, List.filterMap_append]
  rfl

end Function

end SsaLowering.Ir
