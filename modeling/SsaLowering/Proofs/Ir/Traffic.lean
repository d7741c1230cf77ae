/-
# SsaLowering.Proofs.Ir.Traffic -- how a function uses memory

`Function.traffic` counts the slots that a function reserves, its writes and its reads.  A new
instruction adds its own part, and no other change of a function adds to it.  A function
`UsesSlots` when the slots lead its entry block and each access goes through the address of
one, at the type that it holds.  The checks of the builder do not ask for that: an address that
is none of a slot is accepted at any type.
-/
import Mathlib.Algebra.BigOperators.Group.List.Basic
import SsaLowering.Proofs.Ir.Slots

namespace SsaLowering.Ir

set_option autoImplicit false

/-! ## Counts -/

/-- How many slots are reserved, and how often memory is written and read. -/
@[ext]
structure Traffic where
  slots : Nat
  writes : Nat
  reads : Nat
deriving DecidableEq, Repr

namespace Traffic

instance : Zero Traffic := ⟨⟨0, 0, 0⟩⟩

instance : Add Traffic :=
  ⟨fun a b => ⟨a.slots + b.slots, a.writes + b.writes, a.reads + b.reads⟩⟩

@[simp] theorem slots_add (a b : Traffic) : (a + b).slots = a.slots + b.slots := rfl

@[simp] theorem writes_add (a b : Traffic) : (a + b).writes = a.writes + b.writes := rfl

@[simp] theorem reads_add (a b : Traffic) : (a + b).reads = a.reads + b.reads := rfl

instance : AddCommMonoid Traffic where
  add_assoc a b c := by ext <;> simp [Nat.add_assoc]
  zero_add a := by ext <;> exact Nat.zero_add _
  add_zero a := by ext <;> exact Nat.add_zero _
  add_comm a b := by ext <;> simp [Nat.add_comm]
  nsmul := nsmulRec

def slot : Traffic := ⟨1, 0, 0⟩

def write : Traffic := ⟨0, 1, 0⟩

def read : Traffic := ⟨0, 0, 1⟩

end Traffic

namespace Action

/-- What an action adds to the traffic. -/
def traffic : Action → Traffic
  | alloca _ => .slot
  | load .. => .read
  | store .. => .write
  | _ => 0

/-- The address through which an action reads or writes. -/
def address? : Action → Option Operand
  | load _ ptr | store _ ptr => some ptr
  | _ => none

end Action

namespace Function

variable {f g : Function} {m : Module} {action : Action}

def traffic (f : Function) : Traffic := (f.instructions.map (·.action.traffic)).sum

/-- One more instruction adds what it does. -/
theorem traffic_of_perm {inst : Instruction}
    (grown : g.instructions.Perm (f.instructions ++ [inst])) :
    g.traffic = f.traffic + inst.action.traffic := by
  rw [traffic, (grown.map _).sum_eq, List.map_append, List.sum_append, List.map_singleton,
    List.sum_singleton, traffic]

theorem traffic_congr (same : g.instructions = f.instructions) : g.traffic = f.traffic := by
  rw [traffic, same, traffic]

/-! ## Addresses -/

/-- The operand is the address of a slot for the type. -/
def IsSlot (f : Function) (ptr : Operand) (ty : Ty) : Prop :=
  ∃ id, ptr = .value id ∧ ⟨some id, .alloca ty⟩ ∈ f.instructions

/-- An access that goes through the address of a slot, at the type that the slot holds. -/
def Accesses (f : Function) : Action → Prop
  | .load ty ptr => f.IsSlot ptr ty
  | .store value ptr => ∃ ty, f.operandTy value = .ok ty ∧ f.IsSlot ptr ty
  | _ => True

/-- Every access goes through the address of a slot. -/
def Addressed (f : Function) : Prop :=
  ∀ inst ∈ f.instructions, ∀ ptr, inst.action.address? = some ptr → ∃ ty, f.IsSlot ptr ty

theorem addressed_congr (addressed : f.Addressed) (same : g.instructions = f.instructions) :
    g.Addressed := by
  unfold Addressed IsSlot
  rw [same]
  exact addressed

/-- One more instruction, which goes through the address of a slot if it is an access. -/
theorem Addressed.of_perm {inst : Instruction} (addressed : f.Addressed)
    (grown : g.instructions.Perm (f.instructions ++ [inst]))
    (valid : ∀ ptr, inst.action.address? = some ptr → ∃ ty, f.IsSlot ptr ty) : g.Addressed := by
  have kept {ptr : Operand} {ty : Ty} (slot : f.IsSlot ptr ty) : g.IsSlot ptr ty := by
    obtain ⟨id, same, member⟩ := slot
    exact ⟨id, same, grown.mem_iff.2 (List.mem_append_left _ member)⟩
  intro other member ptr accesses
  rcases List.mem_append.1 (grown.mem_iff.1 member) with old | new
  · obtain ⟨ty, slot⟩ := addressed other old ptr accesses
    exact ⟨ty, kept slot⟩
  · rw [List.mem_singleton.1 new] at accesses
    obtain ⟨ty, slot⟩ := valid ptr accesses
    exact ⟨ty, kept slot⟩

theorem Instruction.eq_of_slotOf? {id : ValueId} {inst : Instruction} {ty : Ty}
    (slot : inst.slotOf? id = some ty) : inst = ⟨some id, .alloca ty⟩ := by
  obtain ⟨result, action⟩ := inst
  cases action with
  | alloca ty' =>
    simp only [Instruction.slotOf?, Option.ite_none_right_eq_some, Option.some.injEq] at slot
    obtain ⟨rfl, rfl⟩ := slot
    rfl
  | _ => cases slot

/-- What holds a type as a slot is the address of one. -/
theorem isSlot_of_slotTy? {id : ValueId} {ty : Ty} (slot : f.slotTy? (.value id) = some ty) :
    f.IsSlot (.value id) ty := by
  rw [slotTy?_value] at slot
  obtain ⟨data, among, slot⟩ := List.exists_of_findSome?_eq_some slot
  obtain ⟨inst, member, slot⟩ := List.exists_of_findSome?_eq_some slot
  obtain rfl := Instruction.eq_of_slotOf? slot
  exact ⟨id, rfl, List.mem_flatMap.2 ⟨data, among, member⟩⟩

/-- A value is the result of one instruction only. -/
theorem WellFormed.instruction_unique (ok : f.WellFormed m) {a b : Instruction} {id : ValueId}
    (first : a ∈ f.instructions) (second : b ∈ f.instructions) (result : a.result = some id)
    (result' : b.result = some id) : a = b := by
  obtain ⟨block, data, known, member⟩ := mem_instructions.1 first
  obtain ⟨block', data', known', member'⟩ := mem_instructions.1 second
  obtain ⟨i, place⟩ := List.mem_iff_getElem?.1 member
  obtain ⟨j, place'⟩ := List.mem_iff_getElem?.1 member'
  have here : (id, Site.mk block i) ∈ f.results := mem_results.2 ⟨data, a, known, place, result⟩
  have there : (id, Site.mk block' j) ∈ f.results :=
    mem_results.2 ⟨data', b, known', place', result'⟩
  cases ok.site_unique here there
  cases known.symm.trans known'
  exact Option.some.inj (place.symm.trans place')

/-- A slot holds one type. -/
theorem WellFormed.slotTy?_of_isSlot (ok : f.WellFormed m) {ptr : Operand} {ty : Ty}
    (slot : f.IsSlot ptr ty) : f.slotTy? ptr = some ty := by
  obtain ⟨id, rfl, member⟩ := slot
  cases found : f.slotTy? (.value id) with
  | none =>
    rw [slotTy?_value, List.findSome?_eq_none_iff] at found
    obtain ⟨data, among, here⟩ := List.mem_flatMap.1 member
    have nothing := List.findSome?_eq_none_iff.1 (found data among) _ here
    exact absurd ((if_pos rfl).symm.trans nothing) (by simp)
  | some ty' =>
    obtain ⟨id', same, member'⟩ := isSlot_of_slotTy? found
    cases same
    cases ok.instruction_unique member member' rfl rfl
    rfl

/-- An access through a slot that the rules admit is at the type that the slot holds. -/
theorem WellFormed.isSlot_of_expectSlot (ok : f.WellFormed m) {ptr : Operand} {held ty : Ty}
    {context : String} (slot : f.IsSlot ptr held)
    (admitted : f.expectSlot ptr ty context = .ok ()) : f.IsSlot ptr ty := by
  rw [expectSlot, ok.slotTy?_of_isSlot slot] at admitted
  by_cases same : held = ty
  · exact same ▸ slot
  · simp only [same, if_false] at admitted
    cases admitted

/-- The address of a slot is no parameter. -/
theorem WellFormed.not_isSlot_param (ok : f.WellFormed m) {id : ValueId} (param : id ∈ f.params)
    {ty : Ty} : ¬ f.IsSlot (.value id) ty := by
  rintro ⟨id', same, member⟩
  cases same
  obtain ⟨block, has⟩ := mem_instructions.1 member
  obtain ⟨name, t, known⟩ := ok.result_known has rfl
  rw [ok.params, List.mem_map] at param
  obtain ⟨i, bound, rfl⟩ := param
  rw [List.mem_range] at bound
  obtain ⟨name', known'⟩ := ok.paramValue i _ (List.getElem?_eq_getElem bound)
  cases known.symm.trans known'

/-- Memory is used as slots alone. -/
structure UsesSlots (f : Function) : Prop where
  leads : ∀ block, ∃ leading rest, f.instructionsOf block = leading ++ rest ∧
    (∀ inst ∈ leading, inst.action.isAlloca = true) ∧
    (∀ inst ∈ rest, inst.action.isAlloca = false) ∧ (block ≠ ⟨0⟩ → leading = [])
  accesses : ∀ inst ∈ f.instructions, f.Accesses inst.action
  params : ∀ inst ∈ f.instructions, ∀ id ∈ f.params, inst.action.address? ≠ some (.value id)

/-- Where each access goes through a slot, the rules of instructions see to the types. -/
theorem WellFormed.usesSlots (ok : f.WellFormed m) (addressed : f.Addressed) : f.UsesSlots where
  leads := by
    intro block
    obtain ⟨rest, split_, none_, later⟩ := ok.layout.slots_lead block
    refine ⟨_, rest, split_, fun inst member => (List.mem_filter.1 member).2,
      fun inst member => ?_, later⟩
    rw [slotsAmong, List.filter_eq_nil_iff] at none_
    simpa using none_ inst member
  accesses := by
    rintro ⟨result, action⟩ member
    obtain ⟨block, has⟩ := mem_instructions.1 member
    obtain ⟨ty, checked, -⟩ := ok.typed block _ has
    have slotted (ptr : Operand) (here : action.address? = some ptr) :=
      addressed _ member ptr here
    cases action with
    | load ty ptr =>
      obtain ⟨held, slot⟩ := slotted ptr rfl
      simp only [checkAction, except_seq_ok] at checked
      exact ok.isSlot_of_expectSlot slot checked.2.2.1
    | store value ptr =>
      obtain ⟨held, slot⟩ := slotted ptr rfl
      simp only [checkAction, except_bind_ok] at checked
      obtain ⟨_, -, stored, typed, _, -, _, admitted, -⟩ := checked
      exact ⟨stored, typed, ok.isSlot_of_expectSlot slot admitted⟩
    | _ => trivial
  params := by
    intro inst member id param accesses
    obtain ⟨ty, slot⟩ := addressed inst member _ accesses
    exact ok.not_isSlot_param param slot

end Function

end SsaLowering.Ir
