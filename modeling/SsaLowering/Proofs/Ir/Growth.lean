/-
# SsaLowering.Proofs.Ir.Growth -- a function under construction only grows

`Function.Extends f g` says that `g` is a later state of `f`: values keep their
types and origins, slots stay the slots they are, a block keeps its instructions
in order and gains some only while it is open.  Slots are left out of that order
(`BasicBlock.code`), since they are put in front of what is there.

What a typing rule accepted once it accepts for ever (`checkAction_mono`,
`checkTerminator_mono`), so a check made at emission stands for the check of the
finished function.
-/
import SsaLowering.Ir.Verify
import SsaLowering.Proofs.Outcome

namespace SsaLowering.Ir

set_option autoImplicit false

/-! ## Blocks and slots -/

/-- The instructions of a block that are executed for their effect: all but the slots. -/
def BasicBlock.code (block : BasicBlock) : List Instruction :=
  block.instructions.filter fun inst => !inst.action.isAlloca

/-- The type that an instruction reserves under the address `id`. -/
def Instruction.slotOf? (id : ValueId) (inst : Instruction) : Option Ty :=
  match inst.action with
  | .alloca ty => if inst.result = some id then some ty else none
  | _ => none

namespace Function

theorem slotTy?_value (f : Function) (id : ValueId) :
    f.slotTy? (.value id) =
      f.blocks.findSome? fun block => block.instructions.findSome? (Instruction.slotOf? id) :=
  rfl

/-- `g` is a later state of the function `f` under construction. -/
structure Extends (f g : Function) : Prop where
  name : g.name = f.name
  ty : g.ty = f.ty
  params : g.params = f.params
  count : f.values.length ≤ g.values.length
  values : ∀ id data, f.value? id = some data →
    ∃ name, g.value? id = some { data with name }
  slots : ∀ id, id.index < f.values.length → g.slotTy? (.value id) = f.slotTy? (.value id)
  blocks : ∀ id block, f.block? id = some block →
    ∃ block', g.block? id = some block' ∧ block'.name = block.name ∧
      block.code <+: block'.code ∧
      ∀ t, block.terminator = some t → block'.terminator = some t ∧ block'.code = block.code

theorem Extends.refl (f : Function) : f.Extends f where
  name := rfl
  ty := rfl
  params := rfl
  count := Nat.le_refl _
  values := fun _ data h => ⟨data.name, h⟩
  slots := fun _ _ => rfl
  blocks := fun _ block h => ⟨block, h, rfl, List.prefix_rfl, fun _ ended => ⟨ended, rfl⟩⟩

theorem Extends.trans {f g h : Function} (first : f.Extends g) (second : g.Extends h) :
    f.Extends h where
  name := second.name.trans first.name
  ty := second.ty.trans first.ty
  params := second.params.trans first.params
  count := Nat.le_trans first.count second.count
  values := fun id data known => by
    obtain ⟨name, known⟩ := first.values id data known
    obtain ⟨name', known⟩ := second.values id _ known
    exact ⟨name', known⟩
  slots := fun id bound =>
    (second.slots id (Nat.lt_of_lt_of_le bound first.count)).trans (first.slots id bound)
  blocks := fun id block known => by
    obtain ⟨middle, known, label, longer, frozen⟩ := first.blocks id block known
    obtain ⟨last, known, label', longer', frozen'⟩ := second.blocks id middle known
    refine ⟨last, known, label'.trans label, longer.trans longer', fun t ended => ?_⟩
    obtain ⟨ended, same⟩ := frozen t ended
    obtain ⟨ended, same'⟩ := frozen' t ended
    exact ⟨ended, same'.trans same⟩

theorem Extends.returnTy {f g : Function} (grown : f.Extends g) : g.returnTy = f.returnTy := by
  rw [Function.returnTy, Function.returnTy, grown.ty]

theorem Extends.isSome_block? {f g : Function} (grown : f.Extends g) {id : BlockId}
    (known : (f.block? id).isSome) : (g.block? id).isSome := by
  obtain ⟨block, known⟩ := Option.isSome_iff_exists.1 known
  obtain ⟨block', known', _⟩ := grown.blocks id block known
  rw [known', Option.isSome_some]

/-! ## Accepted once, accepted for ever -/

theorem value?_lt {f : Function} {id : ValueId} {data : ValueData}
    (known : f.value? id = some data) : id.index < f.values.length :=
  (List.getElem?_eq_some_iff.1 known).1

theorem operandTy_value_ok {f : Function} {id : ValueId} {ty : Ty} :
    f.operandTy (.value id) = .ok ty ↔ ∃ data, f.value? id = some data ∧ data.ty = ty := by
  simp only [operandTy]
  cases f.value? id <;> simp

variable {f g : Function}

theorem operandTy_mono (grown : f.Extends g) {operand : Operand} {ty : Ty}
    (ok : f.operandTy operand = .ok ty) : g.operandTy operand = .ok ty := by
  cases operand with
  | value id =>
    obtain ⟨data, known, rfl⟩ := operandTy_value_ok.1 ok
    obtain ⟨name, known⟩ := grown.values id data known
    exact operandTy_value_ok.2 ⟨_, known, rfl⟩
  | constant c => exact ok
  | function id => exact ok

theorem expectTy_ok {operand : Operand} {expected : Ty} {context : String} :
    f.expectTy operand expected context = .ok () ↔ f.operandTy operand = .ok expected := by
  unfold expectTy
  cases f.operandTy operand with
  | error cause => simp [bind, Except.bind]
  | ok found =>
    simp only [bind, Except.bind]
    split <;> simp_all

theorem expectSized_ok {ty : Ty} {context : String} :
    expectSized ty context = .ok () ↔ ty.isSized := by
  unfold expectSized
  split <;> simp_all

theorem checkAction_alloca_ok {signature : Option FunctionTy} {ty : Ty} {result : Option Ty} :
    f.checkAction signature (.alloca ty) = .ok result ↔ ty.isSized ∧ result = some .ptr := by
  simp only [checkAction, except_bind_ok, except_pure_ok]
  constructor
  · rintro ⟨_, sized, rfl⟩
    exact ⟨expectSized_ok.1 sized, rfl⟩
  · rintro ⟨sized, rfl⟩
    exact ⟨(), expectSized_ok.2 sized, rfl⟩

theorem expectTy_mono (grown : f.Extends g) {operand : Operand} {expected : Ty}
    {context : String} (ok : f.expectTy operand expected context = .ok ()) :
    g.expectTy operand expected context = .ok () :=
  expectTy_ok.2 (operandTy_mono grown (expectTy_ok.1 ok))

/-- An address that has a type is a value of the table, and those keep their slots. -/
theorem slotTy?_mono (grown : f.Extends g) {ptr : Operand} {ty : Ty}
    (typed : f.operandTy ptr = .ok ty) : g.slotTy? ptr = f.slotTy? ptr := by
  cases ptr with
  | value id =>
    obtain ⟨data, known, _⟩ := operandTy_value_ok.1 typed
    exact grown.slots id (value?_lt known)
  | constant c => rfl
  | function id => rfl

theorem expectSlot_mono (grown : f.Extends g) {ptr : Operand} {found ty : Ty} {context : String}
    (typed : f.operandTy ptr = .ok found) (ok : f.expectSlot ptr ty context = .ok ()) :
    g.expectSlot ptr ty context = .ok () := by
  unfold expectSlot at *
  rwa [slotTy?_mono grown typed]

theorem expectArgs_mono (grown : f.Extends g) :
    ∀ (args : List Operand) (params : List Ty), f.expectArgs args params = .ok () →
      g.expectArgs args params = .ok ()
  | [], _, _ => by simp [expectArgs]
  | _ :: _, [], _ => by simp [expectArgs]
  | arg :: args, param :: params, ok => by
    simp only [expectArgs, except_bind_ok] at ok ⊢
    obtain ⟨done, first, rest⟩ := ok
    exact ⟨done, expectTy_mono grown first, expectArgs_mono grown args params rest⟩

/-- A typing rule that accepts an action accepts it in every later state. -/
theorem checkAction_mono (grown : f.Extends g) {signature : Option FunctionTy} {action : Action}
    {result : Option Ty} (ok : f.checkAction signature action = .ok result) :
    g.checkAction signature action = .ok result := by
  cases action with
  | alloca ty => exact ok
  | load ty ptr =>
    simp only [checkAction, except_bind_ok] at ok ⊢
    obtain ⟨_, sized, _, address, _, slot, done⟩ := ok
    exact ⟨_, sized, _, expectTy_mono grown address, _,
      expectSlot_mono grown (expectTy_ok.1 address) slot, done⟩
  | store value ptr =>
    simp only [checkAction, except_bind_ok] at ok ⊢
    obtain ⟨_, address, _, typed, _, sized, _, slot, done⟩ := ok
    exact ⟨_, expectTy_mono grown address, _, operandTy_mono grown typed, _, sized, _,
      expectSlot_mono grown (expectTy_ok.1 address) slot, done⟩
  | fadd lhs rhs =>
    simp only [checkAction, except_bind_ok] at ok ⊢
    obtain ⟨_, left, _, right, done⟩ := ok
    exact ⟨_, expectTy_mono grown left, _, expectTy_mono grown right, done⟩
  | call callee args =>
    cases signature with
    | none => exact absurd ok except_throw_ok
    | some signature =>
      by_cases count : args.length = signature.params.length
      · simp only [checkAction, count, ne_eq, not_true_eq_false, if_false, except_bind_ok]
          at ok ⊢
        obtain ⟨_, typed, done⟩ := ok
        exact ⟨_, expectArgs_mono grown _ _ typed, done⟩
      · simp only [checkAction, ne_eq, count, not_false_eq_true, if_true, except_bind_ok] at ok
        obtain ⟨_, refused, _⟩ := ok
        exact absurd refused except_throw_ok

theorem checkTerminator_mono (grown : f.Extends g) {terminator : Terminator}
    (ok : f.checkTerminator terminator = .ok ()) : g.checkTerminator terminator = .ok () := by
  unfold checkTerminator at ok ⊢
  cases unknown : terminator.successors.find? fun target => (f.block? target).isNone with
  | some target => rw [unknown] at ok; exact absurd ok except_throw_ok
  | none =>
    have known : (terminator.successors.find? fun target => (g.block? target).isNone) = none := by
      simp only [List.find?_eq_none, Bool.not_eq_true, Option.isNone_eq_false_iff] at unknown ⊢
      exact fun target member => grown.isSome_block? (unknown target member)
    rw [unknown] at ok
    rw [known]
    cases terminator with
    | condBr cond thenBlock elseBlock => exact expectTy_mono grown ok
    | ret value =>
      cases value with
      | none => simpa only [grown.returnTy] using ok
      | some value => simpa only [grown.returnTy] using expectTy_mono grown ok
    | br target => exact ok
    | unreachable => exact ok

end Function

end SsaLowering.Ir
