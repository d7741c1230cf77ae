/-
# SsaLowering.Proofs.Ir.Unnamed -- functions and builders without the names of values

A value is known by its number; its name is for readers alone.  No typing rule, no walk over
the blocks and no check of the verifier looks at it (`Function.verify_unnamed`), and what a
builder makes is the same up to names whatever names it is asked for (`Builder.Blind`).
-/
import SsaLowering.Ir.Verify
import SsaLowering.Proofs.Ir.Emission

namespace SsaLowering.Ir

set_option autoImplicit false

def ValueData.unnamed (data : ValueData) : ValueData := { data with name := none }

/-- The function whose values have no names. -/
def Function.unnamed (f : Function) : Function :=
  { f with values := f.values.map ValueData.unnamed }

def Module.unnamed (m : Module) : Module :=
  { m with functions := m.functions.map Function.unnamed }

/-- The builder that has named no value. -/
def Builder.unnamed (b : Builder) : Builder :=
  { b with function := b.function.unnamed, valueNames := default }

/-! ## Typing rules -/

namespace Function

variable (f : Function)

@[simp] theorem value?_unnamed (id : ValueId) :
    f.unnamed.value? id = (f.value? id).map ValueData.unnamed :=
  List.getElem?_map

@[simp] theorem block?_unnamed (id : BlockId) : f.unnamed.block? id = f.block? id := rfl

@[simp] theorem operandTy_unnamed (operand : Operand) :
    f.unnamed.operandTy operand = f.operandTy operand := by
  cases operand with
  | value id =>
    rw [operandTy, operandTy, value?_unnamed]
    cases f.value? id <;> rfl
  | _ => rfl

@[simp] theorem expectTy_unnamed (operand : Operand) (expected : Ty) (context : String) :
    f.unnamed.expectTy operand expected context = f.expectTy operand expected context := by
  rw [expectTy, operandTy_unnamed]
  rfl

@[simp] theorem expectSlot_unnamed (operand : Operand) (ty : Ty) (context : String) :
    f.unnamed.expectSlot operand ty context = f.expectSlot operand ty context :=
  rfl

@[simp] theorem expectArgs_unnamed : ∀ (args : List Operand) (params : List Ty),
    f.unnamed.expectArgs args params = f.expectArgs args params
  | [], _ => by rw [expectArgs, expectArgs] <;> simp
  | _ :: _, [] => by rw [expectArgs, expectArgs] <;> simp
  | arg :: args, param :: params => by
    rw [expectArgs, expectArgs, expectTy_unnamed, expectArgs_unnamed args]

@[simp] theorem checkAction_unnamed (signature : Option FunctionTy) (action : Action) :
    f.unnamed.checkAction signature action = f.checkAction signature action := by
  cases action with
  | call callee args => cases signature <;> simp [checkAction]
  | _ => simp [checkAction]

@[simp] theorem checkTerminator_unnamed (t : Terminator) :
    f.unnamed.checkTerminator t = f.checkTerminator t := by
  simp only [checkTerminator, block?_unnamed]
  split
  · rfl
  · cases t with
    | ret value =>
      cases value with
      | none => rfl
      | some value => exact f.expectTy_unnamed value _ _
    | condBr cond thenBlock elseBlock => exact f.expectTy_unnamed cond _ _
    | _ => rfl

/-! ## The verdict -/

theorem explore_unnamed (seen pending : List BlockId) :
    f.unnamed.explore seen pending = f.explore seen pending := by
  fun_induction explore f seen pending with
  | case1 => rw [explore]
  | case2 seen block rest fresh ih =>
    rw [explore]
    exact (dif_pos fresh).trans ih
  | case3 seen block rest known ih =>
    rw [explore]
    exact (dif_neg known).trans ih

@[simp] theorem reachable_unnamed : f.unnamed.reachable = f.reachable := by
  rw [reachable, reachable, explore_unnamed]
  rfl

@[simp] theorem dominators_unnamed : f.unnamed.dominators = f.dominators := by
  have edges : f.unnamed.predecessors f.unnamed.reachable = f.predecessors f.reachable := by
    rw [reachable_unnamed]
    rfl
  rw [dominators, dominators, edges]
  rfl

theorem checkTypes_unnamed (m : Module) : f.unnamed.checkTypes m = f.checkTypes m := by
  simp only [checkTypes, checkAction_unnamed, checkTerminator_unnamed]
  rfl

theorem checkDominance_unnamed : f.unnamed.checkDominance = f.checkDominance := by
  have definitions : f.unnamed.definitions = f.definitions := by
    simp only [Function.definitions, value?_unnamed, Option.isNone_map]
    rfl
  rw [checkDominance, checkDominance, definitions, reachable_unnamed, dominators_unnamed]
  rfl

/-- The verdict on a function does not depend on the names of its values. -/
theorem verify_unnamed (m : Module) : f.unnamed.verify m = f.verify m := by
  rw [verify, verify, checkTypes_unnamed, checkDominance_unnamed]
  rfl

end Function

/-! ## Building -/

namespace Builder

variable {α : Type}

/-- Two operations that do the same with builders that differ in the names of values alone. -/
def Blind (operation other : Builder → Except BuildError (α × Builder)) : Prop :=
  ∀ b c : Builder, c.unnamed = b.unnamed →
    (other c).map (Prod.map id unnamed) = (operation b).map (Prod.map id unnamed)

/-- An operation does not look at names when it may forget them before or after. -/
theorem Blind.of_commutes {operation : Builder → Except BuildError (α × Builder)}
    (commutes : ∀ b, (operation b).map (Prod.map id unnamed) = operation b.unnamed) :
    Blind operation operation := by
  intro b c same
  rw [commutes, commutes, same]

variable (b : Builder)

theorem openBlock_unnamed : b.unnamed.openBlock = b.openBlock := rfl

theorem emit_unnamed (action : Action) (signature : Option FunctionTy) :
    (b.emit action signature).map (Prod.map id unnamed) = b.unnamed.emit action signature := by
  unfold emit
  rw [openBlock_unnamed]
  cases b.openBlock with
  | error cause => rfl
  | ok block =>
    have checked := b.function.checkAction_unnamed signature action
    show Except.map _ (b.function.checkAction signature action >>= _) =
      (b.function.unnamed.checkAction signature action >>= _)
    rw [checked]
    cases b.function.checkAction signature action with
    | error cause => rfl
    | ok ty =>
      cases ty with
      | none => rfl
      | some ty =>
        show Except.ok _ = Except.ok _
        simp [unnamed, Function.unnamed, ValueData.unnamed, modifyBlock]

theorem emit_blind (action : Action) (signature : Option FunctionTy) :
    Blind (·.emit action signature) (·.emit action signature) :=
  .of_commutes (emit_unnamed · action signature)

theorem emitValue_unnamed (action : Action) :
    (b.emitValue action).map (Prod.map id unnamed) = b.unnamed.emitValue action := by
  rw [emitValue, emitValue, ← emit_unnamed]
  rcases b.emit action none with cause | ⟨_ | value, after⟩ <;> rfl

theorem emitValue_blind (action : Action) : Blind (·.emitValue action) (·.emitValue action) :=
  .of_commutes (emitValue_unnamed · action)

theorem store_unnamed (value ptr : Operand) :
    (b.store value ptr).map unnamed = b.unnamed.store value ptr := by
  rw [store, store, ← emit_unnamed]
  cases b.emit (.store value ptr) none <;> rfl

theorem terminate_unnamed (terminator : Terminator) :
    (b.terminate terminator).map unnamed = b.unnamed.terminate terminator := by
  rw [terminate, terminate, openBlock_unnamed]
  cases b.openBlock with
  | error cause => rfl
  | ok block =>
    have checked := b.function.checkTerminator_unnamed terminator
    show Except.map unnamed (b.function.checkTerminator terminator >>= _) =
      (b.function.unnamed.checkTerminator terminator >>= _)
    rw [checked]
    cases b.function.checkTerminator terminator <;> rfl

theorem positionAtEnd_unnamed (block : BlockId) :
    (b.positionAtEnd block).map unnamed = b.unnamed.positionAtEnd block := by
  rw [positionAtEnd, positionAtEnd]
  show _ = if (b.function.block? block).isSome then _ else _
  split <;> rfl

/-- An operation without a result. -/
theorem Blind.of_unit {operation : Builder → Except BuildError Builder}
    (commutes : ∀ b, (operation b).map unnamed = operation b.unnamed) :
    Blind (fun b => return ((), ← operation b)) (fun b => return ((), ← operation b)) := by
  apply of_commutes
  intro b
  rw [← commutes]
  cases operation b <;> rfl

theorem appendBlock_blind (name : String) :
    Blind (fun b => .ok (b.appendBlock name)) (fun b => .ok (b.appendBlock name)) :=
  .of_commutes fun _ => rfl

/-- What does not depend on names is the same of builders that differ in them alone. -/
theorem view_eq {b c : Builder} (same : c.unnamed = b.unnamed) (view : Builder → α)
    (forgets : ∀ b, view b.unnamed = view b) : view c = view b := by
  rw [← forgets c, same, forgets b]

/-! ## Naming -/

theorem unnamed_modify (values : List ValueData) (index : Nat) (name : Option String) :
    (values.modify index fun data => { data with name }).map ValueData.unnamed =
      values.map ValueData.unnamed := by
  apply List.ext_getElem?
  intro i
  rw [List.getElem?_map, List.getElem?_modify, List.getElem?_map]
  cases values[i]? with
  | none => rfl
  | some data =>
    by_cases here : index = i <;> simp [here, ValueData.unnamed]

/-- Naming a value changes nothing but its name. -/
theorem nameValue_unnamed (value : ValueId) (name : String) :
    (b.nameValue value name).map (·.2.unnamed) =
      if (b.unnamed.function.value? value).isSome then .ok b.unnamed
      else .error (.unknownValue value) := by
  show _ = if (b.function.unnamed.value? value).isSome then _ else _
  rw [nameValue, Function.value?_unnamed, Option.isSome_map]
  cases b.function.value? value with
  | none => rfl
  | some data =>
    dsimp only
    split
    · rfl
    · have values := unnamed_modify b.function.values value.index
        (some (b.valueNames.fresh name).1)
      simp [Except.map, unnamed, Function.unnamed, values]

theorem nameValue_blind {b c : Builder} (same : c.unnamed = b.unnamed) (value : ValueId)
    (name other : String) :
    (c.nameValue value other).map (·.2.unnamed) = (b.nameValue value name).map (·.2.unnamed) := by
  rw [nameValue_unnamed, nameValue_unnamed, same]

/-- A slot is the same up to its name, whatever name it is asked for. -/
theorem alloca_unnamed (ty : Ty) (name other : String) :
    (b.unnamed.alloca ty other).map (Prod.map id unnamed) =
      (b.alloca ty name).map (Prod.map id unnamed) := by
  have same : b.unnamed.entry? = b.entry? := rfl
  have checked : b.unnamed.function.checkAction none (.alloca ty) =
      b.function.checkAction none (.alloca ty) := b.function.checkAction_unnamed _ _
  unfold alloca
  rw [same]
  cases b.entry? with
  | none => rfl
  | some entry =>
    simp only [nameValue_newValue, checked]
    cases b.function.checkAction none (.alloca ty) with
    | error cause => rfl
    | ok ty =>
      show Except.ok _ = Except.ok _
      simp [newValue, unnamed, Function.unnamed, ValueData.unnamed, modifyBlock]

theorem alloca_blind (ty : Ty) (name other : String) :
    Blind (·.alloca ty name) (·.alloca ty other) := by
  intro b c same
  show (c.alloca ty other).map _ = (b.alloca ty name).map _
  rw [← c.alloca_unnamed ty other name, same, b.alloca_unnamed ty name name]

end Builder

end SsaLowering.Ir
