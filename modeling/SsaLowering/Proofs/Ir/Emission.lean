/-
# SsaLowering.Proofs.Ir.Emission -- what each builder operation does

Five changes of a function cover all builder operations: an instruction at the
end of a block (`push`), the end of a block (`close`), a slot at the top of the
entry block (`reserve`), a name for a value (`rename`) and a new block
(`addBlock`).  For every operation one lemma says exactly when it succeeds and
which change it makes, and every change leads to a later state of the function.
-/
import SsaLowering.Ir.Builder
import SsaLowering.Proofs.Ir.Growth

namespace SsaLowering.Ir

set_option autoImplicit false

/-! ## The changes -/

namespace Function

/-- An instruction at the end of a block; `ty` is the type of the value it defines. -/
def push (f : Function) (block : BlockId) (action : Action) (ty : Option Ty) : Function :=
  { f with
    values := f.values ++ (ty.map fun ty => ⟨none, ty, .inst block⟩).toList
    blocks := f.blocks.modify block.index fun data =>
      { data with
        instructions := data.instructions ++ [⟨ty.map fun _ => ⟨f.values.length⟩, action⟩] } }

/-- The end of a block. -/
def close (f : Function) (block : BlockId) (terminator : Terminator) : Function :=
  { f with
    blocks := f.blocks.modify block.index fun data =>
      { data with terminator := some terminator } }

/-- A slot behind the slots at the top of the entry block. -/
def reserve (f : Function) (ty : Ty) (name : String) : Function :=
  { f with
    values := f.values ++ [⟨some name, .ptr, .inst ⟨0⟩⟩]
    blocks := f.blocks.modify 0 fun data =>
      { data with
        instructions := data.instructions.takeWhile (·.action.isAlloca) ++
          ⟨some ⟨f.values.length⟩, .alloca ty⟩ ::
            data.instructions.dropWhile (·.action.isAlloca) } }

/-- A name for a value. -/
def rename (f : Function) (value : ValueId) (name : String) : Function :=
  { f with values := f.values.modify value.index fun data => { data with name := some name } }

/-- A new block, which is empty and open. -/
def addBlock (f : Function) (label : String) : Function :=
  { f with blocks := f.blocks ++ [⟨label, [], none⟩] }

end Function

/-! ## When an operation succeeds, and which change it makes -/

namespace Builder

variable {b b' : Builder}

/-- A selected block that has not ended. -/
structure Open (b : Builder) (block : BlockId) : Prop where
  current : b.current = some block
  unended : ∃ data, b.function.block? block = some data ∧ data.terminator = none

theorem openBlock_ok {block : BlockId} : b.openBlock = .ok block ↔ b.Open block := by
  unfold openBlock
  constructor
  · intro ok
    split at ok
    · cases ok
    · rename_i selected current
      split at ok
      · cases ok
      · rename_i data known
        split at ok
        · cases ok
        · rename_i unended
          cases ok
          exact ⟨current, data, known, by simpa using unended⟩
  · rintro ⟨current, data, known, unended⟩
    simp [current, known, unended]

theorem emit_ok {action : Action} {signature : Option FunctionTy} {result : Option ValueId} :
    b.emit action signature = .ok (result, b') ↔
      ∃ block ty, b.Open block ∧ b.function.checkAction signature action = .ok ty ∧
        result = ty.map (fun _ => ⟨b.function.values.length⟩) ∧
        b' = { b with function := b.function.push block action ty } := by
  simp only [emit, except_bind_ok, openBlock_ok, except_pure_ok, Prod.mk.injEq]
  constructor
  · rintro ⟨block, selected, ty, checked, same, rfl⟩
    refine ⟨block, ty, selected, checked, same ▸ ?_, ?_⟩ <;> cases ty <;>
      simp [newValue, modifyBlock, Function.push]
  · rintro ⟨block, ty, selected, checked, rfl, rfl⟩
    refine ⟨block, selected, ty, checked, ?_, ?_⟩ <;> cases ty <;>
      simp [newValue, modifyBlock, Function.push]

theorem emitValue_ok {action : Action} {value : ValueId} :
    b.emitValue action = .ok (value, b') ↔
      ∃ block ty, b.Open block ∧ b.function.checkAction none action = .ok (some ty) ∧
        value = ⟨b.function.values.length⟩ ∧
        b' = { b with function := b.function.push block action (some ty) } := by
  simp only [emitValue, except_bind_ok]
  constructor
  · rintro ⟨⟨result, b''⟩, emitted, done⟩
    obtain ⟨block, ty, selected, checked, rfl, rfl⟩ := emit_ok.1 emitted
    cases ty with
    | none => exact absurd done except_throw_ok
    | some ty =>
      cases except_pure_ok.1 done
      exact ⟨block, ty, selected, checked, rfl, rfl⟩
  · rintro ⟨block, ty, selected, checked, rfl, rfl⟩
    exact ⟨_, emit_ok.2 ⟨block, some ty, selected, checked, rfl, rfl⟩, rfl⟩

theorem store_ok {value ptr : Operand} :
    b.store value ptr = .ok b' ↔
      ∃ block, b.Open block ∧ b.function.checkAction none (.store value ptr) = .ok none ∧
        b' = { b with function := b.function.push block (.store value ptr) none } := by
  simp only [store, except_bind_ok, except_pure_ok]
  constructor
  · rintro ⟨⟨result, b''⟩, emitted, rfl⟩
    obtain ⟨block, ty, selected, checked, -, rfl⟩ := emit_ok.1 emitted
    have none_ : ty = none := by
      simp only [Function.checkAction, except_bind_ok, except_pure_ok] at checked
      obtain ⟨_, _, _, _, _, _, _, _, done⟩ := checked
      exact done.symm
    subst none_
    exact ⟨block, selected, checked, rfl⟩
  · rintro ⟨block, selected, checked, rfl⟩
    exact ⟨_, emit_ok.2 ⟨block, none, selected, checked, rfl, rfl⟩, rfl⟩

theorem terminate_ok {terminator : Terminator} :
    b.terminate terminator = .ok b' ↔
      ∃ block, b.Open block ∧ b.function.checkTerminator terminator = .ok () ∧
        b' = { b with function := b.function.close block terminator } := by
  simp only [terminate, except_bind_ok, openBlock_ok, except_pure_ok]
  constructor
  · rintro ⟨block, selected, _, checked, rfl⟩
    exact ⟨block, selected, checked, rfl⟩
  · rintro ⟨block, selected, checked, rfl⟩
    exact ⟨block, selected, (), checked, rfl⟩

theorem positionAtEnd_ok {block : BlockId} :
    b.positionAtEnd block = .ok b' ↔
      (b.function.block? block).isSome ∧ b' = { b with current := some block } := by
  unfold positionAtEnd
  split
  · rename_i known
    simp only [Except.ok.injEq, known, true_and]
    exact eq_comm
  · rename_i missing
    simp [missing]

theorem nameValue_ok {value : ValueId} {name : String} {named : Bool} :
    b.nameValue value name = .ok (named, b') ↔
      ∃ data, b.function.value? value = some data ∧
        ((data.name.isSome ∧ named = false ∧ b' = b) ∨
          (data.name = none ∧ named = true ∧
            b' = { b with
              function := b.function.rename value (b.valueNames.choose name)
              valueNames := (b.valueNames.fresh name).2 })) := by
  unfold nameValue
  cases b.function.value? value with
  | none => simp
  | some data =>
    cases named_ : data.name with
    | none =>
      simp only [named_, Option.isSome_none, Bool.false_eq_true, if_false, Except.ok.injEq,
        Prod.mk.injEq, Option.some.injEq, exists_eq_left', false_and, false_or, true_and,
        NameSupply.fresh_fst, Function.rename]
      constructor <;> (rintro ⟨rfl, rfl⟩; exact ⟨rfl, rfl⟩)
    | some old =>
      simp only [named_, Option.isSome_some, if_true, Except.ok.injEq, Prod.mk.injEq,
        Option.some.injEq, exists_eq_left', true_and, reduceCtorEq, false_and, or_false]
      constructor <;> (rintro ⟨rfl, rfl⟩; exact ⟨rfl, rfl⟩)

theorem modify_length_append {α : Type} (change : α → α) (a : α) :
    ∀ l : List α, (l ++ [a]).modify l.length change = l ++ [change a]
  | [] => rfl
  | x :: l => by
    simp only [List.cons_append, List.length_cons, List.modify_succ_cons,
      modify_length_append change a l]

/-- A value that has just been added takes the name it is given. -/
theorem nameValue_newValue (b : Builder) (ty : Ty) (block : BlockId) (name : String) :
    (b.newValue ty block).2.nameValue (b.newValue ty block).1 name =
      .ok (true, { b with
        function := { b.function with
          values := b.function.values ++ [⟨some (b.valueNames.choose name), ty, .inst block⟩] }
        valueNames := (b.valueNames.fresh name).2 }) := by
  have known : (b.newValue ty block).2.function.value? (b.newValue ty block).1 =
      some ⟨none, ty, .inst block⟩ := by
    simp [newValue, Function.value?]
  refine nameValue_ok.2 ⟨_, known, Or.inr ⟨rfl, rfl, ?_⟩⟩
  simp [newValue, Function.rename, modify_length_append]

theorem alloca_ok {ty : Ty} {name : String} {ptr : ValueId} :
    b.alloca ty name = .ok (ptr, b') ↔
      b.function.blocks ≠ [] ∧ ty.isSized ∧ ptr = ⟨b.function.values.length⟩ ∧
        b' = { b with
          function := b.function.reserve ty (b.valueNames.choose name)
          valueNames := (b.valueNames.fresh name).2 } := by
  unfold alloca entry? Function.entry? Function.isDeclaration
  cases blocks : b.function.blocks with
  | nil => simp [throw, throwThe, MonadExceptOf.throw]
  | cons entry rest =>
    have named := nameValue_newValue b .ptr ⟨0⟩ name
    simp only [List.isEmpty_cons, Bool.false_eq_true, if_false, except_bind_ok,
      except_discard_ok, except_pure_ok, named, ne_eq, reduceCtorEq, not_false_eq_true, true_and]
    constructor
    · rintro ⟨_, ⟨_, checked⟩, _, same, made⟩
      cases same
      cases made
      exact ⟨(Function.checkAction_alloca_ok.1 checked).1, rfl, rfl⟩
    · rintro ⟨sized, rfl, rfl⟩
      exact ⟨⟨⟩, ⟨_, Function.checkAction_alloca_ok.2 ⟨sized, rfl⟩⟩, _, rfl, rfl⟩

end Builder

/-! ## Every change leads to a later state -/

theorem findSome?_modify {α β : Type} {g : α → Option β} {change : α → α} :
    ∀ (l : List α) (i : Nat), (∀ a, l[i]? = some a → g (change a) = g a) →
      (l.modify i change).findSome? g = l.findSome? g
  | [], _, _ => by simp
  | a :: rest, 0, same => by
    simp only [List.modify_zero_cons, List.findSome?_cons]
    rw [same a rfl]
  | a :: rest, i + 1, same => by
    simp only [List.modify_succ_cons, List.findSome?_cons]
    rw [findSome?_modify rest i fun a known => same a (by simpa using known)]

theorem slotOf?_of_ne {id : ValueId} {inst : Instruction} (other : inst.result ≠ some id) :
    inst.slotOf? id = none := by
  unfold Instruction.slotOf?
  split
  · rw [if_neg other]
  · rfl

/-- The instructions of a block with one more at the end. -/
def BasicBlock.append (block : BasicBlock) (inst : Instruction) : BasicBlock :=
  { block with instructions := block.instructions ++ [inst] }

/-- The instructions of a block with a slot behind its leading slots. -/
def BasicBlock.insertSlot (block : BasicBlock) (inst : Instruction) : BasicBlock :=
  { block with
    instructions := block.instructions.takeWhile (·.action.isAlloca) ++
      inst :: block.instructions.dropWhile (·.action.isAlloca) }

theorem BasicBlock.code_append (block : BasicBlock) (inst : Instruction) :
    (block.append inst).code = block.code ++ if inst.action.isAlloca then [] else [inst] := by
  cases isSlot : inst.action.isAlloca <;> simp [BasicBlock.code, BasicBlock.append, isSlot]

theorem BasicBlock.code_insertSlot (block : BasicBlock) {inst : Instruction}
    (isSlot : inst.action.isAlloca) : (block.insertSlot inst).code = block.code := by
  have leading : (block.instructions.takeWhile (·.action.isAlloca)).filter
      (fun inst => !inst.action.isAlloca) = [] := by
    rw [List.filter_eq_nil_iff]
    intro a member
    simpa using List.mem_takeWhile_imp member
  conv_rhs => rw [BasicBlock.code, ← block.instructions.takeWhile_append_dropWhile
    (p := fun inst => inst.action.isAlloca), List.filter_append, leading]
  simp [BasicBlock.code, BasicBlock.insertSlot, leading, isSlot]

theorem findSome?_insertSlot {β : Type} (g : Instruction → Option β) (block : BasicBlock)
    {inst : Instruction} (skipped : g inst = none) :
    (block.insertSlot inst).instructions.findSome? g = block.instructions.findSome? g := by
  simp only [BasicBlock.insertSlot, List.findSome?_append, List.findSome?_cons, skipped]
  rw [← List.findSome?_append, List.takeWhile_append_dropWhile]

namespace Function

theorem block?_push (f : Function) (block id : BlockId) (action : Action) (ty : Option Ty) :
    (f.push block action ty).block? id = (f.block? id).map fun data =>
      if block = id then data.append ⟨ty.map fun _ => ⟨f.values.length⟩, action⟩ else data := by
  cases block; cases id
  simp [block?, push, List.getElem?_modify, BasicBlock.append]

theorem block?_close (f : Function) (block id : BlockId) (terminator : Terminator) :
    (f.close block terminator).block? id = (f.block? id).map fun data =>
      if block = id then { data with terminator := some terminator } else data := by
  cases block; cases id
  simp [block?, close, List.getElem?_modify]

theorem block?_reserve (f : Function) (ty : Ty) (name : String) (id : BlockId) :
    (f.reserve ty name).block? id = (f.block? id).map fun data =>
      if id = ⟨0⟩ then data.insertSlot ⟨some ⟨f.values.length⟩, .alloca ty⟩ else data := by
  cases id
  simp [block?, reserve, List.getElem?_modify, BasicBlock.insertSlot, eq_comm]

theorem block?_addBlock (f : Function) (label : String) (id : BlockId) :
    (f.addBlock label).block? id =
      if id.index = f.blocks.length then some ⟨label, [], none⟩ else f.block? id := by
  rcases Nat.lt_trichotomy id.index f.blocks.length with before | here | after
  · simp [block?, addBlock, List.getElem?_append_left before, Nat.ne_of_lt before]
  · simp [block?, addBlock, here]
  · rw [if_neg (by omega)]
    simp only [block?, addBlock]
    rw [List.getElem?_eq_none (by simp; omega), List.getElem?_eq_none (by omega)]

theorem value?_push_of_some {f : Function} {id : ValueId} {data : ValueData}
    (known : f.value? id = some data) (block : BlockId) (action : Action) (ty : Option Ty) :
    (f.push block action ty).value? id = some data := by
  simp only [value?, push]
  rw [List.getElem?_append_left (value?_lt known)]
  exact known

theorem value?_reserve_of_some {f : Function} {id : ValueId} {data : ValueData}
    (known : f.value? id = some data) (ty : Ty) (name : String) :
    (f.reserve ty name).value? id = some data := by
  simp only [value?, reserve]
  rw [List.getElem?_append_left (value?_lt known)]
  exact known

theorem value?_rename (f : Function) (value id : ValueId) (name : String) :
    (f.rename value name).value? id = (f.value? id).map fun data =>
      if value = id then { data with name := some name } else data := by
  cases value; cases id
  simp [value?, rename, List.getElem?_modify]

theorem extends_push {f : Function} {block : BlockId} {data : BasicBlock}
    (known : f.block? block = some data) (unended : data.terminator = none) (action : Action)
    (ty : Option Ty) : f.Extends (f.push block action ty) where
  name := rfl
  ty := rfl
  params := rfl
  count := by simp [push]
  values := fun id data known => ⟨data.name, value?_push_of_some known block action ty⟩
  slots := fun id bound => by
    rw [slotTy?_value, slotTy?_value]
    refine findSome?_modify _ _ fun data _ => ?_
    have other : (ty.map fun _ => (⟨f.values.length⟩ : ValueId)) ≠ some id := by
      cases ty <;> simp
      rintro rfl
      exact absurd bound (Nat.lt_irrefl _)
    have skipped : Instruction.slotOf? id ⟨ty.map fun _ => ⟨f.values.length⟩, action⟩ = none :=
      slotOf?_of_ne other
    simp [List.findSome?_append, skipped]
  blocks := fun id data' known' => by
    refine ⟨_, by rw [block?_push, known']; rfl, ?_⟩
    split
    · rename_i here
      subst here
      cases known.symm.trans known'
      refine ⟨rfl, ?_, fun t ended => ?_⟩
      · rw [BasicBlock.code_append]
        exact List.prefix_append _ _
      · rw [unended] at ended
        cases ended
    · exact ⟨rfl, List.prefix_rfl, fun t ended => ⟨ended, rfl⟩⟩

theorem extends_close {f : Function} {block : BlockId} {data : BasicBlock}
    (known : f.block? block = some data) (unended : data.terminator = none)
    (terminator : Terminator) : f.Extends (f.close block terminator) where
  name := rfl
  ty := rfl
  params := rfl
  count := Nat.le_refl _
  values := fun id data known => ⟨data.name, known⟩
  slots := fun id _ => by
    rw [slotTy?_value, slotTy?_value]
    exact findSome?_modify _ _ fun data _ => rfl
  blocks := fun id data' known' => by
    refine ⟨_, by rw [block?_close, known']; rfl, ?_⟩
    split
    · rename_i here
      subst here
      cases known.symm.trans known'
      refine ⟨rfl, List.prefix_rfl, fun t ended => ?_⟩
      rw [unended] at ended
      cases ended
    · exact ⟨rfl, List.prefix_rfl, fun t ended => ⟨ended, rfl⟩⟩

theorem extends_reserve (f : Function) (ty : Ty) (name : String) :
    f.Extends (f.reserve ty name) where
  name := rfl
  ty := rfl
  params := rfl
  count := by simp [reserve]
  values := fun id data known => ⟨data.name, value?_reserve_of_some known ty name⟩
  slots := fun id bound => by
    rw [slotTy?_value, slotTy?_value]
    refine findSome?_modify _ _ fun data _ => ?_
    refine findSome?_insertSlot _ data (slotOf?_of_ne ?_)
    simp only [ne_eq, Option.some.injEq]
    rintro rfl
    exact absurd bound (Nat.lt_irrefl _)
  blocks := fun id data known => by
    refine ⟨_, by rw [block?_reserve, known]; rfl, ?_⟩
    split
    · have same : (data.insertSlot ⟨some ⟨f.values.length⟩, .alloca ty⟩).code = data.code :=
        data.code_insertSlot rfl
      exact ⟨rfl, same ▸ List.prefix_rfl, fun t ended => ⟨ended, same⟩⟩
    · exact ⟨rfl, List.prefix_rfl, fun t ended => ⟨ended, rfl⟩⟩

theorem extends_rename (f : Function) (value : ValueId) (name : String) :
    f.Extends (f.rename value name) where
  name := rfl
  ty := rfl
  params := rfl
  count := by simp [rename]
  values := fun id data known => by
    rw [value?_rename, known]
    by_cases here : value = id
    · exact ⟨some name, by simp [here]⟩
    · exact ⟨data.name, by simp [here]⟩
  slots := fun _ _ => rfl
  blocks := fun _ data known =>
    ⟨data, known, rfl, List.prefix_rfl, fun _ ended => ⟨ended, rfl⟩⟩

theorem extends_addBlock (f : Function) (label : String) : f.Extends (f.addBlock label) where
  name := rfl
  ty := rfl
  params := rfl
  count := Nat.le_refl _
  values := fun id data known => ⟨data.name, known⟩
  slots := fun id _ => by
    rw [slotTy?_value, slotTy?_value]
    simp [addBlock, List.findSome?_append]
  blocks := fun id data known => by
    refine ⟨data, ?_, rfl, List.prefix_rfl, fun t ended => ⟨ended, rfl⟩⟩
    rw [block?_addBlock, if_neg (Nat.ne_of_lt (List.getElem?_eq_some_iff.1 known).1)]
    exact known

end Function

end SsaLowering.Ir
