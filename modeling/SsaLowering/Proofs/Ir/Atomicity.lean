/-
# SsaLowering.Proofs.Ir.Atomicity -- builders that are changed where they stand

A refused operation of a `Builder` gives no builder, so there is nothing that it could
leave behind.  Here the operations change a builder where it stands, step after step: a
name is taken, a value is entered, an instruction is put into a block.  What was done
before a refusal stays.  That each operation still is all or nothing (`Follows`) holds for
one of two reasons: the checks come before the first change, or what comes behind a change
cannot be refused, since a new value can be named and the rule of an instruction that has
to define a value gives a type.

`Builder.Grows` is what an operation that succeeds can do to what is there already.
-/
import SsaLowering.Proofs.Ir.Construction

namespace SsaLowering.Ir

set_option autoImplicit false

/-! ## One step after the other -/

/-- Work on a builder in place.  A refusal does not take back what was done before it. -/
abbrev InPlace := EStateM BuildError Builder

namespace InPlace

/-- A check of the builder as it is now. -/
def ask {α : Type} (check : Builder → Except BuildError α) : InPlace α := fun b =>
  match check b with
  | .ok a => .ok a b
  | .error cause => .error cause b

def takeBlockName (name : String) : InPlace String :=
  modifyGet fun b =>
    let (label, names) := b.blockNames.fresh name
    (label, { b with blockNames := names })

def takeValueName (name : String) : InPlace String :=
  modifyGet fun b =>
    let (chosen, names) := b.valueNames.fresh name
    (chosen, { b with valueNames := names })

def newValue (ty : Ty) (block : BlockId) : InPlace ValueId := modifyGet (·.newValue ty block)

def modifyBlock (block : BlockId) (change : BasicBlock → BasicBlock) : InPlace Unit :=
  modify (·.modifyBlock block change)

def appendBlock (name : String) : InPlace BlockId := do
  let label ← takeBlockName name
  let b ← get
  set { b with function := b.function.addBlock label }
  return ⟨b.function.blocks.length⟩

def positionAtEnd (block : BlockId) : InPlace Unit := do
  match (← get).function.block? block with
  | none => throw (.unknownBlock block)
  | some _ => modify fun b => { b with current := some block }

def nameValue (value : ValueId) (name : String) : InPlace Bool := do
  match (← get).function.value? value with
  | none => throw (.unknownValue value)
  | some data =>
    if data.name.isSome then return false
    let chosen ← takeValueName name
    modify fun b => { b with function := b.function.rename value chosen }
    return true

/-- The value is entered and named before its instruction is there. -/
def alloca (ty : Ty) (name : String) : InPlace ValueId := do
  let b ← get
  match b.entry? with
  | none => throw .noInsertionPoint
  | some entry =>
    let _ ← ask (·.function.checkAction none (.alloca ty))
    let value ← newValue .ptr entry
    let _ ← nameValue value name
    modifyBlock entry (·.insertSlot ⟨some value, .alloca ty⟩)
    return value

def emit (action : Action) (signature : Option FunctionTy) : InPlace (Option ValueId) := do
  let block ← ask Builder.openBlock
  let result ← match ← ask (·.function.checkAction signature action) with
    | none => pure none
    | some ty => some <$> newValue ty block
  modifyBlock block (·.append ⟨result, action⟩)
  return result

/-- Only when the instruction is in its block is it asked whether it defines a value. -/
def emitValue (action : Action) : InPlace ValueId := do
  match ← emit action none with
  | none => throw (.invalidType action.opcode .void)
  | some value => return value

def terminate (terminator : Terminator) : InPlace Unit := do
  let block ← ask Builder.openBlock
  ask (·.function.checkTerminator terminator)
  modifyBlock block fun data => { data with terminator := some terminator }

/-! ## All or nothing -/

variable {α β : Type} {b : Builder}

/-- An outcome, told of the builder: where it is a refusal, the builder is as it was. -/
def settle (b : Builder) : Except BuildError (α × Builder) → EStateM.Result BuildError Builder α
  | .ok (a, after) => .ok a after
  | .error cause => .error cause b

/-- A check that comes before all changes. -/
theorem ask_bind {check : Builder → Except BuildError α} {x : α → InPlace β}
    {outcome : α → Except BuildError (β × Builder)}
    (rest : ∀ a, check b = .ok a → x a b = settle b (outcome a)) :
    (ask check >>= x) b = settle b (check b >>= outcome) := by
  rw [bind_run, ask]
  cases checked : check b with
  | error cause => rfl
  | ok a => exact rest a checked

theorem get_bind (x : Builder → InPlace α) : (get >>= x) b = x b b := rfl

/-- Where the result is of no use, so is that of the outcome. -/
theorem discard_eq {x : InPlace α} {outcome : Except BuildError (α × Builder)}
    (same : x b = settle b outcome) :
    (discard x : InPlace Unit) b = settle b (outcome.map fun made => ((), made.2)) := by
  show EStateM.map _ x b = _
  rw [EStateM.map, same]
  cases outcome <;> rfl

theorem appendBlock_eq (b : Builder) (name : String) :
    appendBlock name b = settle b (.ok (b.appendBlock name)) := rfl

theorem positionAtEnd_eq (b : Builder) (block : BlockId) :
    positionAtEnd block b = settle b ((b.positionAtEnd block).map fun after => ((), after)) := by
  rw [positionAtEnd, Builder.positionAtEnd, get_bind]
  cases b.function.block? block <;> rfl

theorem nameValue_eq (b : Builder) (value : ValueId) (name : String) :
    nameValue value name b = settle b (b.nameValue value name) := by
  rw [nameValue, Builder.nameValue, get_bind]
  cases b.function.value? value with
  | none => rfl
  | some data =>
    dsimp only
    cases data.name <;> rfl

theorem emit_eq (b : Builder) (action : Action) (signature : Option FunctionTy) :
    emit action signature b = settle b (b.emit action signature) := by
  refine ask_bind fun block _ => ask_bind fun ty _ => ?_
  cases ty <;> rfl

theorem terminate_eq (b : Builder) (terminator : Terminator) :
    terminate terminator b =
      settle b ((b.terminate terminator).map fun after => ((), after)) := by
  have steps : ((b.terminate terminator).map fun after => ((), after)) =
      b.openBlock >>= fun block => b.function.checkTerminator terminator >>= fun _ =>
        pure ((), b.modifyBlock block fun data => { data with terminator := some terminator }) := by
    rw [Builder.terminate]
    cases b.openBlock with
    | error cause => rfl
    | ok block => cases b.function.checkTerminator terminator <;> rfl
  rw [steps]
  exact ask_bind fun block _ => ask_bind fun _ _ => rfl

/-- The question that comes after the change is answered with yes. -/
theorem emitValue_eq (b : Builder) {action : Action}
    (valued : ∀ f : Function, f.checkAction none action ≠ .ok none) :
    emitValue action b = settle b (b.emitValue action) := by
  have same := Construction.emitValue_eq b valued
  unfold emitValue
  rw [bind_run, emit_eq, ← same]
  cases b.emitValue action <;> rfl

/-- The new value is there and has no name, so it can be named. -/
theorem alloca_eq (b : Builder) (ty : Ty) (name : String) :
    alloca ty name b = settle b (b.alloca ty name) := by
  rw [alloca, Builder.alloca, get_bind]
  cases b.entry? with
  | none => rfl
  | some entry =>
    dsimp only
    have asked {γ : Type} (x : Except BuildError (Option Ty)) (f : PUnit → Except BuildError γ) :
        (discard x >>= f) = x >>= fun _ => f ⟨⟩ := by
      cases x <;> rfl
    rw [asked]
    refine ask_bind fun _ _ => ?_
    -- what is left starts from the builder with the new value
    have named := nameValue_eq (b.newValue .ptr entry).2 (b.newValue .ptr entry).1 name
    rw [Builder.nameValue_newValue] at named
    rw [Builder.nameValue_newValue]
    show (nameValue (b.newValue .ptr entry).1 name >>= _) (b.newValue .ptr entry).2 = _
    rw [bind_run, named]
    rfl

end InPlace

/-! ## Operations -/

namespace Operation

/-- The builder that an operation leads to. -/
def apply (b : Builder) : Operation → Except BuildError Builder
  | appendBlock name => .ok (b.appendBlock name).2
  | positionAtEnd block => b.positionAtEnd block
  | nameValue value name => (b.nameValue value name).map (·.2)
  | alloca ty name => (b.alloca ty name).map (·.2)
  | load ty ptr => (b.load ty ptr).map (·.2)
  | store value ptr => b.store value ptr
  | fadd lhs rhs => (b.fadd lhs rhs).map (·.2)
  | call callee signature args => (b.call callee signature args).map (·.2)
  | br target => b.br target
  | condBr cond thenBlock elseBlock => b.condBr cond thenBlock elseBlock
  | ret value => b.ret value
  | unreachable => b.unreachable
  | rewrap => .ok (.ofFunction b.function)

/-- The same operation on a builder where it stands. -/
def inPlace : Operation → InPlace Unit
  | appendBlock name => discard (InPlace.appendBlock name)
  | positionAtEnd block => InPlace.positionAtEnd block
  | nameValue value name => discard (InPlace.nameValue value name)
  | alloca ty name => discard (InPlace.alloca ty name)
  | load ty ptr => discard (InPlace.emitValue (.load ty ptr))
  | store value ptr => discard (InPlace.emit (.store value ptr) none)
  | fadd lhs rhs => discard (InPlace.emitValue (.fadd lhs rhs))
  | call callee signature args => discard (InPlace.emit (.call callee args) (some signature))
  | br target => InPlace.terminate (.br target)
  | condBr cond thenBlock elseBlock => InPlace.terminate (.condBr cond thenBlock elseBlock)
  | ret value => InPlace.terminate (.ret value)
  | unreachable => InPlace.terminate .unreachable
  | rewrap => modify fun b => .ofFunction b.function

/-- Whether the operation emits something where the builder is. -/
def atCursor : Operation → Bool
  | appendBlock _ | positionAtEnd _ | nameValue _ _ | alloca _ _ | rewrap => false
  | load _ _ | store _ _ | fadd _ _ | call _ _ _ | br _ | condBr _ _ _ | ret _ | unreachable => true

variable {b after : Builder} {op : Operation}

/-- In place an operation reaches its outcome, and a refusal leaves the builder as it was. -/
theorem inPlace_eq (b : Builder) (op : Operation) :
    op.inPlace b = InPlace.settle b ((op.apply b).map fun after => ((), after)) := by
  have forget {α : Type} (made : Except BuildError (α × Builder)) :
      (made.map fun made => ((), made.2)) = (made.map (·.2)).map fun after => ((), after) := by
    cases made <;> rfl
  cases op with
  | appendBlock name => rfl
  | positionAtEnd block => exact InPlace.positionAtEnd_eq b block
  | nameValue value name =>
    exact (InPlace.discard_eq (InPlace.nameValue_eq b value name)).trans (by rw [forget]; rfl)
  | alloca ty name =>
    exact (InPlace.discard_eq (InPlace.alloca_eq b ty name)).trans (by rw [forget]; rfl)
  | load ty ptr =>
    have same := InPlace.emitValue_eq b fun f => Construction.checkAction_load_ne f ty ptr
    exact (InPlace.discard_eq same).trans (by rw [forget]; rfl)
  | store value ptr =>
    refine (InPlace.discard_eq (InPlace.emit_eq b _ none)).trans ?_
    rw [← Construction.store_eq, apply]
    cases b.store value ptr <;> rfl
  | fadd lhs rhs =>
    have same := InPlace.emitValue_eq b fun f => Construction.checkAction_fadd_ne f lhs rhs
    exact (InPlace.discard_eq same).trans (by rw [forget]; rfl)
  | call callee signature args =>
    exact (InPlace.discard_eq (InPlace.emit_eq b _ (some signature))).trans (by rw [forget]; rfl)
  | br target => exact InPlace.terminate_eq b _
  | condBr cond thenBlock elseBlock => exact InPlace.terminate_eq b _
  | ret value => exact InPlace.terminate_eq b _
  | unreachable => exact InPlace.terminate_eq b _
  | rewrap => rfl

end Operation

/-! ## What is there already -/

/-- What becomes of the block `id`. -/
structure BasicBlock.GrowsTo (id : BlockId) (block later : BasicBlock) : Prop where
  label : later.name = block.name
  terminator : ∀ t, block.terminator = some t → later.terminator = some t
  order : block.instructions.Sublist later.instructions
  /-- A block that has ended gains nothing but slots behind the slots at the top of the
  entry block. -/
  ended : block.terminator.isSome → ∃ slots,
    later.instructions = block.instructions.takeWhile (·.action.isAlloca) ++ slots ++
        block.instructions.dropWhile (·.action.isAlloca) ∧
      (∀ inst ∈ slots, inst.action.isAlloca) ∧ (slots ≠ [] → id = ⟨0⟩)

/-- What becomes of the blocks and the values of a builder. -/
structure Builder.Grows (b after : Builder) : Prop where
  blocks : ∀ id block, b.function.block? id = some block →
    ∃ later, after.function.block? id = some later ∧ block.GrowsTo id later
  values : ∀ id data, b.function.value? id = some data →
    ∃ later, after.function.value? id = some later ∧ later.ty = data.ty ∧
      later.origin = data.origin ∧ ∀ name, data.name = some name → later.name = some name

namespace BasicBlock

variable {id : BlockId} {block middle later : BasicBlock}

/-- A list that starts with elements of one kind and goes on with another is cut between them. -/
theorem cut_append {α : Type} {p : α → Bool} {lead rest : List α} (all : ∀ a ∈ lead, p a)
    (other : rest.takeWhile p = []) :
    (lead ++ rest).takeWhile p = lead ∧ (lead ++ rest).dropWhile p = rest := by
  have cut := rest.takeWhile_append_dropWhile (p := p)
  rw [other, List.nil_append] at cut
  rw [List.takeWhile_append_of_pos all, List.dropWhile_append_of_pos all, other, cut,
    List.append_nil]
  exact ⟨rfl, rfl⟩

theorem takeWhile_dropWhile {α : Type} (p : α → Bool) (l : List α) :
    (l.dropWhile p).takeWhile p = [] := by
  have cut := (l.dropWhile p).takeWhile_append_dropWhile (p := p)
  rwa [List.dropWhile_idempotent, List.append_left_eq_self] at cut

/-- Slots are reserved among the instructions of the block `id`: behind the slots at the top,
and nowhere but in the entry block. -/
def Reserves (id : BlockId) (before after : List Instruction) : Prop :=
  ∃ slots,
    after = before.takeWhile (·.action.isAlloca) ++ slots ++
        before.dropWhile (·.action.isAlloca) ∧
      (∀ inst ∈ slots, inst.action.isAlloca) ∧ (slots ≠ [] → id = ⟨0⟩)

theorem Reserves.refl (id : BlockId) (before : List Instruction) : Reserves id before before := by
  refine ⟨[], by rw [List.append_nil, List.takeWhile_append_dropWhile], ?_, ?_⟩
  · exact fun _ absent => absurd absent List.not_mem_nil
  · exact fun some_ => absurd rfl some_

theorem Reserves.trans {before between after : List Instruction}
    (first : Reserves id before between) (second : Reserves id between after) :
    Reserves id before after := by
  obtain ⟨slots, grown, reserved, entry⟩ := first
  obtain ⟨slots', grown', reserved', entry'⟩ := second
  have leading : ∀ inst ∈ before.takeWhile (·.action.isAlloca) ++ slots, inst.action.isAlloca :=
    List.forall_mem_append.2 ⟨fun _ => List.mem_takeWhile_imp, reserved⟩
  have cut := cut_append leading (takeWhile_dropWhile (·.action.isAlloca) before)
  rw [← grown] at cut
  refine ⟨slots ++ slots', ?_, List.forall_mem_append.2 ⟨reserved, reserved'⟩, ?_⟩
  · rw [grown', cut.1, cut.2]
    simp only [List.append_assoc]
  · intro some_
    rcases slots with _ | ⟨slot, slots⟩
    · exact entry' some_
    · exact entry (List.cons_ne_nil slot slots)

theorem reserves_insertSlot (block : BasicBlock) {inst : Instruction}
    (slot : inst.action.isAlloca) :
    Reserves ⟨0⟩ block.instructions (block.insertSlot inst).instructions :=
  ⟨[inst], by simp [insertSlot], List.forall_mem_singleton.2 slot, fun _ => rfl⟩

theorem GrowsTo.refl (id : BlockId) (block : BasicBlock) : block.GrowsTo id block where
  label := rfl
  terminator := fun _ ended => ended
  order := List.Sublist.refl _
  ended := fun _ => Reserves.refl id block.instructions

theorem GrowsTo.trans (first : block.GrowsTo id middle) (second : middle.GrowsTo id later) :
    block.GrowsTo id later where
  label := second.label.trans first.label
  terminator := fun t ended => second.terminator t (first.terminator t ended)
  order := first.order.trans second.order
  ended := by
    intro closed
    obtain ⟨t, ended⟩ := Option.isSome_iff_exists.1 closed
    have closed' := Option.isSome_iff_exists.2 ⟨t, first.terminator t ended⟩
    exact Reserves.trans (first.ended closed) (second.ended closed')

theorem growsTo_append (unended : block.terminator = none) (inst : Instruction) :
    block.GrowsTo id (block.append inst) where
  label := rfl
  terminator := fun _ ended => ended
  order := List.sublist_append_left _ _
  ended := fun closed => by
    rw [unended] at closed
    cases closed

theorem growsTo_close (unended : block.terminator = none) (terminator : Terminator) :
    block.GrowsTo id { block with terminator := some terminator } where
  label := rfl
  terminator := fun t ended => by
    rw [unended] at ended
    cases ended
  order := List.Sublist.refl _
  ended := fun closed => by
    rw [unended] at closed
    cases closed

theorem growsTo_insertSlot (block : BasicBlock) {inst : Instruction}
    (slot : inst.action.isAlloca) : block.GrowsTo ⟨0⟩ (block.insertSlot inst) where
  label := rfl
  terminator := fun _ ended => ended
  order := by
    conv_lhs => rw [← block.instructions.takeWhile_append_dropWhile (p := (·.action.isAlloca))]
    exact List.Sublist.append_left (List.sublist_cons_self _ _) _
  ended := fun _ => block.reserves_insertSlot slot

end BasicBlock

namespace Builder

variable {b middle after : Builder}

theorem Grows.refl (b : Builder) : b.Grows b where
  blocks := fun id block known => ⟨block, known, .refl id block⟩
  values := fun _ data known => ⟨data, known, rfl, rfl, fun _ named => named⟩

theorem Grows.trans (first : b.Grows middle) (second : middle.Grows after) : b.Grows after where
  blocks := by
    intro id block known
    obtain ⟨later, known, grown⟩ := first.blocks id block known
    obtain ⟨last, known, grown'⟩ := second.blocks id later known
    exact ⟨last, known, grown.trans grown'⟩
  values := by
    intro id data known
    obtain ⟨later, known, ty, origin, name⟩ := first.values id data known
    obtain ⟨last, known, ty', origin', name'⟩ := second.values id later known
    exact ⟨last, known, ty'.trans ty, origin'.trans origin, fun text named =>
      name' text (name text named)⟩

/-- A change of one block that leaves the values alone, or adds one. -/
theorem grows_of_changed {change : BlockId → BasicBlock → BasicBlock}
    (blocks : ∀ id, after.function.block? id = (b.function.block? id).map (change id))
    (grown : ∀ id block, b.function.block? id = some block → block.GrowsTo id (change id block))
    (values : ∀ id data, b.function.value? id = some data →
      after.function.value? id = some data) : b.Grows after where
  blocks := fun id block known =>
    ⟨change id block, by rw [blocks, known]; rfl, grown id block known⟩
  values := fun id data known => ⟨data, values id data known, rfl, rfl, fun _ named => named⟩

end Builder

namespace Operation

variable {b after : Builder} {op : Operation}

theorem grows_emit {action : Action} {signature : Option FunctionTy} {result : Option ValueId}
    (done : b.emit action signature = .ok (result, after)) :
    b.Grows after ∧ ∃ block, b.Open block := by
  obtain ⟨block, ty, selected, -, -, rfl⟩ := Builder.emit_ok.1 done
  obtain ⟨data, known, unended⟩ := selected.unended
  refine ⟨?_, block, selected⟩
  refine Builder.grows_of_changed (fun id => b.function.block?_push block id action ty) ?_
    fun _ _ known => Function.value?_push_of_some known block action ty
  intro id other present
  split
  · rename_i same
    subst same
    cases known.symm.trans present
    exact BasicBlock.growsTo_append unended _
  · exact .refl id other

theorem grows_terminate {terminator : Terminator} (done : b.terminate terminator = .ok after) :
    b.Grows after ∧ ∃ block, b.Open block := by
  obtain ⟨block, selected, -, rfl⟩ := Builder.terminate_ok.1 done
  obtain ⟨data, known, unended⟩ := selected.unended
  refine ⟨?_, block, selected⟩
  refine Builder.grows_of_changed (fun id => b.function.block?_close block id terminator) ?_
    fun _ _ known => known
  intro id other present
  split
  · rename_i same
    subst same
    cases known.symm.trans present
    exact BasicBlock.growsTo_close unended _
  · exact .refl id other

theorem grows_alloca {ty : Ty} {name : String} {ptr : ValueId}
    (done : b.alloca ty name = .ok (ptr, after)) : b.Grows after := by
  obtain ⟨-, -, -, rfl⟩ := Builder.alloca_ok.1 done
  refine Builder.grows_of_changed (fun id => b.function.block?_reserve ty _ id) ?_
    fun _ _ known => Function.value?_reserve_of_some known ty _
  intro id block _
  split
  · rename_i entry
    subst entry
    exact block.growsTo_insertSlot rfl
  · exact .refl id block

theorem grows_nameValue {value : ValueId} {name : String} {named : Bool}
    (done : b.nameValue value name = .ok (named, after)) : b.Grows after := by
  obtain ⟨data, known, ⟨-, -, rfl⟩ | ⟨unnamed, -, rfl⟩⟩ := Builder.nameValue_ok.1 done
  · exact .refl _
  · refine ⟨fun id block known => ⟨block, known, .refl id block⟩, fun id other present => ?_⟩
    refine ⟨_, (Function.value?_rename _ value id _).trans (congrArg _ present), ?_⟩
    split
    · rename_i same
      subst same
      cases known.symm.trans present
      refine ⟨rfl, rfl, fun text has => ?_⟩
      rw [unnamed] at has
      cases has
    · exact ⟨rfl, rfl, fun _ has => has⟩

theorem grows_appendBlock (b : Builder) (name : String) : b.Grows (b.appendBlock name).2 where
  blocks := by
    intro id block known
    have before : id.index < b.function.blocks.length := (List.getElem?_eq_some_iff.1 known).1
    refine ⟨block, ?_, .refl id block⟩
    exact (b.function.block?_addBlock _ id).trans (by rw [if_neg (Nat.ne_of_lt before), known])
  values := fun _ data known => ⟨data, known, rfl, rfl, fun _ named => named⟩

/-- What an operation that succeeds does to what is there, and where it can succeed. -/
theorem grows_apply (done : op.apply b = .ok after) :
    b.Grows after ∧ (op.atCursor → ∃ block, b.Open block) := by
  -- an emission at the cursor, whatever is made of the value that it defines
  have emitted (action : Action) (signature : Option FunctionTy)
      (done : (b.emit action signature).map (·.2) = .ok after) :
      b.Grows after ∧ (true → ∃ block, b.Open block) := by
    obtain ⟨⟨result, b'⟩, made, rfl⟩ := except_map_ok.1 done
    exact (grows_emit made).imp_right fun selected _ => selected
  have idle {op : Operation} (elsewhere : op.atCursor = false) :
      op.atCursor → ∃ block, b.Open block := by
    intro asked
    rw [elsewhere] at asked
    cases asked
  have forget {made : Except BuildError (ValueId × Builder)} :
      (made.map fun made => (some made.1, made.2)).map (·.2) = made.map (·.2) := by
    cases made <;> rfl
  cases op with
  | appendBlock name =>
    cases done
    exact ⟨grows_appendBlock b name, idle rfl⟩
  | positionAtEnd block =>
    obtain ⟨-, rfl⟩ := Builder.positionAtEnd_ok.1 done
    exact ⟨⟨(Builder.Grows.refl b).blocks, (Builder.Grows.refl b).values⟩, idle rfl⟩
  | nameValue value name =>
    obtain ⟨⟨named, b'⟩, made, rfl⟩ := except_map_ok.1 done
    exact ⟨grows_nameValue made, idle rfl⟩
  | alloca ty name =>
    obtain ⟨⟨ptr, b'⟩, made, rfl⟩ := except_map_ok.1 done
    exact ⟨grows_alloca made, idle rfl⟩
  | load ty ptr =>
    have same := Construction.emitValue_eq b fun f => Construction.checkAction_load_ne f ty ptr
    exact emitted _ none (by rw [← same, forget]; exact done)
  | store value ptr =>
    refine emitted (.store value ptr) none ?_
    rw [← Construction.store_eq, show b.store value ptr = _ from done]
    rfl
  | fadd lhs rhs =>
    have same := Construction.emitValue_eq b fun f => Construction.checkAction_fadd_ne f lhs rhs
    exact emitted _ none (by rw [← same, forget]; exact done)
  | call callee signature args => exact emitted _ _ done
  | br target => exact (grows_terminate done).imp_right fun selected _ => selected
  | condBr cond thenBlock elseBlock =>
    exact (grows_terminate done).imp_right fun selected _ => selected
  | ret value => exact (grows_terminate done).imp_right fun selected _ => selected
  | unreachable => exact (grows_terminate done).imp_right fun selected _ => selected
  | rewrap =>
    cases done
    exact ⟨⟨(Builder.Grows.refl b).blocks, (Builder.Grows.refl b).values⟩, idle rfl⟩

/-- An operation on a builder where it stands, whatever the builder and the operation.  A
refusal leaves all of the builder as it was.  When the operation succeeds it has only added to
what was there, and what is emitted at the cursor goes to a block that has not ended. -/
theorem inPlace_atomic (b : Builder) (op : Operation) :
    match op.inPlace b with
    | .error cause after => op.apply b = .error cause ∧ after = b
    | .ok () after => op.apply b = .ok after ∧ b.Grows after ∧
        (op.atCursor → ∃ block, b.Open block) := by
  rw [inPlace_eq]
  cases outcome : op.apply b with
  | error cause => exact ⟨rfl, rfl⟩
  | ok after => exact ⟨rfl, grows_apply outcome⟩

/-- A builder after an operation was tried in place. -/
def tried (b : Builder) (op : Operation) : Builder :=
  match op.inPlace b with
  | .error _ after | .ok () after => after

/-- Whatever a builder was asked to do, refusals included, it has only added to what was there. -/
theorem grows_tried (ops : List Operation) (b : Builder) : b.Grows (ops.foldl tried b) := by
  induction ops generalizing b with
  | nil => exact .refl b
  | cons op ops ih =>
    refine Builder.Grows.trans ?_ (ih (tried b op))
    rw [tried, inPlace_eq]
    cases outcome : op.apply b with
    | error cause => exact .refl b
    | ok after => exact (grows_apply outcome).1

end Operation

end SsaLowering.Ir
