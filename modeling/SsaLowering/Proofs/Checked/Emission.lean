/-
# SsaLowering.Proofs.Checked.Emission -- no emission slips

An instruction goes into a block that was found to be open, or into the entry block, so
the block is there when it is written.  A builder knows of no more names than there are
blocks and named values (`Builder.Counted`), which every operation keeps, so a free suffix
is found among those that can be counted.  Every operation, made in place and checked, is
therefore the one of the builder.
-/
import SsaLowering.Proofs.Checked.Steps
import SsaLowering.Proofs.Ir.LocalNames

namespace SsaLowering

set_option autoImplicit false

open Ir (Ty BlockId ValueId Operand Builder BuildError BasicBlock Action Terminator Function
  FunctionTy)

/-! ## How many names are in use -/

namespace Ir.Builder

/-- No more names are in use than there are blocks, and than there are values with a name. -/
structure Counted (b : Builder) : Prop where
  labels : b.blockNames.used.length ≤ b.function.labels.length
  names : b.valueNames.used.length ≤ b.function.valueNames.countP (·.isSome)

variable {b b' : Builder} {name : String}

theorem counted_ofFunction (f : Function) : (ofFunction f).Counted where
  labels := le_refl _
  names := by
    show (f.values.filterMap (·.name)).length ≤ (f.values.map (·.name)).countP (·.isSome)
    rw [List.length_filterMap_eq_countP, List.countP_map]
    exact le_refl _

namespace Counted

theorem push (counted : b.Counted) (block : BlockId) (action : Action) (ty : Option Ty) :
    ({ b with function := b.function.push block action ty } : Builder).Counted where
  labels := by
    rw [Function.labels_push]
    exact counted.labels
  names := by
    rw [Function.valueNames_push, List.countP_append]
    exact counted.names.trans (Nat.le_add_right _ _)

theorem newValue (counted : b.Counted) (ty : Ty) (block : BlockId) :
    (b.newValue ty block).2.Counted where
  labels := counted.labels
  names := by
    rw [Builder.newValue, Function.valueNames, List.map_append, List.countP_append]
    exact counted.names.trans (Nat.le_add_right _ _)

theorem close (counted : b.Counted) (block : BlockId) (terminator : Terminator) :
    ({ b with function := b.function.close block terminator } : Builder).Counted where
  labels := by
    rw [Function.labels_close]
    exact counted.labels
  names := counted.names

theorem appendBlock (counted : b.Counted) (name : String) : (b.appendBlock name).2.Counted where
  labels := by
    show (b.blockNames.fresh name).2.used.length ≤ (b.function.addBlock _).labels.length
    rw [NameSupply.fresh_used, Function.labels_addBlock, List.length_append, List.length_cons]
    exact Nat.succ_le_succ counted.labels
  names := counted.names

theorem reserve (counted : b.Counted) (ty : Ty) (name : String) :
    ({ b with
      function := b.function.reserve ty (b.valueNames.choose name)
      valueNames := (b.valueNames.fresh name).2 } : Builder).Counted where
  labels := by
    rw [Function.labels_reserve]
    exact counted.labels
  names := by
    rw [Function.valueNames_reserve, NameSupply.fresh_used, List.countP_append, List.length_cons]
    exact Nat.succ_le_succ counted.names

theorem rename (counted : b.Counted) {value : ValueId} {data : Ir.ValueData}
    (known : b.function.value? value = some data) (unnamed : data.name = none) (name : String) :
    ({ b with
      function := b.function.rename value (b.valueNames.choose name)
      valueNames := (b.valueNames.fresh name).2 } : Builder).Counted where
  labels := counted.labels
  names := by
    obtain ⟨inside, here⟩ := List.getElem?_eq_some_iff.1 known
    have bound : value.index < b.function.valueNames.length := by
      rw [Function.valueNames, List.length_map]
      exact inside
    have before : b.function.valueNames[value.index] = none := by
      rw [← unnamed, ← here]
      exact List.getElem_map _
    rw [Function.valueNames_rename, NameSupply.fresh_used, List.length_cons,
      List.countP_set bound, before]
    exact Nat.succ_le_succ counted.names

end Counted

end Ir.Builder

namespace Checked

variable {α β : Type} {s : BodyState}

/-! ## Instructions -/

/-- A question comes before all changes, and where it is refused so is the operation. -/
theorem ask_bind {question : Builder → Except BuildError α} {f : α → Checked BodyState β}
    {operation : Builder → Except BuildError (β × Builder)}
    (rest : α → Except BuildError (β × Builder))
    (asks : operation s.builder = question s.builder >>= rest)
    (goes : ∀ a, question s.builder = .ok a →
      f a s = plain (LowerBody.emit fun _ => rest a) s) :
    (ask question >>= f) s = plain (LowerBody.emit operation) s := by
  rw [bind_run, ask, plain, LowerBody.ask_run, plain, LowerBody.emit_run, asks]
  cases answered : question s.builder with
  | error cause => rfl
  | ok a => exact (goes a answered).trans (by rw [plain, LowerBody.emit_run]; rfl)

theorem changeBlock_run (s : BodyState) {block : BlockId}
    (there : (s.builder.function.block? block).isSome) (change : BasicBlock → BasicBlock) :
    changeBlock block change s = .ok () (s.rebuilt (s.builder.modifyBlock block change)) := by
  rw [changeBlock, bind_run, get_run]
  show (if (s.builder.function.block? block).isSome then _ else _ : Checked BodyState Unit) s = _
  rw [if_pos there]
  rfl

theorem emit_eq (action : Action) (signature : Option FunctionTy) (s : BodyState) :
    emit action signature s = plain (LowerBody.emit (·.emit action signature)) s := by
  refine ask_bind _ rfl fun block selected => ?_
  obtain ⟨-, data, known, -⟩ := Builder.openBlock_ok.1 selected
  have there : (s.builder.function.block? block).isSome := Option.isSome_of_mem known
  refine ask_bind _ rfl fun ty _ => ?_
  cases ty with
  | none =>
    show (changeBlock block (·.append ⟨none, action⟩) >>= fun _ => pure none) s = _
    rw [bind_run, changeBlock_run s there]
    rfl
  | some ty =>
    show (changeBlock block (·.append ⟨some (s.builder.newValue ty block).1, action⟩) >>=
      fun _ => pure _) (s.rebuilt (s.builder.newValue ty block).2) = _
    rw [bind_run, changeBlock_run (s.rebuilt (s.builder.newValue ty block).2) there]
    rfl

theorem emitValue_eq {action : Action}
    (valued : ∀ f : Function, f.checkAction none action ≠ .ok none) (s : BodyState) :
    emitValue action s = plain (LowerBody.emit (·.emitValue action)) s := by
  have same := Ir.Construction.emitValue_eq s.builder valued
  rw [emitValue, bind_run, emit_eq, plain, LowerBody.emit_run, plain, LowerBody.emit_run, ← same]
  cases s.builder.emitValue action <;> rfl

theorem store_eq (value ptr : Operand) (s : BodyState) :
    store value ptr s = plain (LowerBody.emit_ (·.store value ptr)) s := by
  rw [store, plain, LowerBody.emitUnit_run, Builder.store]
  show EStateM.map _ (emit (.store value ptr) none) s = _
  rw [EStateM.map, emit_eq, plain, LowerBody.emit_run]
  cases s.builder.emit (.store value ptr) none <;> rfl

theorem terminate_eq (terminator : Terminator) (s : BodyState) :
    terminate terminator s = plain (LowerBody.emit_ (·.terminate terminator)) s := by
  refine ask_bind (fun block => do
    s.builder.function.checkTerminator terminator
    return ((), s.builder.modifyBlock block fun data =>
      { data with terminator := some terminator })) ?_ fun block selected => ?_
  · show (s.builder.terminate terminator >>= fun b => pure ((), b)) = _
    simp only [Builder.terminate, bind_assoc, pure_bind]
  obtain ⟨-, data, known, -⟩ := Builder.openBlock_ok.1 selected
  refine ask_bind _ rfl fun _ _ => ?_
  rw [changeBlock_run s (Option.isSome_of_mem known)]
  rfl

/-! ## Blocks and names -/

theorem appendBlock_eq (counted : s.builder.Counted) (name : String) :
    appendBlock name s = plain (LowerBody.appendBlock name) s := by
  have room : s.builder.blockNames.used.length < s.builder.function.blocks.length + 1 := by
    have labels := counted.labels
    rw [Function.labels, List.length_map] at labels
    omega
  rw [appendBlock, bind_run, get_run]
  dsimp only
  rw [Ir.NameSupply.freshBelow_eq name room]
  rfl

/-- While a value has no name, there are fewer names in use than values. -/
theorem room_of_unnamed (counted : s.builder.Counted) {value : ValueId} {data : Ir.ValueData}
    (known : s.builder.function.value? value = some data) (unnamed : data.name = none) :
    s.builder.valueNames.used.length < s.builder.function.values.length := by
  have fewer : s.builder.function.valueNames.countP (·.isSome) <
      s.builder.function.valueNames.length := by
    rw [List.countP_lt_length_iff]
    refine ⟨data.name, List.mem_map_of_mem (List.mem_of_getElem? known), ?_⟩
    rw [unnamed]
    rfl
  rw [Function.valueNames, List.length_map] at fewer
  exact counted.names.trans_lt fewer

theorem nameValue_eq (counted : s.builder.Counted) (value : ValueId) (name : String) :
    nameValue value name s = plain (LowerBody.emit (·.nameValue value name)) s := by
  rw [nameValue, bind_run, get_run, plain, LowerBody.emit_run, Builder.nameValue]
  dsimp only
  cases known : s.builder.function.value? value with
  | none => rfl
  | some data =>
    dsimp only
    cases unnamed : data.name with
    | some old => rfl
    | none =>
      rw [Ir.NameSupply.freshBelow_eq name (room_of_unnamed counted known unnamed)]
      rfl

theorem alloca_eq (counted : s.builder.Counted) (ty : Ty) (name : String) :
    alloca ty name s = plain (LowerBody.emit (·.alloca ty name)) s := by
  rw [alloca, bind_run, get_run]
  dsimp only
  cases started : s.builder.entry? with
  | none =>
    rw [plain, LowerBody.emit_run, Builder.alloca, started]
    rfl
  | some entry =>
    -- the builder with the new value, which takes the name; the blocks are the same
    obtain ⟨b, named, blocks⟩ : ∃ b, (s.builder.newValue .ptr entry).2.nameValue
        (s.builder.newValue .ptr entry).1 name = .ok (true, b) ∧
          b.function.blocks = s.builder.function.blocks :=
      ⟨_, Builder.nameValue_newValue s.builder .ptr entry name, rfl⟩
    have there : (b.function.block? entry).isSome := by
      obtain ⟨rfl, begun⟩ := Function.entry?_eq_some.1 started
      rw [Function.block?, isSome_getElem?, blocks]
      exact List.length_pos_iff.2 begun
    have run := nameValue_eq (s := s.rebuilt (s.builder.newValue .ptr entry).2)
      (counted.newValue .ptr entry) (s.builder.newValue .ptr entry).1 name
    rw [plain, LowerBody.emit_run, BodyState.rebuilt, named] at run
    refine ask_bind (fun _ => .ok ((s.builder.newValue .ptr entry).1, b.modifyBlock entry
      (·.insertSlot ⟨some (s.builder.newValue .ptr entry).1, .alloca ty⟩))) ?_ fun _ _ => ?_
    · rw [Builder.alloca, started]
      show (discard (s.builder.function.checkAction none (.alloca ty)) >>= fun _ =>
        (s.builder.newValue .ptr entry).2.nameValue (s.builder.newValue .ptr entry).1 name >>=
          _) = _
      rw [named]
      cases s.builder.function.checkAction none (.alloca ty) <;> rfl
    · show (nameValue (s.builder.newValue .ptr entry).1 name >>= _)
        (s.rebuilt (s.builder.newValue .ptr entry).2) = _
      rw [bind_run, BodyState.rebuilt, run]
      show (changeBlock entry _ >>= _) (s.rebuilt b) = _
      rw [bind_run, changeBlock_run (s.rebuilt b) there]
      rfl

end Checked

end SsaLowering
