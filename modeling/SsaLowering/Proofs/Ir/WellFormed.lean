/-
# SsaLowering.Proofs.Ir.WellFormed -- the invariant of a function under construction

`Function.WellFormed m f` holds of a declaration (`wellFormed_declare`) and is
kept by all five changes of `Emission`: every entry of the value table is a
parameter or the result of exactly one instruction, in the block the entry
records; the entry has the type that the typing rule gives; every instruction
and terminator satisfies its rule under the signatures of `m`; and the slots are
the first instructions of the entry block.  All but the types of instructions is
the layout of the function, which needs no module.
-/
import SsaLowering.Proofs.Ir.Layout

namespace SsaLowering.Ir

set_option autoImplicit false

namespace Function

/-- The invariant of functions under construction, with respect to the signatures of `m`. -/
structure WellFormed (m : Module) (f : Function) : Prop where
  params : f.params = (List.range f.ty.params.length).map ValueId.mk
  paramValue : ∀ i ty, f.ty.params[i]? = some ty →
    ∃ name, f.value? ⟨i⟩ = some ⟨name, ty, .param i⟩
  paramOrigin : ∀ id data i, f.value? id = some data → data.origin = .param i →
    id = ⟨i⟩ ∧ i < f.ty.params.length
  defined : ∀ id data block, f.value? id = some data → data.origin = .inst block →
    ∃ inst, f.Has block inst ∧ inst.result = some id
  unique : f.resultIds.Nodup
  typed : ∀ block inst, f.Has block inst →
    ∃ ty, f.checkAction (signatureFor m inst.action) inst.action = .ok ty ∧
      ((inst.result = none ∧ ty = none) ∨
        ∃ id name t, inst.result = some id ∧ ty = some t ∧
          f.value? id = some ⟨name, t, .inst block⟩)
  terminated : ∀ block data t, f.block? block = some data → data.terminator = some t →
    f.checkTerminator t = .ok ()
  slotsFirst : ∀ block data, f.block? block = some data →
    ∃ slots, data.instructions = slots ++ data.code ∧ (∀ inst ∈ slots, inst.action.isAlloca) ∧
      (block ≠ ⟨0⟩ → slots = [])

variable {m : Module} {f : Function}

/-- The type of an instruction under the signatures of `m`, and its result. -/
def TypedIn (m : Module) (f : Function) (block : BlockId) (inst : Instruction) : Prop :=
  ∃ ty, f.checkAction (signatureFor m inst.action) inst.action = .ok ty ∧
    ((inst.result = none ∧ ty = none) ∨
      ∃ id name t, inst.result = some id ∧ ty = some t ∧
        f.value? id = some ⟨name, t, .inst block⟩)

theorem TypedIn.result_known {block : BlockId} {inst : Instruction} {id : ValueId}
    (typed : f.TypedIn m block inst) (result : inst.result = some id) :
    ∃ name t, f.value? id = some ⟨name, t, .inst block⟩ := by
  obtain ⟨ty, -, ⟨absent, -⟩ | ⟨id', name, t, same, -, known⟩⟩ := typed
  · rw [result] at absent
    cases absent
  · cases result.symm.trans same
    exact ⟨name, t, known⟩

theorem WellFormed.layout (ok : f.WellFormed m) : f.Layout :=
  { ok with result_known := fun block inst _ has => TypedIn.result_known (ok.typed block inst has) }

theorem Layout.wellFormed (laid : f.Layout)
    (typed : ∀ block inst, f.Has block inst → f.TypedIn m block inst) : f.WellFormed m :=
  { laid with typed }

theorem signatureFor_congr {m' : Module} (functions : m'.functions = m.functions) :
    signatureFor m' = signatureFor m := by
  funext action
  cases action <;> simp only [signatureFor, Module.signature?, Module.function?, functions]

/-- Of the module only the signatures count. -/
theorem WellFormed.congr {m' : Module} (ok : f.WellFormed m)
    (same : signatureFor m' = signatureFor m) : f.WellFormed m' :=
  { ok with typed := fun block inst has => same ▸ ok.typed block inst has }

theorem WellFormed.result_known (ok : f.WellFormed m) {block : BlockId} {inst : Instruction}
    {id : ValueId} (has : f.Has block inst) (result : inst.result = some id) :
    ∃ name t, f.value? id = some ⟨name, t, .inst block⟩ :=
  ok.layout.result_known block inst id has result

theorem WellFormed.result_lt (ok : f.WellFormed m) {block : BlockId} {inst : Instruction}
    {id : ValueId} (has : f.Has block inst) (result : inst.result = some id) :
    id.index < f.values.length :=
  ok.layout.result_lt has result

theorem wellFormed_declare (m : Module) (name : String) (ty : FunctionTy) :
    (declare name ty).WellFormed m :=
  (layout_declare name ty).wellFormed fun _ _ has => absurd has not_has_declare

/-! ## Every change keeps the invariant -/

/-- Instructions that are there stay well-typed. -/
theorem WellFormed.typed_mono {g : Function} (ok : f.WellFormed m) (grown : f.Extends g)
    {block : BlockId} {inst : Instruction} (has : f.Has block inst) :
    g.TypedIn m block inst := by
  obtain ⟨ty, checked, result⟩ := ok.typed block inst has
  refine ⟨ty, checkAction_mono grown checked, result.imp_right ?_⟩
  rintro ⟨id, name, t, same, typed, known⟩
  obtain ⟨name', known⟩ := grown.values id _ known
  exact ⟨id, name', t, same, typed, known⟩

theorem wellFormed_push (ok : f.WellFormed m) {block : BlockId} {data : BasicBlock}
    (known : f.block? block = some data) (unended : data.terminator = none) {action : Action}
    (effect : action.isAlloca = false) {ty : Option Ty}
    (checked : f.checkAction (signatureFor m action) action = .ok ty) :
    (f.push block action ty).WellFormed m := by
  refine (layout_push ok.layout known unended effect ty).wellFormed fun id inst has => ?_
  have grown := extends_push known unended action ty
  rcases (has_push known).1 has with old | ⟨rfl, rfl⟩
  · exact ok.typed_mono grown old
  · refine ⟨ty, checkAction_mono grown checked, ?_⟩
    cases ty with
    | none => exact Or.inl ⟨rfl, rfl⟩
    | some t => exact Or.inr ⟨_, none, t, rfl, rfl, by simp [value?, push]⟩

theorem wellFormed_close (ok : f.WellFormed m) {block : BlockId} {data : BasicBlock}
    (known : f.block? block = some data) (unended : data.terminator = none)
    {terminator : Terminator} (checked : f.checkTerminator terminator = .ok ()) :
    (f.close block terminator).WellFormed m :=
  (layout_close ok.layout known unended checked).wellFormed fun _ _ has =>
    ok.typed_mono (extends_close known unended terminator) (has_close.1 has)

theorem wellFormed_reserve (ok : f.WellFormed m) {entry : BasicBlock}
    (known : f.block? ⟨0⟩ = some entry) {ty : Ty} (sized : ty.isSized) (name : String) :
    (f.reserve ty name).WellFormed m := by
  refine (layout_reserve ok.layout known ty name).wellFormed fun id inst has => ?_
  rcases (has_reserve known).1 has with old | ⟨rfl, rfl⟩
  · exact ok.typed_mono (extends_reserve f ty name) old
  · exact ⟨some .ptr, checkAction_alloca_ok.2 ⟨sized, rfl⟩, Or.inr ⟨_, some name, .ptr, rfl,
      rfl, by simp [value?, reserve]⟩⟩

theorem WellFormed.slotTy?_reserve (ok : f.WellFormed m) {entry : BasicBlock}
    (known : f.block? ⟨0⟩ = some entry) (ty : Ty) (name : String) :
    (f.reserve ty name).slotTy? (.value ⟨f.values.length⟩) = some ty :=
  ok.layout.slotTy?_reserve known ty name

theorem wellFormed_rename (ok : f.WellFormed m) (value : ValueId) (name : String) :
    (f.rename value name).WellFormed m :=
  (layout_rename ok.layout value name).wellFormed fun _ _ has =>
    ok.typed_mono (extends_rename f value name) has

theorem wellFormed_addBlock (ok : f.WellFormed m) (label : String) :
    (f.addBlock label).WellFormed m :=
  (layout_addBlock ok.layout label).wellFormed fun _ _ has =>
    ok.typed_mono (extends_addBlock f label) (has_addBlock.1 has)

end Function

end SsaLowering.Ir
