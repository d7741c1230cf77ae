/-
# SsaLowering.Proofs.Lower.Invariant -- what holds while a body is lowered

A `BodyState` is `Sound` when its function keeps the invariant of functions under
construction and every binding in its scopes is `Valid`: a value of the function,
a slot of it, a known function or a named scope.  From a sound state the names of
the typing judgement can be read off (`BodyState.names`).

Lowering an expression only adds constant data and instructions at the end of the
current block (`BodyState.Emits`), and all of this keeps a state sound.
-/
import SsaLowering.Proofs.Ir.Progress
import SsaLowering.Proofs.Lower.Steps
import SsaLowering.Proofs.Scope
import SsaLowering.Proofs.Typing

namespace SsaLowering

set_option autoImplicit false

open Ir (Ty Module Function Builder ValueId BlockId Operand Action Global BasicBlock)

/-! ## Bindings -/

/-- What an operand stands for. -/
def operandKind? (m : Module) (f : Function) : Operand → Option ValueKind
  | .value id => (f.value? id).map fun data => .immutable data.ty
  | .constant c => some (.immutable c.ty)
  | .function id => (m.signature? id).map .function

namespace BoundValue

/-- What a name stands for under this binding, when it can be read. -/
def valueKind? (m : Module) (f : Function) : BoundValue → Option ValueKind
  | direct operand => operandKind? m f operand
  | slot home => some (.mutable home.ty)
  | namespace_ _ => none

/-- What a name stands for under this binding. -/
def nameKind? (m : Module) (t : ScopeTable) (f : Function) : BoundValue → Option NameKind
  | namespace_ inner =>
    some (.namespace_ fun x => (t.lookupIn inner x).bind (valueKind? m f))
  | bound => (bound.valueKind? m f).map .value

/-- The value behind a binding, which is the address for a slot. -/
def value? : BoundValue → Option ValueId
  | direct operand => operand.value?
  | slot home => some home.ptr
  | namespace_ _ => none

/-- The binding is one that lowering can use. -/
def Valid (m : Module) (t : ScopeTable) (f : Function) : BoundValue → Prop
  | direct (.value id) => (f.value? id).isSome
  | direct (.constant _) => True
  | direct (.function id) => (m.signature? id).isSome
  | slot home =>
    f.slotTy? (.value home.ptr) = some home.ty ∧ home.ty.isSized ∧
      f.operandTy (.value home.ptr) = .ok .ptr
  | namespace_ inner => (t.name? inner).isSome

end BoundValue

/-- An operand has the type of what it stands for. -/
theorem operandTy_of_kind {m : Module} {f : Function} {operand : Operand} {kind : ValueKind}
    (known : operandKind? m f operand = some kind) : f.operandTy operand = .ok kind.ty := by
  cases operand with
  | value id =>
    obtain ⟨data, present, rfl⟩ := Option.map_eq_some_iff.1 known
    exact Function.operandTy_value_ok.2 ⟨data, present, rfl⟩
  | constant c =>
    cases known
    rfl
  | function id =>
    obtain ⟨signature, -, rfl⟩ := Option.map_eq_some_iff.1 known
    rfl

theorem operandKind_read {m : Module} {f : Function} {operand : Operand} {kind : ValueKind}
    (known : operandKind? m f operand = some kind) : kind.read = kind := by
  cases operand with
  | value id =>
    obtain ⟨data, -, rfl⟩ := Option.map_eq_some_iff.1 known
    rfl
  | constant c =>
    cases known
    rfl
  | function id =>
    obtain ⟨signature, -, rfl⟩ := Option.map_eq_some_iff.1 known
    rfl

/-! ## Bindings while the state grows -/

section Growth

variable {m m' : Module} {t t' : ScopeTable} {f f' : Function}

theorem operandKind?_mono (functions : m'.functions = m.functions) (grown : f.Extends f')
    {operand : Operand} {kind : ValueKind} (known : operandKind? m f operand = some kind) :
    operandKind? m' f' operand = some kind := by
  cases operand with
  | function id =>
    rwa [operandKind?, Module.signature?, Module.function?, functions]
  | value id =>
    obtain ⟨data, present, rfl⟩ := Option.map_eq_some_iff.1 known
    obtain ⟨name, present⟩ := grown.values id data present
    exact Option.map_eq_some_iff.2 ⟨_, present, rfl⟩
  | constant c => exact known

namespace BoundValue

theorem Valid.mono {bound : BoundValue} (valid : bound.Valid m t f)
    (functions : m'.functions = m.functions) (grown : f.Extends f')
    (names : ∀ scope, (t.name? scope).isSome → (t'.name? scope).isSome) :
    bound.Valid m' t' f' := by
  cases bound with
  | direct operand =>
    cases operand with
    | value id =>
      obtain ⟨data, known⟩ := Option.isSome_iff_exists.1 valid
      obtain ⟨name, known⟩ := grown.values id data known
      exact Option.isSome_iff_exists.2 ⟨_, known⟩
    | constant c => trivial
    | function id =>
      show (m'.signature? id).isSome
      rwa [Module.signature?, Module.function?, functions]
  | slot home =>
    obtain ⟨holds, sized, address⟩ := valid
    refine ⟨?_, sized, Function.operandTy_mono grown address⟩
    rw [Function.slotTy?_mono grown address, holds]
  | namespace_ inner => exact names inner valid

/-- The value behind a valid binding is in the table. -/
theorem Valid.known {bound : BoundValue} (valid : bound.Valid m t f) {id : ValueId}
    (named : bound.value? = some id) : id.index < f.values.length := by
  cases bound with
  | direct operand =>
    cases operand with
    | value id' =>
      cases named
      obtain ⟨data, known⟩ := Option.isSome_iff_exists.1 valid
      exact Function.value?_lt known
    | constant c => cases named
    | function id' => cases named
  | slot home =>
    cases named
    obtain ⟨data, known, -⟩ := Function.operandTy_value_ok.1 valid.2.2
    exact Function.value?_lt known
  | namespace_ inner => cases named

/-- A valid binding that can be read stands for something. -/
theorem Valid.valueKind?_mono {bound : BoundValue} (valid : bound.Valid m t f)
    (functions : m'.functions = m.functions) (grown : f.Extends f') :
    bound.valueKind? m' f' = bound.valueKind? m f := by
  cases bound with
  | direct operand =>
    cases operand with
    | value id =>
      obtain ⟨data, known⟩ := Option.isSome_iff_exists.1 valid
      have before : operandKind? m f (.value id) = some (.immutable data.ty) := by
        simp [operandKind?, known]
      exact (operandKind?_mono functions grown before).trans before.symm
    | constant c => rfl
    | function id =>
      show (m'.signature? id).map _ = (m.signature? id).map _
      rw [Module.signature?, Module.function?, functions]
      rfl
  | slot home => rfl
  | namespace_ inner => rfl

end BoundValue

end Growth

/-! ## Sound states -/

namespace BodyState

/-- What every state of a run inside a function body satisfies. -/
structure Sound (s : BodyState) : Prop where
  function : s.builder.function.WellFormed s.context.module
  ordered : s.context.scopes.Ordered
  valid : ∀ scope x bound, s.context.scopes.lookupIn scope x = some bound →
    bound.Valid s.context.module s.context.scopes s.builder.function

def nameKind? (s : BodyState) (bound : BoundValue) : Option NameKind :=
  bound.nameKind? s.context.module s.context.scopes s.builder.function

/-- What the names visible in a scope stand for. -/
def names (s : BodyState) (scope : ScopeId) : Names := fun x =>
  (s.context.scopes.resolve scope x).bind s.nameKind?

variable {s t : BodyState} {scope : ScopeId}

/-- Bindings that are the same in a later state stand for the same. -/
theorem nameKind?_eq (sound : s.Sound)
    (functions : t.context.module.functions = s.context.module.functions)
    (grown : s.builder.function.Extends t.builder.function)
    (members : ∀ inner, (s.context.scopes.name? inner).isSome →
      ∀ x, t.context.scopes.lookupIn inner x = s.context.scopes.lookupIn inner x)
    {x : Symbol} {bound : BoundValue} (here : s.context.scopes.lookupIn scope x = some bound) :
    t.nameKind? bound = s.nameKind? bound := by
  have valid := sound.valid scope x bound here
  cases bound with
  | direct operand =>
    exact congrArg (Option.map NameKind.value) (valid.valueKind?_mono functions grown)
  | slot home => rfl
  | namespace_ inner =>
    refine congrArg (fun members => some (NameKind.namespace_ members)) (funext fun y => ?_)
    rw [members inner valid y]
    cases found : s.context.scopes.lookupIn inner y with
    | none => rfl
    | some member => exact (sound.valid inner y member found).valueKind?_mono functions grown

/-- The same bindings along the chain give the same names. -/
theorem names_eq (sound : s.Sound)
    (functions : t.context.module.functions = s.context.module.functions)
    (grown : s.builder.function.Extends t.builder.function)
    (members : ∀ inner, (s.context.scopes.name? inner).isSome →
      ∀ x, t.context.scopes.lookupIn inner x = s.context.scopes.lookupIn inner x)
    {scope' : ScopeId}
    (same : ∀ x, t.context.scopes.resolve scope' x = s.context.scopes.resolve scope x) :
    t.names scope' = s.names scope := by
  funext x
  rw [names, names, same x]
  cases found : s.context.scopes.resolve scope x with
  | none => rfl
  | some bound =>
    obtain ⟨e, -, here⟩ := ScopeTable.lookupIn_of_resolve found
    exact nameKind?_eq sound functions grown members here

/-! ## Emissions at the end of the current block -/

/-- The value is bound to a name in some scope. -/
def Bound (s : BodyState) (id : ValueId) : Prop :=
  ∃ scope x bound, s.context.scopes.lookupIn scope x = some bound ∧ bound.value? = some id

/-- The value can be read at the end of the current block. -/
def Usable (s : BodyState) (id : ValueId) : Prop := s.builder.Usable s.Bound id

/-- Constant data and instructions at the end of the current block were added. -/
structure Emits (s t : BodyState) : Prop where
  context : ∃ more : List Global, t.context =
    { s.context with
      module := { s.context.module with globals := s.context.module.globals ++ more } }
  builder : s.builder.Emits s.context.module s.Bound t.builder

theorem Emits.refl (s : BodyState) : s.Emits s where
  context := ⟨[], by simp⟩
  builder := .refl

theorem Emits.scopes (emits : s.Emits t) : t.context.scopes = s.context.scopes := by
  obtain ⟨⟨more, same⟩, -⟩ := emits
  rw [same]

theorem Emits.functions (emits : s.Emits t) :
    t.context.module.functions = s.context.module.functions := by
  obtain ⟨⟨more, same⟩, -⟩ := emits
  rw [same]

theorem Emits.bound (emits : s.Emits t) : t.Bound = s.Bound := by
  funext id
  rw [Bound, Bound, emits.scopes]

theorem Emits.trans {u : BodyState} (first : s.Emits t) (second : t.Emits u) : s.Emits u where
  context := by
    obtain ⟨more, same⟩ := first.context
    obtain ⟨more', same'⟩ := second.context
    exact ⟨more ++ more', by rw [same', same]; simp⟩
  builder := first.builder.trans (second.builder.congr
    (Ir.Function.signatureFor_congr first.functions.symm) fun id given => first.bound ▸ given)

/-- A state in which an expression can be lowered in a scope. -/
structure Ready (s : BodyState) (scope : ScopeId) : Prop where
  sound : s.Sound
  selected : ∃ block, s.builder.Open block
  inside : s.context.scopes.contains scope

theorem Emits.sound (emits : s.Emits t) (sound : s.Sound) : t.Sound where
  function := by
    refine (emits.builder.wellFormed sound.function).congr ?_
    exact Ir.Function.signatureFor_congr emits.functions
  ordered := emits.scopes ▸ sound.ordered
  valid := fun scope x bound here => by
    rw [emits.scopes] at here ⊢
    exact (sound.valid scope x bound here).mono emits.functions emits.builder.function
      fun _ named => named

theorem Emits.ready (emits : s.Emits t) (ready : s.Ready scope) : t.Ready scope where
  sound := emits.sound ready.sound
  selected := by
    obtain ⟨block, selected⟩ := ready.selected
    exact ⟨block, emits.builder.open selected⟩
  inside := emits.scopes ▸ ready.inside

theorem Emits.names (emits : s.Emits t) (sound : s.Sound) (scope : ScopeId) :
    t.names scope = s.names scope := by
  refine names_eq sound emits.functions emits.builder.function (fun inner _ x => ?_) fun x => ?_
  · rw [emits.scopes]
  · rw [emits.scopes]

/-! ## What values stand for -/

/-- The value of an expression stands for `kind` and can be used. -/
structure Stands (s : BodyState) (bound : BoundValue) (kind : ValueKind) : Prop where
  kind : bound.valueKind? s.context.module s.builder.function = some kind
  valid : bound.Valid s.context.module s.context.scopes s.builder.function
  usable : ∀ id, bound.value? = some id → s.Usable id

theorem Stands.emits {bound : BoundValue} {kind : ValueKind} (stands : s.Stands bound kind)
    (emits : s.Emits t) : t.Stands bound kind where
  kind := by
    rw [stands.valid.valueKind?_mono emits.functions emits.builder.function]
    exact stands.kind
  valid := stands.valid.mono emits.functions emits.builder.function
    fun scope named => emits.scopes ▸ named
  usable := fun id named => by
    rw [Usable, emits.bound]
    exact (stands.usable id named).advances (stands.valid.known named) emits.builder.current
      emits.builder.function

/-- What a name is bound to stands for what the name stands for. -/
theorem Sound.stands (sound : s.Sound) {x : Symbol} {bound : BoundValue}
    (here : s.context.scopes.lookupIn scope x = some bound) {kind : ValueKind}
    (known : bound.valueKind? s.context.module s.builder.function = some kind) :
    s.Stands bound kind where
  kind := known
  valid := sound.valid scope x bound here
  usable := fun _ named => Or.inl ⟨scope, x, bound, here, named⟩

end BodyState

end SsaLowering
