/-
# SsaLowering.Proofs.Lower.Expression -- expressions are lowered exactly when they are typed

From a state in which code can be emitted, `lowerExpr` ends as `Expr.typing`
foretells (`lowerExpr_foretold`): a typed expression gives a value that stands for
what the judgement says, any other is refused, and either way only constant data
and instructions at the end of the current block were added.
-/
import SsaLowering.Lower.Expression
import SsaLowering.Proofs.Lower.Invariant

namespace SsaLowering

set_option autoImplicit false

open Ir (Ty FunctionTy Function Builder ValueId Operand Action)

/-! ## The progress of expressions -/

/-- An error of the source, and not of the module, the builder or the verifier. -/
def LowerError.ofSource : LowerError → Bool
  | build _ | verification _ => false
  | _ => true

/-- A refused expression has added constant data at most. -/
def expressionProgress : Progress LowerError BodyState where
  Done := BodyState.Emits
  Failed := fun s t => ∃ more, t.context =
    { s.context with
      module := { s.context.module with globals := s.context.module.globals ++ more } }
  Reason := fun cause => cause.ofSource = true
  trans := BodyState.Emits.trans
  after := fun emits failed => by
    obtain ⟨more, same⟩ := emits.context
    obtain ⟨more', same'⟩ := failed
    exact ⟨more ++ more', by rw [same', same]; simp⟩

/-- The outcome of a step in an expression is foretold. -/
abbrev Expected {κ α : Type} (s : BodyState) (spec : Option κ) (good : κ → α → BodyState → Prop)
    (r : EStateM.Result (Failure LowerError) BodyState α) : Prop :=
  Foretold expressionProgress s spec good r

/-- The value of an expression as a binding would hold it. -/
def ExprValue.bound : ExprValue → BoundValue
  | direct operand => .direct operand
  | slot home => .slot home

variable {s t : BodyState} {scope : ScopeId}

section Rules

variable {κ α : Type} {good : κ → α → BodyState → Prop}

theorem expected_pure {k : κ} {a : α} (holds : good k a s) :
    Expected s (some k) good ((pure a : LowerBody α) s) :=
  Foretold.ok (.refl s) holds

theorem expected_refuse (cause : LowerError) (reason : cause.ofSource = true) :
    Expected s none good ((LowerBody.refuse cause : LowerBody α) s) :=
  Foretold.refused reason ⟨[], by simp⟩

end Rules

/-! ## Emissions -/

/-- The state after an instruction at the end of a block. -/
def BodyState.push (s : BodyState) (block : Ir.BlockId) (action : Action) (ty : Option Ty) :
    BodyState :=
  { s with builder := { s.builder with function := s.builder.function.push block action ty } }

/-- An instruction that the typing rule accepts and that reads usable values. -/
structure BodyState.Accepts (s : BodyState) (action : Action) (ty : Option Ty) : Prop where
  effect : action.isAlloca = false
  checked : s.builder.function.checkAction (Function.signatureFor s.context.module action)
    action = .ok ty
  usable : ∀ id, .value id ∈ action.operands → s.Usable id

theorem BodyState.emits_push {block : Ir.BlockId} (selected : s.builder.Open block)
    {action : Action} {ty : Option Ty} (accepts : s.Accepts action ty) :
    s.Emits (s.push block action ty) where
  context := ⟨[], by simp [BodyState.push]⟩
  builder := .push .refl selected accepts.effect accepts.checked accepts.usable

/-- A new value can be used and has the type of its instruction. -/
theorem BodyState.stands_push {block : Ir.BlockId} (selected : s.builder.Open block)
    {action : Action} {ty : Ty} (effect : action.isAlloca = false) :
    (s.push block action (some ty)).Stands
      (.direct (.value ⟨s.builder.function.values.length⟩)) (.immutable ty) := by
  have known : (s.builder.function.push block action (some ty)).value?
      ⟨s.builder.function.values.length⟩ = some ⟨none, ty, .inst block⟩ := by
    simp [Function.value?, Function.push]
  refine ⟨?_, ?_, ?_⟩
  · exact Option.map_eq_some_iff.2 ⟨_, known, rfl⟩
  · exact Option.isSome_iff_exists.2 ⟨_, known⟩
  · rintro id ⟨rfl⟩
    obtain ⟨current, data, present, -⟩ := selected
    let new : Ir.Instruction := ⟨some ⟨s.builder.function.values.length⟩, action⟩
    refine Or.inr (Or.inr ⟨block, data.append new, new, current, ?_, ?_, rfl⟩)
    · show (s.builder.function.push block action (some ty)).block? block = _
      rw [Function.block?_push, present, Option.map_some, if_pos rfl]
      rfl
    · have code : (data.append new).code = data.code ++ [new] := by
        rw [Ir.BasicBlock.code_append, effect]
        rfl
      rw [code]
      exact List.mem_append_right _ (List.mem_singleton.2 rfl)

theorem emitValue_expected (ready : s.Ready scope) {action : Action} {ty : Ty}
    (accepts : s.Accepts action (some ty))
    (plain : Function.signatureFor s.context.module action = none) :
    Expected s (some (ValueKind.immutable ty))
      (fun kind value t => t.Stands (.direct (.value value)) kind)
      (LowerBody.emit (·.emitValue action) s) := by
  obtain ⟨block, selected⟩ := ready.selected
  have emitted : s.builder.emitValue action =
      .ok (⟨s.builder.function.values.length⟩, (s.push block action (some ty)).builder) :=
    Builder.emitValue_ok.2 ⟨block, ty, selected, plain ▸ accepts.checked, rfl, rfl⟩
  rw [LowerBody.emit_run, emitted]
  exact Foretold.ok (s.emits_push selected accepts) (s.stands_push selected accepts.effect)

/-- Reading a value always succeeds; a variable is loaded. -/
theorem read_expected (ready : s.Ready scope) {value : ExprValue} {kind : ValueKind}
    (stands : s.Stands value.bound kind) :
    Expected s (some kind.read) (fun kind operand t => t.Stands (.direct operand) kind)
      (value.read s) := by
  cases value with
  | direct operand =>
    rw [operandKind_read stands.kind]
    exact expected_pure stands
  | slot home =>
    obtain ⟨holds, sized, address⟩ := stands.valid
    cases stands.kind
    have accepts : s.Accepts (.load home.ty (.value home.ptr)) (some home.ty) := by
      refine ⟨rfl, ?_, ?_⟩
      · have slot : s.builder.function.expectSlot (.value home.ptr) home.ty "load" = .ok () := by
          rw [Function.expectSlot, holds]
          exact if_pos rfl
        simp only [Function.checkAction, except_seq_ok]
        exact ⟨Function.expectSized_ok.2 sized, Function.expectTy_ok.2 address, slot, rfl⟩
      · intro id read
        cases List.mem_singleton.1 read
        exact stands.usable home.ptr rfl
    show Expected s ((some (ValueKind.immutable home.ty)).bind fun kind => some kind) _ _
    refine Foretold.bind (emitValue_expected ready accepts rfl) fun kind value t _ holds => ?_
    exact expected_pure holds

/-- The type of an operand is that of what it stands for. -/
theorem operandTy_run {operand : Operand} {kind : ValueKind}
    (stands : s.Stands (.direct operand) kind) :
    LowerBody.operandTy operand s = .ok kind.ty s := by
  rw [LowerBody.operandTy, LowerBody.ask_run, operandTy_of_kind stands.kind]

/-! ## Names and literals -/

/-- The outcome of an expression: a value that stands for what the judgement says. -/
abbrev Denotes (kind : ValueKind) (value : ExprValue) (t : BodyState) : Prop :=
  t.Stands value.bound kind

theorem toExprValue_expected (ready : s.Ready scope) {home : ScopeId} {x : Symbol}
    {bound : BoundValue} (here : s.context.scopes.lookupIn home x = some bound) (name : String)
    (span : FileSpan) :
    Expected s (bound.valueKind? s.context.module s.builder.function) Denotes
      (bound.toExprValue name span s) := by
  have valid := ready.sound.valid home x bound here
  cases known : bound.valueKind? s.context.module s.builder.function with
  | none =>
    cases bound with
    | direct operand =>
      cases operand with
      | value id =>
        obtain ⟨data, present⟩ := Option.isSome_iff_exists.1 valid
        simp [BoundValue.valueKind?, operandKind?, present] at known
      | constant c => cases known
      | function id =>
        obtain ⟨signature, present⟩ := Option.isSome_iff_exists.1 valid
        simp [BoundValue.valueKind?, operandKind?, present] at known
    | slot home => cases known
    | namespace_ inner => exact expected_refuse _ rfl
  | some kind =>
    have stands := ready.sound.stands here known
    cases bound with
    | direct operand => exact expected_pure stands
    | slot home => exact expected_pure stands
    | namespace_ inner => cases known

theorem names_value? (s : BodyState) (scope : ScopeId) (name : Symbol) :
    (s.names scope).value? name =
      (s.context.scopes.resolve scope name).bind
        (·.valueKind? s.context.module s.builder.function) := by
  unfold Names.value? BodyState.names
  cases s.context.scopes.resolve scope name with
  | none => rfl
  | some bound =>
    cases bound with
    | direct operand =>
      simp only [Option.bind_some, BodyState.nameKind?, BoundValue.nameKind?,
        BoundValue.valueKind?]
      cases operandKind? s.context.module s.builder.function operand <;> rfl
    | slot home => rfl
    | namespace_ inner => rfl

theorem lowerIdentifier_expected (env : Environment) (ready : s.Ready scope) (name : Symbol)
    (span : FileSpan) :
    Expected s ((s.names scope).value? name) Denotes (lowerIdentifier env scope name span s) := by
  rw [lowerIdentifier, bind_run, LowerBody.resolve_run, if_pos ready.inside, names_value?]
  cases found : s.context.scopes.resolve scope name with
  | none => exact expected_refuse _ rfl
  | some bound =>
    obtain ⟨home, -, here⟩ := ScopeTable.lookupIn_of_resolve found
    exact toExprValue_expected ready here _ span

theorem lowerMember_expected (env : Environment) (ready : s.Ready scope) (object : Expr)
    (property : Symbol) (span : FileSpan) :
    Expected s ((s.names scope).member? object property) Denotes
      (lowerMember env scope object property span s) := by
  cases object with
  | identifier name nameSpan =>
    show Expected s _ _ ((LowerBody.resolve scope name >>= _) s)
    rw [bind_run, LowerBody.resolve_run, if_pos ready.inside]
    simp only [Names.member?, BodyState.names]
    cases found : s.context.scopes.resolve scope name with
    | none => exact expected_refuse _ rfl
    | some bound =>
      obtain ⟨home, -, here⟩ := ScopeTable.lookupIn_of_resolve found
      cases bound with
      | direct operand =>
        simp only [Option.bind_some, BodyState.nameKind?, BoundValue.nameKind?,
          BoundValue.valueKind?]
        cases operandKind? s.context.module s.builder.function operand <;>
          exact expected_refuse _ rfl
      | slot home => exact expected_refuse _ rfl
      | namespace_ inner =>
        obtain ⟨given, named⟩ := Option.isSome_iff_exists.1 (ready.sound.valid home name _ here)
        simp only [Option.bind_some, BodyState.nameKind?, BoundValue.nameKind?]
        rw [bind_run, LowerBody.lookupIn_run, if_pos (ScopeTable.contains_of_name? named)]
        cases member : s.context.scopes.lookupIn inner property with
        | none => exact expected_refuse _ rfl
        | some value => exact toExprValue_expected ready member _ span
  | _ => exact expected_refuse _ rfl

theorem lowerString_expected (env : Environment) (value : String) (span : FileSpan) :
    Expected s (stringTyping env.types value) Denotes (lowerString env value span s) := by
  unfold lowerString stringTyping
  cases string : env.types.stringTy with
  | struct name fields =>
    by_cases long : maxStringBytes < value.toUTF8.toList.length
    · rw [if_neg (Nat.not_le.2 long)]
      simp only [long, if_true]
      exact expected_refuse _ rfl
    · rw [if_pos (Nat.not_lt.1 long)]
      simp only [long, if_false]
      refine Foretold.ok ⟨⟨[_], rfl⟩, .refl⟩ ⟨rfl, trivial, ?_⟩
      rintro id ⟨⟩
  | _ => exact expected_refuse _ rfl

/-! ## Calls -/

/-- The operand stands for a value of the type. -/
def BodyState.Typed (s : BodyState) (operand : Operand) (ty : Ty) : Prop :=
  ∃ kind, s.Stands (.direct operand) kind ∧ kind.ty = ty

theorem expectArgs_of_typed {operands : List Operand} {params : List Ty}
    (typed : List.Forall₂ s.Typed operands params) :
    s.builder.function.expectArgs operands params = .ok () := by
  induction typed with
  | nil => rfl
  | cons first _ ih =>
    obtain ⟨kind, stands, same⟩ := first
    rw [Function.expectArgs, except_seq_ok]
    exact ⟨Function.expectTy_ok.2 (same ▸ operandTy_of_kind stands.kind), ih⟩

theorem usable_of_typed {operands : List Operand} {params : List Ty}
    (typed : List.Forall₂ s.Typed operands params) {id : ValueId}
    (read : .value id ∈ operands) : s.Usable id := by
  induction typed with
  | nil => cases read
  | cons first _ ih =>
    rcases List.mem_cons.1 read with rfl | later
    · obtain ⟨kind, stands, -⟩ := first
      exact stands.usable id rfl
    · exact ih later

/-- What a call gives under a signature: nothing for `void`, else a value of its type. -/
def Returned (signature : FunctionTy) (result : Option Operand) (t : BodyState) : Prop :=
  match result with
  | none => signature.ret.isVoid
  | some operand =>
    signature.ret.isVoid = false ∧ t.Stands (.direct operand) (.immutable signature.ret)

theorem emitCall_expected (ready : s.Ready scope) {id : Ir.FuncId} {signature : FunctionTy}
    (known : s.context.module.signature? id = some signature) {operands : List Operand}
    (typed : List.Forall₂ s.Typed operands signature.params) :
    Expected s (some signature) Returned
      ((do return (← LowerBody.emit (·.call id signature operands)).map .value :
        LowerBody (Option Operand)) s) := by
  obtain ⟨block, selected⟩ := ready.selected
  obtain ⟨ty, result⟩ : ∃ ty, ty = if signature.ret.isVoid then none else some signature.ret :=
    ⟨_, rfl⟩
  have accepts : s.Accepts (.call id operands) ty := by
    refine ⟨rfl, ?_, fun value read => usable_of_typed typed read⟩
    have counted : operands.length = signature.params.length := typed.length_eq
    rw [Function.signatureFor, known]
    simp only [Function.checkAction, counted, ne_eq, not_true_eq_false, if_false,
      except_seq_ok]
    exact ⟨expectArgs_of_typed typed, result ▸ rfl⟩
  have emitted : s.builder.call id signature operands =
      .ok (ty.map fun _ => ⟨s.builder.function.values.length⟩,
        (s.push block (.call id operands) ty).builder) := by
    refine Builder.emit_ok.2 ⟨block, ty, selected, ?_, rfl, rfl⟩
    have checked := accepts.checked
    rwa [Function.signatureFor, known] at checked
  rw [bind_run, LowerBody.emit_run, emitted]
  refine Foretold.ok (s.emits_push selected accepts) ?_
  by_cases void : signature.ret.isVoid
  · rw [if_pos void] at result
    subst result
    exact void
  · rw [if_neg void] at result
    subst result
    exact ⟨Bool.eq_false_iff.2 void, s.stands_push selected rfl⟩

/-- The signature of a callee, if it is a function. -/
def ValueKind.signature? : ValueKind → Option FunctionTy
  | function signature => some signature
  | _ => none

theorem ValueKind.call_eq (kind : ValueKind) (accepts : List Ty → Bool) :
    kind.call accepts = kind.signature?.bind fun signature =>
      if accepts signature.params then some signature else none := by
  cases kind <;> rfl

theorem callTarget_expected (env : Environment) (callee : Expr) {value : ExprValue}
    {kind : ValueKind} (stands : s.Stands value.bound kind) :
    Expected s kind.signature?
      (fun signature target t =>
        target.2 = signature ∧ t.context.module.signature? target.1 = some signature)
      (callTarget env callee value s) := by
  have known := stands.kind
  cases value with
  | direct operand =>
    cases operand with
    | value id =>
      obtain ⟨data, -, rfl⟩ := Option.map_eq_some_iff.1 known
      exact expected_refuse _ rfl
    | constant c =>
      cases known
      exact expected_refuse _ rfl
    | function id =>
      obtain ⟨signature, found, rfl⟩ := Option.map_eq_some_iff.1 known
      show Expected s _ _ ((LowerBody.context >>= _) s)
      rw [bind_run, LowerBody.context_run]
      simp only [found]
      exact expected_pure ⟨rfl, found⟩
  | slot home =>
    cases known
    exact expected_refuse _ rfl

/-- A call is lowered when its arguments are, and when they are as many as the parameters. -/
theorem lowerCall_expected (env : Environment) (ready : s.Ready scope) (callee : Expr)
    {value : ExprValue} {kind : ValueKind} (stands : s.Stands value.bound kind) (found : Nat)
    {args : List Ty → LowerBody (List Operand)} {accepts : List Ty → Bool}
    (counted : ∀ params, accepts params → found = params.length)
    (lowered : ∀ t params, s.Emits t → found = params.length →
      Expected t (if accepts params then some () else none)
        (fun _ operands u => List.Forall₂ u.Typed operands params) (args params t))
    (span : FileSpan) :
    Expected s (kind.call accepts) Returned (lowerCall env callee value found args span s) := by
  rw [kind.call_eq]
  refine Foretold.bind (callTarget_expected env callee stands)
    fun signature target t emits known => ?_
  obtain ⟨id, signature'⟩ := target
  obtain ⟨rfl, known⟩ := known
  by_cases count : found = signature'.params.length
  · simp only [count, ne_eq, not_true_eq_false, if_false]
    have both : (if accepts signature'.params then some signature' else none) =
        (if accepts signature'.params then some () else none).bind fun _ =>
          some signature' := by
      split <;> rfl
    rw [both]
    refine Foretold.bind (lowered t signature'.params emits count)
      fun _ operands u emits' typed => ?_
    refine emitCall_expected ((emits.trans emits').ready ready) ?_ typed
    rwa [Ir.Module.signature?, Ir.Module.function?, emits'.functions]
  · have refused : accepts signature'.params = false := by
      rw [← Bool.not_eq_true]
      exact fun accepted => count (counted _ accepted)
    simp only [refused, ne_eq, count, not_false_eq_true, if_true]
    exact expected_refuse _ rfl

/-! ## Operators -/

/-- The operand of an expression stands for what reading the expression gives. -/
abbrev Operates (kind : ValueKind) (operand : Operand) (t : BodyState) : Prop :=
  t.Stands (.direct operand) kind

/-- An expression that is lowered and read at once, with more to do. -/
theorem operand_expected {κ α : Type} {good : κ → α → BodyState → Prop}
    {lowered : LowerBody ExprValue} {spec : Option ValueKind} (ready : s.Ready scope)
    (value : Expected s spec Denotes (lowered s)) {next : Operand → LowerBody α}
    {verdict : ValueKind → Option κ} (reads : ∀ kind, verdict kind.read = verdict kind)
    (rest : ∀ kind operand t, s.Emits t → t.Stands (.direct operand) kind →
      Expected t (verdict kind) good (next operand t)) :
    Expected s (spec.bind verdict) good
      ((do let operand ← (← lowered).read; next operand : LowerBody α) s) := by
  refine Foretold.bind value fun kind value t emits stands => ?_
  rw [← reads kind]
  show Expected t ((some kind.read).bind verdict) good _
  refine Foretold.bind (read_expected (emits.ready ready) stands)
    fun kind operand u emits' stands => ?_
  exact rest kind operand u (emits.trans emits') stands

/-- A value can be stored in a slot of its type. -/
theorem store_run (ready : s.Ready scope) (home : StackSlot)
    (valid : (BoundValue.slot home).Valid s.context.module s.context.scopes s.builder.function)
    {stored : Operand} {kind : ValueKind} (stands : s.Stands (.direct stored) kind)
    (same : kind.ty = home.ty) :
    ∃ block, s.builder.Open block ∧ s.Accepts (.store stored (.value home.ptr)) none ∧
      LowerBody.emit_ (·.store stored (.value home.ptr)) s =
        .ok () (s.push block (.store stored (.value home.ptr)) none) := by
  obtain ⟨block, selected⟩ := ready.selected
  obtain ⟨holds, sized, address⟩ := valid
  have accepts : s.Accepts (.store stored (.value home.ptr)) none := by
    refine ⟨rfl, ?_, ?_⟩
    · have slot : s.builder.function.expectSlot (.value home.ptr) kind.ty "store" = .ok () := by
        rw [Function.expectSlot, holds]
        exact if_pos same.symm
      simp only [Function.checkAction, except_bind_ok]
      exact ⟨(), Function.expectTy_ok.2 address, kind.ty, operandTy_of_kind stands.kind, (),
        Function.expectSized_ok.2 (same ▸ sized), (), slot, rfl⟩
    · intro id read
      simp only [Action.operands, List.mem_cons, List.not_mem_nil, or_false] at read
      rcases read with rfl | here
      · exact stands.usable id rfl
      · cases here
        exact Or.inr (Or.inl (by rw [holds]; rfl))
  have emitted : s.builder.store stored (.value home.ptr) =
      .ok (s.push block (.store stored (.value home.ptr)) none).builder :=
    Builder.store_ok.2 ⟨block, selected, accepts.checked, rfl⟩
  exact ⟨block, selected, accepts, by rw [LowerBody.emitUnit_run, emitted]; rfl⟩

theorem assign_expected (ready : s.Ready scope) {home : StackSlot}
    (target : s.Stands (.slot home) (.mutable home.ty)) {stored : Operand} {kind : ValueKind}
    (stands : s.Stands (.direct stored) kind) (span : FileSpan) :
    Expected s ((ValueKind.mutable home.ty).assign kind) Denotes (assign home stored span s) := by
  rw [assign, bind_run, operandTy_run stands]
  by_cases same : kind.ty = home.ty
  · rw [ValueKind.assign, if_pos same]
    simp only [same, ne_eq, not_true_eq_false, if_false]
    obtain ⟨block, selected, accepts, run⟩ := store_run ready home target.valid stands same
    rw [bind_run, run, operandKind_read stands.kind]
    have emits := s.emits_push selected accepts
    exact Foretold.ok emits (stands.emits emits)
  · rw [ValueKind.assign, if_neg same]
    simp only [same, ne_eq, not_false_eq_true, if_true]
    exact expected_refuse _ rfl

theorem add_expected (ready : s.Ready scope) {left right : Operand} {lhs rhs : ValueKind}
    (leftStands : s.Stands (.direct left) lhs) (rightStands : s.Stands (.direct right) rhs)
    (span : FileSpan) :
    Expected s (lhs.add rhs) Denotes (add left right span s) := by
  rw [add, bind_run, operandTy_run leftStands]
  simp only []
  rw [bind_run, operandTy_run rightStands]
  by_cases doubles : lhs.ty = .double ∧ rhs.ty = .double
  · rw [ValueKind.add, if_pos doubles]
    simp only [doubles.1, doubles.2, ne_eq, not_true_eq_false, or_self, if_false]
    have accepts : s.Accepts (.fadd left right) (some .double) := by
      refine ⟨rfl, ?_, ?_⟩
      · simp only [Function.checkAction, except_seq_ok]
        exact ⟨Function.expectTy_ok.2 (doubles.1 ▸ operandTy_of_kind leftStands.kind),
          Function.expectTy_ok.2 (doubles.2 ▸ operandTy_of_kind rightStands.kind), rfl⟩
      · intro id read
        simp only [Action.operands, List.mem_cons, List.not_mem_nil, or_false] at read
        rcases read with rfl | rfl
        · exact leftStands.usable id rfl
        · exact rightStands.usable id rfl
    show Expected s ((some (ValueKind.immutable .double)).bind fun kind => some kind) _ _
    refine Foretold.bind (emitValue_expected ready accepts rfl) fun kind value t _ holds => ?_
    exact expected_pure holds
  · rw [ValueKind.add, if_neg doubles]
    have refused : lhs.ty ≠ .double ∨ rhs.ty ≠ .double := by
      rwa [not_and_or] at doubles
    simp only [refused, if_true]
    exact expected_refuse _ rfl

theorem checkArgument_run {operand : Operand} {kind : ValueKind}
    (stands : s.Stands (.direct operand) kind) (expected : Ty) (span : FileSpan) :
    checkArgument operand expected span s =
      if kind.ty = expected then .ok () s
      else .error (.refused (.typeMismatch "argument" expected kind.ty span)) s := by
  rw [checkArgument, bind_run, operandTy_run stands]
  by_cases same : kind.ty = expected
  · simp only [same, ne_eq, not_true_eq_false, if_false, if_true]
    rfl
  · simp only [same, ne_eq, not_false_eq_true, if_true, if_false]
    rfl

theorem assignmentTarget_expected (env : Environment) (target : Expr) {value : ExprValue}
    {kind : ValueKind} (stands : s.Stands value.bound kind) :
    (∃ home, assignmentTarget env target value s = .ok home s ∧ kind = .mutable home.ty ∧
      s.Stands (.slot home) kind) ∨
    (∃ cause, assignmentTarget env target value s = .error (.refused cause) s ∧
      cause.ofSource = true ∧ ∀ stored, kind.assign stored = none) := by
  have known := stands.kind
  cases value with
  | slot home =>
    cases known
    exact Or.inl ⟨home, rfl, rfl, stands⟩
  | direct operand =>
    right
    have immutable : ∀ stored, kind.assign stored = none := by
      intro stored
      cases operand with
      | value id =>
        obtain ⟨data, -, rfl⟩ := Option.map_eq_some_iff.1 known
        rfl
      | constant c =>
        cases known
        rfl
      | function id =>
        obtain ⟨signature, -, rfl⟩ := Option.map_eq_some_iff.1 known
        rfl
    cases operand <;> cases target <;> exact ⟨_, rfl, rfl, immutable⟩

theorem ValueKind.assign_read (target stored : ValueKind) :
    target.assign stored.read = target.assign stored := by
  cases target <;> cases stored <;> rfl

theorem typings_length {types : TypeMapping} {names : Names} :
    ∀ {args : List Expr} {params : List Ty}, Expr.typings types names args params →
      args.length = params.length
  | [], [], _ => rfl
  | [], _ :: _, typed => by simp [Expr.typings] at typed
  | _ :: _, [], typed => by simp [Expr.typings] at typed
  | arg :: args, param :: params, typed => by
    rw [Expr.typings, Bool.and_eq_true] at typed
    rw [List.length_cons, List.length_cons, typings_length typed.2]

/-- A call of what a callee stands for, given that its arguments are lowered as judged. -/
theorem applied_expected (env : Environment) (ready : s.Ready scope) (callee : Expr)
    {value : ExprValue} {kind : ValueKind} (stands : s.Stands value.bound kind)
    (args : List Expr) (span : FileSpan)
    (lowered : ∀ t params, t.Ready scope → args.length = params.length →
      Expected t (if Expr.typings env.types (t.names scope) args params then some () else none)
        (fun _ operands u => List.Forall₂ u.Typed operands params)
        (lowerArgs env scope args params t)) :
    Expected s (kind.call (Expr.typings env.types (s.names scope) args)) Returned
      (lowerCall env callee value args.length (lowerArgs env scope args) span s) := by
  refine lowerCall_expected env ready callee stands args.length (fun params => typings_length)
    (fun t params emits count => ?_) span
  rw [← emits.names ready.sound]
  exact lowered t params (emits.ready ready) count

/-! ## Composite expressions

Each ends as the judgement foretells where its parts do, from whatever state they are lowered
in: the parts bind nothing, so that the names of the judgement stay what they were. -/

theorem callExpr_expected {env : Environment} (ready : s.Ready scope) {callee : Expr}
    {args : List Expr} (span : FileSpan)
    (target : Expected s (callee.typing env.types (s.names scope)) Denotes
      (lowerExpr env scope callee s))
    (lowered : ∀ params t, t.Ready scope → args.length = params.length →
      Expected t (if Expr.typings env.types (t.names scope) args params then some () else none)
        (fun _ operands u => List.Forall₂ u.Typed operands params)
        (lowerArgs env scope args params t)) :
    Expected s ((Expr.call callee args span).typing env.types (s.names scope)) Denotes
      (lowerExpr env scope (.call callee args span) s) := by
  rw [Expr.typing, lowerExpr]
  refine Foretold.bind target fun kind value t emits stands => ?_
  rw [← emits.names ready.sound]
  have called := applied_expected env (emits.ready ready) callee stands args span
    fun u params ready' count => lowered params u ready' count
  refine Foretold.bind called fun signature result u _ returned => ?_
  cases result with
  | none =>
    have void : signature.ret.isVoid := returned
    rw [if_pos void]
    exact expected_refuse _ rfl
  | some operand =>
    simp only [returned.1, Bool.false_eq_true, if_false]
    exact expected_pure returned.2

theorem assignExpr_expected {env : Environment} (ready : s.Ready scope) {lhs rhs : Expr}
    (span : FileSpan)
    (first : Expected s (lhs.typing env.types (s.names scope)) Denotes (lowerExpr env scope lhs s))
    (second : ∀ t, t.Ready scope → Expected t (rhs.typing env.types (t.names scope)) Denotes
      (lowerExpr env scope rhs t)) :
    Expected s ((Expr.binary .assign lhs rhs span).typing env.types (s.names scope)) Denotes
      (lowerExpr env scope (.binary .assign lhs rhs span) s) := by
  rw [Expr.typing, lowerExpr]
  refine Foretold.bind first fun target value t emits stands => ?_
  rcases assignmentTarget_expected env lhs stands with
    ⟨home, found, rfl, stands⟩ | ⟨cause, refused, reason, immutable⟩
  · rw [bind_run, found, ← emits.names ready.sound]
    have ready' := emits.ready ready
    refine operand_expected ready' (second t ready')
      (fun kind => ValueKind.assign_read _ kind) fun kind operand u emits' stored => ?_
    exact assign_expected (emits'.ready ready') (stands.emits emits') stored rhs.span
  · -- the target is refused before the right side is looked at, whatever its type
    rw [bind_run, refused]
    have none_ : ((rhs.typing env.types (s.names scope)).bind fun stored =>
        target.assign stored) = none := by
      cases rhs.typing env.types (s.names scope) with
      | none => rfl
      | some stored => exact immutable stored
    show Expected t ((rhs.typing env.types (s.names scope)).bind fun stored =>
      target.assign stored) _ _
    rw [none_]
    exact Foretold.refused reason ⟨[], by simp⟩

theorem addExpr_expected {env : Environment} (ready : s.Ready scope) {lhs rhs : Expr}
    (span : FileSpan)
    (first : Expected s (lhs.typing env.types (s.names scope)) Denotes (lowerExpr env scope lhs s))
    (second : ∀ t, t.Ready scope → Expected t (rhs.typing env.types (t.names scope)) Denotes
      (lowerExpr env scope rhs t)) :
    Expected s ((Expr.binary .add lhs rhs span).typing env.types (s.names scope)) Denotes
      (lowerExpr env scope (.binary .add lhs rhs span) s) := by
  rw [Expr.typing, lowerExpr]
  refine operand_expected ready first (fun kind => ?_) fun left operand t emits stands => ?_
  · simp only [ValueKind.add, ValueKind.ty_read]
  · rw [← emits.names ready.sound]
    have ready' := emits.ready ready
    refine operand_expected ready' (second t ready') (fun kind => ?_)
      fun right operand' u emits' stands' => ?_
    · simp only [ValueKind.add, ValueKind.ty_read]
    · exact add_expected (emits'.ready ready') (stands.emits emits') stands' span

/-! ## Expressions -/

variable (env : Environment) (scope)

mutual

/-- Lowering an expression ends as the judgement foretells. -/
theorem lowerExpr_expected : ∀ (expr : Expr) (s : BodyState), s.Ready scope →
    Expected s (expr.typing env.types (s.names scope)) Denotes (lowerExpr env scope expr s)
  | .identifier name span, s, ready => by
    rw [Expr.typing, lowerExpr]
    exact lowerIdentifier_expected env ready name span
  | .member object property span, s, ready => by
    rw [Expr.typing, lowerExpr]
    exact lowerMember_expected env ready object property span
  | .call callee args span, s, ready =>
    callExpr_expected ready span (lowerExpr_expected callee s ready) (lowerArgs_expected args)
  | .binary op lhs rhs span, s, ready => by
    cases op with
    | assign =>
      exact assignExpr_expected ready span (lowerExpr_expected lhs s ready)
        (lowerExpr_expected rhs)
    | add =>
      exact addExpr_expected ready span (lowerExpr_expected lhs s ready) (lowerExpr_expected rhs)
    | _ =>
      rw [Expr.typing, lowerExpr]
      · exact expected_refuse _ rfl
      all_goals simp
  | .bool value span, s, ready => by
    rw [Expr.typing, lowerExpr]
    exact expected_pure ⟨rfl, trivial, by rintro id ⟨⟩⟩
  | .number value span, s, ready => by
    rw [Expr.typing, lowerExpr]
    exact expected_pure ⟨rfl, trivial, by rintro id ⟨⟩⟩
  | .string value span, s, ready => by
    rw [Expr.typing, lowerExpr]
    exact lowerString_expected env value span
  | .unary .., _, _ | .null .., _, _ | .array .., _, _ | .index .., _, _ => by
    rw [Expr.typing, lowerExpr]
    · exact expected_refuse _ rfl
    all_goals simp

/-- Arguments are lowered exactly when they have the types of the parameters. -/
theorem lowerArgs_expected : ∀ (args : List Expr) (params : List Ty) (s : BodyState),
    s.Ready scope → args.length = params.length →
    Expected s (if Expr.typings env.types (s.names scope) args params then some () else none)
      (fun _ operands t => List.Forall₂ t.Typed operands params)
      (lowerArgs env scope args params s)
  | [], [], s, _, _ => by
    rw [Expr.typings, lowerArgs]
    · exact expected_pure .nil
    · simp
  | [], _ :: _, _, _, count => by cases count
  | _ :: _, [], _, _, count => by cases count
  | arg :: args, param :: params, s, ready, count => by
    have spec : (if Expr.typings env.types (s.names scope) (arg :: args) (param :: params) then
          some () else none) =
        (arg.typing env.types (s.names scope)).bind fun kind =>
          if kind.ty = param then
            if Expr.typings env.types (s.names scope) args params then some () else none
          else none := by
      rw [Expr.typings]
      cases arg.typing env.types (s.names scope) with
      | none => simp
      | some kind => by_cases same : kind.ty = param <;> simp [same]
    rw [spec, lowerArgs]
    refine operand_expected ready (lowerExpr_expected arg s ready) (fun kind => ?_)
      fun kind operand t emits stands => ?_
    · simp only [ValueKind.ty_read]
    · rw [bind_run, checkArgument_run stands]
      by_cases same : kind.ty = param
      · rw [if_pos same, if_pos same, ← emits.names ready.sound]
        have rest := lowerArgs_expected args params t (emits.ready ready) (Nat.succ.inj count)
        have whole : (if Expr.typings env.types (t.names scope) args params then some ()
              else none) =
            (if Expr.typings env.types (t.names scope) args params then some ()
              else none).bind fun _ => some () := by
          split <;> rfl
        rw [whole]
        refine Foretold.bind rest fun _ operands u emits' typed => ?_
        exact expected_pure (.cons ⟨kind, stands.emits emits', same⟩ typed)
      · rw [if_neg same, if_neg same]
        exact Foretold.refused rfl ⟨[], by simp⟩

end

end SsaLowering
