/-
# SsaLowering.Proofs.Lower.Statement -- statements are lowered exactly when they are typed

From a state in which code can be emitted, `lowerStmt` ends as `Stmt.typing`
foretells (`lowerStmt_foretold`).  A typed statement leaves a sound state, the
names that the judgement gives, a builder that has advanced by finished
constructs, and an open block exactly when the statement does not close.
-/
import SsaLowering.Lower.Statement
import SsaLowering.Proofs.Lower.Expression
import SsaLowering.Proofs.Lower.Growth

namespace SsaLowering

set_option autoImplicit false

open Ir (Ty FunctionTy Function Builder ValueId BlockId Operand Terminator)

/-! ## The progress of statements -/

/-- An error that a body can be refused with: one of the source, or a variable whose type has
no values.  No other refusal of the module, the builder or the verifier is one. -/
def LowerError.ofBody : LowerError → Bool
  | build (.invalidType _ _) => true
  | build _ | verification _ => false
  | _ => true

/-- An error of the source, or a variable of one of the types `P`, which has no values. -/
def LowerError.Blames (P : Ty → Prop) (cause : LowerError) : Prop :=
  cause.ofSource = true ∨
    ∃ ty, P ty ∧ ty.isSized = false ∧ cause = .build (.invalidType "alloca" ty)

theorem LowerError.Blames.mono {P Q : Ty → Prop} {cause : LowerError}
    (blames : cause.Blames P) (wider : ∀ ty, P ty → Q ty) :
    cause.Blames Q :=
  blames.imp_right fun ⟨ty, holds, unsized, same⟩ => ⟨ty, wider ty holds, unsized, same⟩

theorem LowerError.Blames.ofBody {P : Ty → Prop} {cause : LowerError} (blames : cause.Blames P) :
    cause.ofBody = true := by
  rcases blames with source | ⟨ty, -, -, rfl⟩
  · cases cause <;> first | rfl | cases source
  · rfl

/-- A step of a body that binds names in `scope`, and can be refused for a variable of one of
the types `P`. -/
def statementProgress (scope : ScopeId) (P : Ty → Prop := fun _ => True) :
    Progress LowerError BodyState where
  Done := fun s t =>
    s.context.Grows scope t.context ∧ s.builder.function.Extends t.builder.function
  Failed := fun s t => s.context.Grows scope t.context
  Reason := LowerError.Blames P
  trans := fun first second => ⟨first.1.trans second.1, first.2.trans second.2⟩
  after := fun first failed => first.1.trans failed

variable {s t u : BodyState} {scope : ScopeId} {P : Ty → Prop}

/-- A step may be blamed for more. -/
theorem Foretold.blaming {κ α : Type} {spec : Option κ} {good : κ → α → BodyState → Prop}
    {Q : Ty → Prop} {r : EStateM.Result (Failure LowerError) BodyState α}
    (run : Foretold (statementProgress scope P) s spec good r)
    (wider : ∀ ty, P ty → Q ty) :
    Foretold (statementProgress scope Q) s spec good r := by
  rcases r with ⟨a, t⟩ | ⟨⟨cause⟩ | ⟨fault⟩, t⟩
  · exact run
  · exact ⟨run.1, run.2.1.mono wider, run.2.2⟩
  · exact run

theorem BodyState.Emits.grows (emits : s.Emits t) (inside : s.context.scopes.contains scope) :
    s.context.Grows scope t.context := by
  obtain ⟨more, same⟩ := emits.context
  rw [same]
  exact .of_scopes inside rfl ⟨more, rfl⟩ List.prefix_rfl

/-- An expression as a step of a statement. -/
theorem Foretold.inStatement {κ α : Type} {spec : Option κ} {good : κ → α → BodyState → Prop}
    {r : EStateM.Result (Failure LowerError) BodyState α}
    (inside : s.context.scopes.contains scope) (run : Expected s spec good r) :
    Foretold (statementProgress scope P) s spec
      (fun k a t => s.Emits t ∧ good k a t) r := by
  rcases r with ⟨a, t⟩ | ⟨⟨cause⟩ | ⟨fault⟩, t⟩
  · obtain ⟨k, rfl, emits, holds⟩ := run
    exact ⟨k, rfl, ⟨emits.grows inside, emits.builder.function⟩, emits, holds⟩
  · obtain ⟨rfl, reason, more, same⟩ := run
    refine ⟨rfl, Or.inl reason, ?_⟩
    show s.context.Grows scope t.context
    rw [same]
    exact .of_scopes inside rfl ⟨more, rfl⟩ List.prefix_rfl
  · exact run

/-! ## Changes of the builder alone -/

/-- The state with another builder. -/
def BodyState.rebuilt (s : BodyState) (b : Builder) : BodyState := { s with builder := b }

namespace BodyState

theorem Sound.rebuilt (sound : s.Sound) {b : Builder}
    (grown : s.builder.function.Extends b.function) (ok : b.function.WellFormed s.context.module) :
    (s.rebuilt b).Sound where
  function := ok
  ordered := sound.ordered
  valid := fun scope x bound here =>
    (sound.valid scope x bound here).mono rfl grown fun _ named => named

theorem names_rebuilt (sound : s.Sound) {b : Builder}
    (grown : s.builder.function.Extends b.function) (scope : ScopeId) :
    (s.rebuilt b).names scope = s.names scope :=
  names_eq (t := s.rebuilt b) sound rfl grown (fun _ _ _ => rfl) fun _ => rfl

/-! ## Changes of the context alone -/

/-- The module, the scopes and the builder decide whether a state is sound. -/
theorem Sound.congr (sound : s.Sound) (module : t.context.module = s.context.module)
    (scopes : t.context.scopes = s.context.scopes) (builder : t.builder = s.builder) :
    t.Sound where
  function := by
    rw [module, builder]
    exact sound.function
  ordered := scopes ▸ sound.ordered
  valid := by
    rw [module, scopes, builder]
    exact sound.valid

theorem names_congr (module : t.context.module = s.context.module)
    (scopes : t.context.scopes = s.context.scopes) (builder : t.builder = s.builder) :
    t.names scope = s.names scope := by
  funext x
  unfold names nameKind?
  rw [module, scopes, builder]

/-- The state in which `name` is bound to `value` in a scope. -/
def bound (s : BodyState) (scope : ScopeId) (name : Symbol) (value : BoundValue) : BodyState :=
  { s with
    context := { s.context with scopes := s.context.scopes.assign scope name (some value) } }

theorem Sound.bound (sound : s.Sound) {name : Symbol} {value : BoundValue}
    (valid : value.Valid s.context.module s.context.scopes s.builder.function) :
    (s.bound scope name value).Sound where
  function := sound.function
  ordered := sound.ordered.congr fun _ => ScopeTable.enclosing_assign _
  valid := fun other x found here => by
    have kept : ∀ inner, (s.context.scopes.name? inner).isSome →
        ((s.context.scopes.assign scope name (some value)).name? inner).isSome := by
      intro inner named
      rwa [ScopeTable.name?_assign]
    have before : found.Valid s.context.module s.context.scopes s.builder.function := by
      simp only [BodyState.bound, ScopeTable.lookupIn_assign] at here
      split at here
      · cases here
        exact valid
      · exact sound.valid other x found here
    exact before.mono rfl (.refl _) kept

/-- A name bound in a scope without a name stands for its new value there. -/
theorem names_bound (sound : s.Sound) (inside : s.context.scopes.contains scope)
    (unnamed : s.context.scopes.name? scope = none) (name : Symbol) {value : BoundValue}
    {kind : ValueKind}
    (known : value.valueKind? s.context.module s.builder.function = some kind) :
    (s.bound scope name value).names scope = (s.names scope).bind name kind := by
  have members : ∀ inner, (s.context.scopes.name? inner).isSome → ∀ x,
      (s.bound scope name value).context.scopes.lookupIn inner x =
        s.context.scopes.lookupIn inner x := by
    intro inner named x
    have differs : ¬ scope = inner := by
      rintro rfl
      rw [unnamed] at named
      cases named
    exact (ScopeTable.lookupIn_assign _).trans (if_neg fun both => differs both.1)
  funext x
  rw [Names.bind, names, names, BodyState.bound, ScopeTable.resolve_assign inside]
  split
  · rw [Option.bind_some, nameKind?]
    cases value with
    | direct operand => exact congrArg (Option.map NameKind.value) known
    | slot home => exact congrArg (Option.map NameKind.value) known
    | namespace_ inner => cases known
  · cases found : s.context.scopes.resolve scope x with
    | none => rfl
    | some old =>
      obtain ⟨e, -, here⟩ := ScopeTable.lookupIn_of_resolve found
      exact nameKind?_eq (t := s.bound scope name value) sound rfl (.refl _) members here

end BodyState

/-! ## States between statements -/

namespace BodyState

/-- A state in which a statement can be lowered in a scope of the body. -/
structure Local (s : BodyState) (scope : ScopeId) : Prop extends s.Ready scope where
  unnamed : s.context.scopes.name? scope = none

/-- What a statement leaves that was lowered from `s` and gave the names `names`. -/
structure After (s : BodyState) (scope : ScopeId) (closed : Bool) (names : Names)
    (t : BodyState) : Prop where
  sound : t.Sound
  names : t.names scope = names
  advances : s.builder.Advances t.builder
  closed : t.builder.isTerminated = closed

theorem Local.placed (local_ : s.Local scope) : s.builder.Placed := by
  obtain ⟨block, selected⟩ := local_.selected
  exact selected.placed

theorem Local.refl (local_ : s.Local scope) : s.After scope false (s.names scope) s where
  sound := local_.sound
  names := rfl
  advances := .refl _
  closed := by
    obtain ⟨block, selected⟩ := local_.selected
    exact selected.not_terminated

theorem Emits.after (emits : s.Emits t) (local_ : s.Local scope) :
    s.After scope false (s.names scope) t where
  sound := emits.sound local_.sound
  names := emits.names local_.sound scope
  advances := emits.builder.advances
  closed := by
    obtain ⟨block, selected⟩ := local_.selected
    exact (emits.builder.open selected).not_terminated

/-- Behind a statement that does not close the next one can be lowered. -/
theorem After.local {names : Names} (after : s.After scope false names t)
    (local_ : s.Local scope) (grows : s.context.Grows scope t.context) : t.Local scope where
  sound := after.sound
  selected := (after.advances.placed local_.placed).open after.closed
  inside := grows.contains local_.inside
  unnamed := (grows.names scope).trans local_.unnamed

theorem After.trans {closed closed' : Bool} {names names' : Names}
    (first : s.After scope closed names t) (second : t.After scope closed' names' u) :
    s.After scope closed' names' u where
  sound := second.sound
  names := second.names
  advances := first.advances.trans second.advances
  closed := second.closed

theorem Emits.local (emits : s.Emits t) (local_ : s.Local scope) : t.Local scope :=
  (emits.after local_).local local_ (emits.grows local_.inside)

end BodyState

/-! ## The end of a block -/

theorem terminate_foretold (ready : s.Ready scope) {terminator : Terminator}
    (checked : s.builder.function.checkTerminator terminator = .ok ()) :
    Foretold (statementProgress scope P) s (some (s.names scope))
      (fun names (_ : Unit) t => s.After scope true names t)
      (LowerBody.emit_ (·.terminate terminator) s) := by
  obtain ⟨block, selected⟩ := ready.selected
  have ended : s.builder.terminate terminator = .ok (s.builder.closed block terminator) :=
    Builder.terminate_ok.2 ⟨block, selected, checked, rfl⟩
  rw [LowerBody.emitUnit_run, ended]
  have advances := selected.advances_closed terminator
  obtain ⟨current, data, known, unended⟩ := selected
  refine Foretold.ok ⟨.refl ready.inside, advances.function⟩ ⟨?_, ?_, advances, ?_⟩
  · exact ready.sound.rebuilt advances.function
      (Function.wellFormed_close ready.sound.function known unended checked)
  · exact BodyState.names_rebuilt ready.sound advances.function scope
  · have known' : (s.builder.closed block terminator).function.block? block =
        some { data with terminator := some terminator } := by
      rw [Builder.closed, Function.block?_close, known, Option.map_some, if_pos rfl]
    exact Builder.isTerminated_of_block (b := s.builder.closed block terminator) current known'

/-! ## Returns and conditions -/

/-- An operand of a statement, with more to do. -/
theorem operand_foretold (env : Environment) {κ α : Type} {good : κ → α → BodyState → Prop}
    (local_ : s.Local scope) (expr : Expr) {next : Operand → LowerBody α}
    {verdict : ValueKind → Option κ} (reads : ∀ kind, verdict kind.read = verdict kind)
    (rest : ∀ kind operand t, s.Emits t → t.Stands (.direct operand) kind →
      Foretold (statementProgress scope P) t (verdict kind) good (next operand t)) :
    Foretold (statementProgress scope P) s
      ((expr.typing env.types (s.names scope)).bind verdict) good
      ((do let operand ← (← lowerExpr env scope expr).read; next operand : LowerBody α) s) := by
  have value := lowerExpr_expected scope env expr s local_.toReady
  refine Foretold.bind (value.inStatement local_.inside) fun kind value t _ done => ?_
  obtain ⟨emits, stands⟩ := done
  have local' := emits.local local_
  rw [← reads kind]
  show Foretold _ t ((some kind.read).bind verdict) good _
  refine Foretold.bind ((read_expected local'.toReady stands).inStatement local'.inside)
    fun kind operand u _ done => ?_
  exact rest kind operand u (emits.trans done.1) done.2

theorem BodyState.After.of_emits {closed : Bool} {names : Names} (emits : s.Emits t)
    (local_ : s.Local scope) (after : t.After scope closed names u) :
    s.After scope closed names u :=
  (emits.after local_).trans after

theorem lowerReturn_foretold (env : Environment) (local_ : s.Local scope) (value : Option Expr)
    (span : FileSpan) :
    Foretold (statementProgress scope P) s
      (returnTyping env.types s.builder.returnTy (s.names scope) value)
      (fun names (_ : Unit) t => s.After scope true names t)
      (lowerReturn env scope value span s) := by
  unfold lowerReturn returnTyping
  rw [bind_run, LowerBody.builder_run]
  cases value with
  | none =>
    by_cases void : s.builder.returnTy.isVoid
    · simp only [void, Bool.not_true, Bool.false_eq_true, if_false, if_true]
      refine terminate_foretold local_.toReady ?_
      simp only [Function.checkTerminator, Terminator.successors, List.find?_nil]
      exact if_pos void
    · simp only [Bool.not_eq_true] at void
      simp only [void, Bool.not_false, if_true, Bool.false_eq_true, if_false]
      exact Foretold.refused (Or.inl rfl) (.refl local_.inside)
  | some expr =>
    refine operand_foretold env local_ expr (fun kind => ?_) fun kind operand t emits stands => ?_
    · rw [ValueKind.ty_read]
    · have local' := emits.local local_
      have ret : t.builder.returnTy = s.builder.returnTy := emits.builder.function.returnTy
      rw [bind_run, operandTy_run stands]
      by_cases same : kind.ty = s.builder.returnTy
      · simp only [same, ne_eq, not_true_eq_false, if_false, if_true]
        have checked : t.builder.function.checkTerminator (.ret (some operand)) = .ok () := by
          simp only [Function.checkTerminator, Terminator.successors, List.find?_nil]
          refine Function.expectTy_ok.2 ?_
          rw [operandTy_of_kind stands.kind, same, ← ret]
          rfl
        have ended := terminate_foretold (P := P) local'.toReady checked
        rw [emits.names local_.sound] at ended
        exact ended.weaken fun names _ u _ after => after.of_emits emits local_
      · simp only [same, ne_eq, not_false_eq_true, if_true, if_false]
        exact Foretold.refused (Or.inl rfl) (.refl local'.inside)

theorem lowerCondition_foretold (env : Environment) (local_ : s.Local scope) (condition : Expr) :
    Foretold (statementProgress scope P) s
      (conditionTyping env.types (s.names scope) condition)
      (fun _ operand t => s.Emits t ∧ ∃ kind, t.Stands (.direct operand) kind ∧ kind.ty = .bool)
      (lowerCondition env scope condition s) := by
  unfold lowerCondition conditionTyping
  refine operand_foretold env local_ condition (fun kind => ?_)
    fun kind operand t emits stands => ?_
  · rw [ValueKind.ty_read]
  · rw [bind_run, operandTy_run stands]
    have inside := (emits.local local_).inside
    by_cases same : kind.ty = .bool
    · simp only [same, ne_eq, not_true_eq_false, if_false, if_true]
      exact Foretold.ok ⟨.refl inside, .refl _⟩ ⟨emits, kind, stands, same⟩
    · simp only [same, ne_eq, not_false_eq_true, if_true, if_false]
      exact Foretold.refused (Or.inl rfl) (.refl inside)

/-! ## Variables -/

/-- The initial value and its type, as the judgement has them. -/
def Initial (s : BodyState) (declared : Option Ty) (kind : Option ValueKind)
    (init : Option (Operand × Ty)) (t : BodyState) : Prop :=
  s.Emits t ∧
    match kind, init with
    | none, none => True
    | some kind, some (operand, ty) =>
      t.Stands (.direct operand) kind ∧ ty = kind.ty ∧ declared.all (· = kind.ty)
    | _, _ => False

theorem lowerInitializer_foretold (env : Environment) (local_ : s.Local scope)
    (declared : Option Ty) (expr : Expr) :
    Foretold (statementProgress scope P) s
      (initTyping env.types (s.names scope) declared expr)
      (fun kind init t => Initial s declared (some kind) (some init) t)
      (lowerInitializer env scope declared expr s) := by
  unfold lowerInitializer initTyping
  refine operand_foretold env local_ expr (fun kind => ?_)
    fun kind operand t emits stands => ?_
  · cases kind <;> rfl
  · have inside := (emits.local local_).inside
    rw [bind_run, operandTy_run stands]
    have fits : declared.all (· = kind.ty) → Foretold (statementProgress scope P) t
        (if declared.all (· = kind.ty) then some kind.read else none)
        (fun kind init t => Initial s declared (some kind) (some init) t)
        (EStateM.Result.ok (ε := Failure LowerError) (operand, kind.ty) t) := by
      intro same
      rw [if_pos same, operandKind_read stands.kind]
      exact Foretold.ok ⟨.refl inside, .refl _⟩ ⟨emits, stands, rfl, same⟩
    cases declared with
    | none => exact fits rfl
    | some expected =>
      by_cases same : expected = kind.ty
      · simp only [same, ne_eq, not_true_eq_false, if_false]
        exact same ▸ fits (by simp [same])
      · have refused : (some expected).all (· = kind.ty) = false := by simp [same]
        simp only [ne_eq, same, not_false_eq_true, if_true, refused, Bool.false_eq_true,
          if_false]
        exact Foretold.refused (Or.inl rfl) (.refl inside)

theorem bindName_run (inside : s.context.scopes.contains scope) (name : Symbol)
    (value : BoundValue) :
    (Functor.discard (LowerBody.outside (Lower.bind scope name value)) : LowerBody Unit) s =
      .ok () (s.bound scope name value) := by
  refine discard_ok.2 ⟨s.context.scopes.lookupIn scope name, ?_⟩
  rw [LowerBody.outside_run, Lower.bind_scope_run, if_pos inside]
  rfl

/-- Binding a name to what stands for a value. -/
theorem bind_foretold (local_ : s.Local scope) (name : Symbol) {value : BoundValue}
    {kind : ValueKind}
    (known : value.valueKind? s.context.module s.builder.function = some kind)
    (valid : value.Valid s.context.module s.context.scopes s.builder.function) :
    Foretold (statementProgress scope P) s (some ((s.names scope).bind name kind))
      (fun names (_ : Unit) t => s.After scope false names t)
      ((Functor.discard (LowerBody.outside (Lower.bind scope name value)) : LowerBody Unit) s) := by
  rw [bindName_run local_.inside]
  refine Foretold.ok ⟨.bind local_.inside name value, .refl _⟩ ?_
  exact {
    sound := local_.sound.bound valid
    names := BodyState.names_bound local_.sound local_.inside local_.unnamed name known
    advances := .refl _
    closed := local_.refl.closed }

/-- A change of the builder that leaves the blocks as they are. -/
theorem BodyState.Local.rebuilt_after (local_ : s.Local scope) {b : Builder}
    (grown : s.builder.function.Extends b.function) (ok : b.function.WellFormed s.context.module)
    (current : b.current = s.builder.current)
    (same : ∀ id, b.content id = s.builder.content id) :
    s.After scope false (s.names scope) (s.rebuilt b) where
  sound := local_.sound.rebuilt grown ok
  names := names_rebuilt local_.sound grown scope
  advances := .of_content grown current fun id _ => same id
  closed := by
    obtain ⟨block, selected, data, known, unended⟩ := local_.selected
    have view := same block
    simp only [Builder.content, known, Option.map_some] at view
    obtain ⟨data', known', view⟩ := Option.map_eq_some_iff.1 view
    have ends : data'.terminator = data.terminator := (Prod.mk.inj view).2
    show b.isTerminated = false
    rw [Builder.isTerminated_of_block (current.trans selected) known', ends, unended]
    rfl

/-- Naming a value of the table changes names alone. -/
theorem nameValue_run (sound : s.Sound) {value : ValueId}
    (known : (s.builder.function.value? value).isSome) (name : String) :
    ∃ b named, LowerBody.emit (·.nameValue value name) s = .ok named (s.rebuilt b) ∧
      s.builder.function.Extends b.function ∧ b.function.WellFormed s.context.module ∧
      b.current = s.builder.current ∧ b.function.blocks = s.builder.function.blocks := by
  obtain ⟨data, present⟩ := Option.isSome_iff_exists.1 known
  cases old : data.name with
  | some given =>
    have run : s.builder.nameValue value name = .ok (false, s.builder) :=
      Builder.nameValue_ok.2 ⟨data, present, Or.inl ⟨by rw [old]; rfl, rfl, rfl⟩⟩
    exact ⟨s.builder, false, by rw [LowerBody.emit_run, run]; rfl, .refl _, sound.function, rfl,
      rfl⟩
  | none =>
    let b : Builder := { s.builder with
      function := s.builder.function.rename value (s.builder.valueNames.choose name)
      valueNames := (s.builder.valueNames.fresh name).2 }
    have run : s.builder.nameValue value name = .ok (true, b) :=
      Builder.nameValue_ok.2 ⟨data, present, Or.inr ⟨old, rfl, rfl⟩⟩
    exact ⟨b, true, by rw [LowerBody.emit_run, run]; rfl, Function.extends_rename _ _ _,
      Function.wellFormed_rename sound.function _ _, rfl, rfl⟩

theorem nameValue_foretold (local_ : s.Local scope) {value : ValueId}
    (known : (s.builder.function.value? value).isSome) (name : String) :
    ∃ b named, LowerBody.emit (·.nameValue value name) s = .ok named (s.rebuilt b) ∧
      s.builder.function.Extends b.function ∧
      s.After scope false (s.names scope) (s.rebuilt b) := by
  obtain ⟨b, named, run, grown, ok, current, blocks⟩ := nameValue_run local_.sound known name
  refine ⟨b, named, run, grown, local_.rebuilt_after grown ok current fun id => ?_⟩
  rw [Builder.content, Builder.content, Function.block?, Function.block?, blocks]

theorem bindConstant_foretold (env : Environment) (local_ : s.Local scope) (decl : Declarator)
    {kind : Option ValueKind} {init : Option (Operand × Ty)} {declared : Option Ty}
    (initial : Initial t declared kind init s) :
    Foretold (statementProgress scope P) s
      (kind.bind fun kind => some ((s.names scope).bind decl.name kind))
      (fun names (_ : Unit) u => s.After scope false names u)
      (bindConstant env scope decl init s) := by
  obtain ⟨-, initial⟩ := initial
  cases kind with
  | none =>
    cases init with
    | none => exact Foretold.refused (Or.inl rfl) (.refl local_.inside)
    | some init => cases initial
  | some kind =>
    cases init with
    | none => cases initial
    | some init =>
      obtain ⟨operand, ty⟩ := init
      obtain ⟨stands, -, -⟩ := initial
      show Foretold _ s (some ((s.names scope).bind decl.name kind)) _ _
      cases operand with
      | value id =>
        obtain ⟨b, named, run, grown, after⟩ :=
          nameValue_foretold local_ stands.valid (env.name decl.name)
        have local' := after.local local_ (.refl local_.inside)
        have kept : (BoundValue.direct (.value id)).valueKind? s.context.module b.function =
            some kind := (stands.valid.valueKind?_mono rfl grown).trans stands.kind
        have bound := bind_foretold (P := P) local' decl.name kept
          (stands.valid.mono rfl grown fun _ named => named)
        have same : (s.rebuilt b).names scope = s.names scope := after.names
        rw [same] at bound
        have chained : bindConstant env scope decl (some (.value id, ty)) s =
            (Functor.discard (LowerBody.outside (Lower.bind scope decl.name
              (.direct (.value id)))) : LowerBody Unit) (s.rebuilt b) := by
          refine (bind_run (Functor.discard (LowerBody.emit _)) _ s).trans ?_
          rw [(discard_ok (u := ())).2 ⟨named, run⟩]
        rw [chained]
        exact (bound.weaken fun names _ u _ after' => after.trans after').from
          ⟨.refl local_.inside, grown⟩
      | constant c => exact bind_foretold local_ decl.name stands.kind stands.valid
      | function id => exact bind_foretold local_ decl.name stands.kind stands.valid

/-- The builder with a slot for a variable of the type. -/
def Ir.Builder.withSlot (b : Builder) (ty : Ty) (name : String) : Builder :=
  { b with
    function := b.function.reserve ty (b.valueNames.choose name)
    valueNames := (b.valueNames.fresh name).2 }

theorem Ir.Builder.content_withSlot (b : Builder) (ty : Ty) (name : String) (id : BlockId) :
    (b.withSlot ty name).content id = b.content id := by
  rw [content, content, withSlot, Function.block?_reserve, Option.map_map]
  refine congrArg (Option.map · _) (funext fun data => ?_)
  rw [Function.comp_apply]
  split
  · have kept : (data.insertSlot ⟨some ⟨b.function.values.length⟩, .alloca ty⟩).code = data.code :=
      data.code_insertSlot rfl
    rw [kept]
    rfl
  · rfl

/-- The state with a slot for a variable of the type. -/
def BodyState.withSlot (s : BodyState) (ty : Ty) (name : String) : BodyState :=
  s.rebuilt (s.builder.withSlot ty name)

/-- The slot that the next variable gets. -/
def BodyState.nextSlot (s : BodyState) (ty : Ty) : StackSlot :=
  ⟨⟨s.builder.function.values.length⟩, ty⟩

theorem BodyState.Local.entry (local_ : s.Local scope) :
    ∃ entry, s.builder.function.block? ⟨0⟩ = some entry := by
  obtain ⟨block, -, data, known, -⟩ := local_.selected
  have bound := Function.lt_of_block? known
  refine ⟨s.builder.function.blocks[0], ?_⟩
  rw [Function.block?]
  exact List.getElem?_eq_getElem _

/-- A slot is reserved wherever code can be emitted, if its type is sized. -/
theorem alloca_run (local_ : s.Local scope) (ty : Ty) (name : String) :
    (ty.isSized → LowerBody.emit (·.alloca ty name) s =
      .ok (s.nextSlot ty).ptr (s.withSlot ty name)) ∧
    (¬ ty.isSized → LowerBody.emit (·.alloca ty name) s =
      .error (.refused (.build (.invalidType "alloca" ty))) s) := by
  obtain ⟨entry, known⟩ := local_.entry
  have nonempty : s.builder.function.blocks ≠ [] := by
    intro empty
    rw [Function.block?, empty] at known
    cases known
  rw [LowerBody.emit_run]
  constructor
  · intro sized
    have made : s.builder.alloca ty name =
        .ok ((s.nextSlot ty).ptr, s.builder.withSlot ty name) :=
      Builder.alloca_ok.2 ⟨nonempty, sized, rfl, rfl⟩
    rw [made]
    rfl
  · intro unsized
    have refused : s.builder.alloca ty name = .error (.invalidType "alloca" ty) := by
      have begun : ¬ s.builder.function.isDeclaration := by simpa [Function.isDeclaration]
      rw [Builder.alloca, Builder.entry?, Function.entry?, if_neg begun]
      simp only [Function.checkAction, Function.expectSized, if_neg unsized]
      rfl
    rw [refused]

theorem BodyState.extends_withSlot (s : BodyState) (ty : Ty) (name : String) :
    s.builder.function.Extends (s.withSlot ty name).builder.function :=
  Function.extends_reserve s.builder.function ty _

theorem BodyState.Local.after_withSlot (local_ : s.Local scope) {ty : Ty} (sized : ty.isSized)
    (name : String) : s.After scope false (s.names scope) (s.withSlot ty name) := by
  obtain ⟨entry, known⟩ := local_.entry
  exact local_.rebuilt_after (s.extends_withSlot ty name)
    (Function.wellFormed_reserve local_.sound.function known sized _) rfl
    (s.builder.content_withSlot ty name)

/-- The new slot holds values of its type. -/
theorem BodyState.Local.valid_nextSlot (local_ : s.Local scope) {ty : Ty} (sized : ty.isSized)
    (name : String) :
    (BoundValue.slot (s.nextSlot ty)).Valid s.context.module s.context.scopes
      (s.withSlot ty name).builder.function := by
  obtain ⟨entry, known⟩ := local_.entry
  refine ⟨local_.sound.function.slotTy?_reserve known ty _, sized, ?_⟩
  refine Function.operandTy_value_ok.2
    ⟨⟨some (s.builder.valueNames.choose name), .ptr, .inst ⟨0⟩⟩, ?_, rfl⟩
  simp [BodyState.withSlot, BodyState.rebuilt, Builder.withSlot, Function.value?,
    Function.reserve, BodyState.nextSlot]

/-- What stands for a value still does when a slot is reserved. -/
theorem BodyState.Stands.withSlot {bound : BoundValue} {kind : ValueKind}
    (stands : s.Stands bound kind) (ty : Ty) (name : String) :
    (s.withSlot ty name).Stands bound kind where
  kind := (stands.valid.valueKind?_mono rfl (s.extends_withSlot ty name)).trans stands.kind
  valid := stands.valid.mono rfl (s.extends_withSlot ty name) fun _ named => named
  usable := fun id named =>
    (stands.usable id named).advances (stands.valid.known named) rfl (s.extends_withSlot ty name)

theorem bindVariable_foretold (env : Environment) (local_ : s.Local scope) (decl : Declarator)
    {declared : Option Ty} {kind : Option ValueKind} {init : Option (Operand × Ty)}
    (initial : Initial t declared kind init s)
    (blames : ∀ ty, (declared <|> kind.map (·.ty)) = some ty → P ty) :
    Foretold (statementProgress scope P) s
      ((variableTyping declared kind).bind fun kind => some ((s.names scope).bind decl.name kind))
      (fun names (_ : Unit) u => s.After scope false names u)
      (bindVariable env scope decl declared init s) := by
  have types : init.map (·.2) = kind.map (·.ty) := by
    cases kind <;> cases init
    · rfl
    · cases initial.2
    · cases initial.2
    · exact congrArg some initial.2.2.1
  unfold bindVariable variableTyping
  rw [types]
  cases chosen : declared <|> kind.map (·.ty) with
  | none => exact Foretold.refused (Or.inl rfl) (.refl local_.inside)
  | some ty =>
    simp only [Option.bind_eq_bind, Option.bind_some]
    rw [bind_run]
    by_cases sized : ty.isSized
    · rw [(alloca_run local_ ty _).1 sized, if_pos sized]
      have after := local_.after_withSlot sized (env.name decl.name)
      have local' := after.local local_ (.refl local_.inside)
      have valid := local_.valid_nextSlot sized (env.name decl.name)
      have grown := s.extends_withSlot ty (env.name decl.name)
      refine Foretold.from (t := s.withSlot ty (env.name decl.name)) ?_
        ⟨.refl local_.inside, grown⟩
      rw [← after.names]
      cases init with
      | none =>
        have bound := bind_foretold (P := P) local' decl.name rfl valid
        exact bound.weaken fun names _ u _ after' => after.trans after'
      | some init =>
        obtain ⟨operand, found⟩ := init
        cases kind with
        | none => cases initial.2
        | some kind =>
          obtain ⟨-, stands, rfl, fits⟩ := initial
          -- the type of the slot is the declared one, which the value fits, or else the value's
          have same : kind.ty = ty := by
            cases declared with
            | none => exact Option.some.inj chosen
            | some expected =>
              cases chosen
              have declared : ty = kind.ty := by simpa using fits
              exact declared.symm
          obtain ⟨block, selected, accepts, run⟩ :=
            store_run local'.toReady (s.nextSlot ty) valid (stands.withSlot ty _) same
          have emits := BodyState.emits_push selected accepts
          have local'' := emits.local local'
          show Foretold _ _ _ _ ((LowerBody.emit_ _ >>= fun _ => _) _)
          rw [bind_run, run]
          refine Foretold.from (t := (s.withSlot ty _).push block _ none) ?_
            ⟨emits.grows local'.inside, emits.builder.function⟩
          rw [← emits.names local'.sound scope]
          have bound := bind_foretold (P := P) local'' decl.name rfl
            (valid.mono rfl emits.builder.function fun _ named => named)
          exact bound.weaken fun names _ u _ after' =>
            after.trans ((emits.after local').trans after')
    · rw [(alloca_run local_ ty (env.name decl.name)).2 sized, if_neg sized]
      exact Foretold.refused (Or.inr ⟨ty, blames ty chosen, Bool.eq_false_iff.2 sized, rfl⟩)
        (.refl local_.inside)

/-- The declared type of a variable. -/
def declaredTy (env : Environment) (decl : Declarator) : LowerBody (Option Ty) :=
  match decl.type with
  | none => return none
  | some ty =>
    match env.types.resolve ty with
    | .ok image => return some image
    | .error cause => LowerBody.refuse (.type cause)

/-- The initial value of a variable, if it has one. -/
def initialValue (env : Environment) (scope : ScopeId) (declared : Option Ty)
    (decl : Declarator) : LowerBody (Option (Operand × Ty)) :=
  match decl.init with
  | none => return none
  | some expr => some <$> lowerInitializer env scope declared expr

/-- A declarator is lowered in three steps. -/
theorem lowerDeclarator_eq (env : Environment) (scope : ScopeId) (kind : BindingKind)
    (decl : Declarator) :
    lowerDeclarator env scope kind decl = (do
      let declared ← declaredTy env decl
      let init ← initialValue env scope declared decl
      if kind.isMutable then bindVariable env scope decl declared init
        else bindConstant env scope decl init) := by
  unfold lowerDeclarator declaredTy initialValue
  cases decl.type with
  | none => cases decl.init <;> rfl
  | some ty =>
    simp only []
    cases env.types.resolve ty with
    | ok image => cases decl.init <;> rfl
    | error cause => rfl

theorem declaredTy_foretold (env : Environment) (inside : s.context.scopes.contains scope)
    (decl : Declarator) :
    Foretold (statementProgress scope P) s (decl.declared? env.types)
      (fun declared found t => t = s ∧ found = declared) (declaredTy env decl s) := by
  unfold Declarator.declared? declaredTy
  have here : (statementProgress scope P).Done s s := ⟨.refl inside, .refl _⟩
  cases decl.type with
  | none => exact Foretold.ok here ⟨rfl, rfl⟩
  | some ty =>
    simp only []
    cases env.types.resolve ty with
    | ok image => exact Foretold.ok here ⟨rfl, rfl⟩
    | error cause => exact Foretold.refused (Or.inl rfl) here.1

theorem initialValue_foretold (env : Environment) (local_ : s.Local scope) (declared : Option Ty)
    (decl : Declarator) :
    Foretold (statementProgress scope P) s
      (decl.initial? env.types (s.names scope) declared)
      (fun kind init t => Initial s declared kind init t)
      (initialValue env scope declared decl s) := by
  unfold Declarator.initial? initialValue
  cases decl.init with
  | none => exact Foretold.ok ⟨.refl local_.inside, .refl _⟩ ⟨.refl s, trivial⟩
  | some expr =>
    have run := lowerInitializer_foretold (P := P) env local_ declared expr
    simp only []
    rw [Option.map_eq_bind, map_run]
    refine Foretold.bind run fun kind init t done initial => ?_
    exact Foretold.ok ⟨.refl (done.1.contains local_.inside), .refl _⟩ initial

/-- A declarator introduces a variable of the type. -/
def Declarator.Introduces (types : TypeMapping) (kind : BindingKind) (names : Names)
    (decl : Declarator) (ty : Ty) : Prop :=
  kind.isMutable ∧ decl.variableTy? types names = some ty

theorem lowerDeclarator_foretold (env : Environment) (kind : BindingKind) (local_ : s.Local scope)
    (decl : Declarator) :
    Foretold (statementProgress scope (decl.Introduces env.types kind (s.names scope))) s
      (decl.typing env.types kind (s.names scope))
      (fun names (_ : Unit) t => s.After scope false names t)
      (lowerDeclarator env scope kind decl s) := by
  rw [lowerDeclarator_eq, Declarator.typing]
  refine Foretold.bind (declaredTy_foretold env local_.inside decl).noting
    fun declared found t _ noted => ?_
  obtain ⟨typed, rfl, rfl⟩ := noted
  refine Foretold.bind (initialValue_foretold env local_ found decl).noting
    fun value init u _ noted => ?_
  obtain ⟨valued, initial⟩ := noted
  have emits := initial.1
  rw [← emits.names local_.sound, BindingKind.typing]
  cases mutability : kind.isMutable with
  | true =>
    have introduces : ∀ ty, (found <|> value.map (·.ty)) = some ty →
        decl.Introduces env.types kind (u.names scope) ty := by
      intro ty chosen
      refine ⟨mutability, ?_⟩
      rw [emits.names local_.sound, Declarator.variableTy?, typed]
      show (decl.initial? env.types (t.names scope) found).bind _ = _
      rw [valued]
      exact chosen
    exact (bindVariable_foretold env (emits.local local_) decl initial introduces).weaken
      fun names _ v _ after => after.of_emits emits local_
  | false =>
    exact (bindConstant_foretold env (emits.local local_) decl initial).weaken
      fun names _ v _ after => after.of_emits emits local_

/-- One of the declarators introduces a variable of the type, behind others that are typed. -/
def Declarator.AnyIntroduces (types : TypeMapping) (kind : BindingKind) (names : Names)
    (declarators : List Declarator) (ty : Ty) : Prop :=
  ∃ before decl after inner, declarators = before ++ decl :: after ∧
    before.foldlM (Declarator.typing types kind) names = some inner ∧
    decl.Introduces types kind inner ty

theorem lowerDeclarators_foretold (env : Environment) (kind : BindingKind) :
    ∀ (declarators : List Declarator) {s : BodyState}, s.Local scope →
      Foretold (statementProgress scope
          (Declarator.AnyIntroduces env.types kind (s.names scope) declarators)) s
        (declarators.foldlM (Declarator.typing env.types kind) (s.names scope))
        (fun names (_ : Unit) t => s.After scope false names t)
        (declarators.forM (lowerDeclarator env scope kind) s)
  | [], s, local_ => Foretold.ok ⟨.refl local_.inside, .refl _⟩ local_.refl
  | decl :: rest, s, local_ => by
    rw [List.foldlM_cons]
    have first := (lowerDeclarator_foretold env kind local_ decl).blaming
      (Q := Declarator.AnyIntroduces env.types kind (s.names scope) (decl :: rest))
      fun ty introduces => ⟨[], decl, rest, _, rfl, rfl, introduces⟩
    refine Foretold.bind first.noting fun names _ t done noted => ?_
    obtain ⟨typed, after⟩ := noted
    have later := lowerDeclarators_foretold env kind rest (after.local local_ done.1)
    rw [after.names] at later
    refine (later.weaken fun names _ u _ after' => after.trans after').blaming ?_
    rintro ty ⟨before, found, behind, inner, rfl, typed', introduces⟩
    refine ⟨decl :: before, found, behind, inner, rfl, ?_, introduces⟩
    rw [List.foldlM_cons, typed]
    exact typed'

/-! ## Blocks and conditionals -/

/-- The state with another block selected. -/
def BodyState.at_ (s : BodyState) (block : BlockId) : BodyState :=
  s.rebuilt (s.builder.at_ block)

/-- Selecting an untouched block makes room for a statement. -/
theorem BodyState.local_at (sound : s.Sound) (inside : s.context.scopes.contains scope)
    (unnamed : s.context.scopes.name? scope = none) {block : BlockId}
    (view : s.builder.content block = some ([], none)) : (s.at_ block).Local scope where
  sound := sound.rebuilt (.refl _) sound.function
  selected := ⟨block, Builder.open_of_content view⟩
  inside := inside
  unnamed := unnamed

theorem positionAtEnd_run {block : BlockId} (view : s.builder.content block = some ([], none)) :
    LowerBody.emit_ (·.positionAtEnd block) s = .ok () (s.at_ block) := by
  obtain ⟨data, known, -⟩ := Option.map_eq_some_iff.1 view
  have moved : s.builder.positionAtEnd block = .ok (s.builder.at_ block) :=
    Builder.positionAtEnd_ok.2 ⟨by rw [known]; rfl, rfl⟩
  rw [LowerBody.emitUnit_run, moved]
  rfl

/-- A branch ends the block it starts in, by itself or with a jump to what follows. -/
theorem lowerBranch_foretold (sound : s.Sound) (inside : s.context.scopes.contains scope)
    (unnamed : s.context.scopes.name? scope = none) {start next : BlockId}
    (view : s.builder.content start = some ([], none))
    (known : (s.builder.function.block? next).isSome) {work : LowerBody Unit}
    {spec : Option Names} {closed : Bool}
    (branch : Foretold (statementProgress scope P) (s.at_ start) spec
      (fun names _ t => (s.at_ start).After scope closed names t) (work (s.at_ start))) :
    Foretold (statementProgress scope P) s spec
      (fun names (_ : Unit) t => (s.at_ start).After scope true names t)
      (lowerBranch start next work s) := by
  have local_ := BodyState.local_at sound inside unnamed view
  rw [lowerBranch, bind_run, positionAtEnd_run view]
  refine Foretold.from (t := s.at_ start) ?_ ⟨.refl inside, .refl _⟩
  have whole : spec = spec.bind some := by cases spec <;> rfl
  rw [whole]
  refine Foretold.bind branch fun names _ t done after => ?_
  rw [bind_run, LowerBody.builder_run]
  simp only [after.closed]
  cases closed with
  | true => exact Foretold.ok ⟨.refl (done.1.contains inside), .refl _⟩ after
  | false =>
    have local' := after.local local_ done.1
    have checked : t.builder.function.checkTerminator (.br next) = .ok () := by
      have target : (t.builder.function.block? next).isNone = false := by
        simpa [Option.isSome_iff_ne_none] using done.2.isSome_block? known
      simp only [Function.checkTerminator, Terminator.successors, List.find?_cons, target,
        List.find?_nil]
      rfl
    have ended := terminate_foretold (P := P) local'.toReady checked
    rw [after.names] at ended
    exact ended.weaken fun names _ u _ after' => after.trans after'

namespace BodyState

/-- The scope that the next block gets. -/
def home (s : BodyState) : ScopeId := ⟨s.context.scopes.frames.length⟩

/-- The state at the start of a block. -/
def entered (s : BodyState) (scope : ScopeId) : BodyState :=
  { s with context := (s.context.enter scope none).2 }

theorem lookupIn_entered (s : BodyState) (scope other : ScopeId) (x : Symbol) :
    (s.entered scope).context.scopes.lookupIn other x = s.context.scopes.lookupIn other x :=
  ScopeTable.lookupIn_enter none

theorem frame?_entered (s : BodyState) (scope other : ScopeId) :
    (s.entered scope).context.scopes.frame? other =
      if other.index = s.context.scopes.frames.length then
        some (.fresh none (s.context.scopes.chain scope))
      else s.context.scopes.frame? other :=
  ScopeTable.frame?_enter none

theorem name?_entered (s : BodyState) (scope other : ScopeId) :
    (s.entered scope).context.scopes.name? other = s.context.scopes.name? other := by
  rw [ScopeTable.name?, frame?_entered]
  split
  · rename_i new
    rw [ScopeTable.name?_of_not_contains]
    · rfl
    · rw [ScopeTable.contains_iff, new]
      exact Nat.lt_irrefl _
  · rfl

theorem Sound.entered (sound : s.Sound) (inside : s.context.scopes.contains scope) :
    (s.entered scope).Sound where
  function := sound.function
  ordered := sound.ordered.enter inside none
  valid := fun other x bound here => by
    rw [lookupIn_entered] at here
    refine (sound.valid other x bound here).mono rfl (.refl _) fun e named => ?_
    rwa [name?_entered]

/-- A block starts with the names around it. -/
theorem names_entered (sound : s.Sound) (inside : s.context.scopes.contains scope) :
    (s.entered scope).names s.home = s.names scope :=
  names_eq (t := s.entered scope) sound rfl (.refl _) (fun e _ x => s.lookupIn_entered scope e x)
    fun _ => ScopeTable.resolve_enter inside none

theorem Local.entered (local_ : s.Local scope) : (s.entered scope).Local s.home where
  sound := local_.sound.entered local_.inside
  selected := local_.selected
  inside := by
    rw [ScopeTable.contains_iff]
    simp [BodyState.entered, BodyState.home, Context.enter, ScopeTable.enter]
  unnamed := by
    rw [name?_entered, ScopeTable.name?_of_not_contains]
    rw [ScopeTable.contains_iff]
    exact Nat.lt_irrefl _

/-- What a block does in its own scope is not seen behind it. -/
theorem Sound.leave (sound : s.Sound) (inside : s.context.scopes.contains scope)
    (done : (statementProgress s.home).Done (s.entered scope) t)
    (function : t.builder.function.WellFormed t.context.module) :
    (statementProgress scope).Done s (t.leave s.home) ∧ (t.leave s.home).Sound ∧
      (t.leave s.home).names scope = s.names scope := by
  obtain ⟨grows, grown⟩ := done
  have left : s.context.Grows scope (t.leave s.home).context :=
    (Context.Grows.leave rfl inside grows).1
  have lookups : ∀ other x, (t.leave s.home).context.scopes.lookupIn other x =
      s.context.scopes.lookupIn other x := (Context.Grows.leave rfl inside grows).2
  have resolved : ∀ x, (t.leave s.home).context.scopes.resolve scope x =
      s.context.scopes.resolve scope x := fun x =>
    ScopeTable.resolve_congr
      (congrArg (scope :: ·) (left.enclosing scope inside)) fun e _ => lookups e x
  refine ⟨⟨left, grown⟩, ⟨function, left.ordered sound.ordered, ?_⟩, ?_⟩
  · intro e x bound here
    have before := sound.valid e x bound (lookups e x ▸ here)
    refine before.mono left.functions grown fun other named => ?_
    rw [left.names other]
    exact named
  · exact names_eq (t := t.leave s.home) sound left.functions grown
      (fun e _ x => lookups e x) resolved

end BodyState

theorem inScope_eq {α : Type} (work : ScopeId → LowerBody α)
    (inside : s.context.scopes.contains scope) :
    LowerBody.inScope scope work s = match work s.home (s.entered scope) with
      | .ok a t => .ok a (t.leave s.home)
      | .error failure t => .error failure (t.leave s.home) := by
  rw [LowerBody.inScope_run, if_pos inside]
  rfl

/-- The work of a block happens in a scope of its own. -/
theorem inScope_foretold (local_ : s.Local scope) {work : ScopeId → LowerBody Unit} {closed : Bool}
    {spec : Option Names}
    (inner : Foretold (statementProgress s.home P) (s.entered scope) spec
      (fun names _ t => (s.entered scope).After s.home closed names t)
      (work s.home (s.entered scope))) :
    Foretold (statementProgress scope P) s (spec.bind fun _ => some (s.names scope))
      (fun names (_ : Unit) t => s.After scope closed names t)
      (LowerBody.inScope scope work s) := by
  rw [inScope_eq work local_.inside]
  generalize work s.home (s.entered scope) = r at inner
  rcases r with ⟨a, t⟩ | ⟨⟨cause⟩ | ⟨fault⟩, t⟩
  · obtain ⟨names, same, done, after⟩ := inner
    obtain ⟨done, sound, kept⟩ := local_.sound.leave local_.inside done after.sound.function
    rw [same]
    exact Foretold.ok done ⟨sound, kept, after.advances, after.closed⟩
  · obtain ⟨same, reason, grows⟩ := inner
    rw [same]
    exact Foretold.refused reason (Context.Grows.leave rfl local_.inside grows).1
  · exact inner

/-- The state with the blocks of a conditional, ready for its branches. -/
def BodyState.fork (s : BodyState) (block : BlockId) (cond : Operand) : BodyState :=
  s.rebuilt (s.builder.fork block cond)

/-- The number of the next block. -/
def BodyState.next (s : BodyState) : Nat := s.builder.function.blocks.length

/-- The state with one more block. -/
def BodyState.grow (s : BodyState) (name : String) : BodyState :=
  s.rebuilt (s.builder.appendBlock name).2

theorem appendBlock_run (s : BodyState) (name : String) :
    LowerBody.appendBlock name s = .ok ⟨s.next⟩ (s.grow name) := by
  rw [LowerBody.appendBlock, LowerBody.emit_run]
  rfl

theorem BodyState.next_grow (s : BodyState) (name : String) : (s.grow name).next = s.next + 1 := by
  simp [grow, next, rebuilt, Builder.appendBlock]

theorem fork_run {α : Type} {block : BlockId} (selected : s.builder.Open block) {cond : Operand}
    (typed : s.builder.function.operandTy cond = .ok .bool)
    (rest : BlockId → BlockId → BlockId → LowerBody α) :
    (do
      let thenBlock ← LowerBody.appendBlock "then"
      let elseBlock ← LowerBody.appendBlock "else"
      let endBlock ← LowerBody.appendBlock "endif"
      LowerBody.emit_ (·.condBr cond thenBlock elseBlock)
      rest thenBlock elseBlock endBlock : LowerBody α) s =
    rest ⟨s.next⟩ ⟨s.next + 1⟩ ⟨s.next + 2⟩ (s.fork block cond) := by
  have ended : (((s.grow "then").grow "else").grow "endif").builder.condBr cond ⟨s.next⟩
      ⟨s.next + 1⟩ = .ok (s.builder.fork block cond) :=
    Builder.terminate_ok.2
      ⟨block, selected.addBlocks, Builder.checkTerminator_fork typed, rfl⟩
  rw [bind_run, appendBlock_run]
  simp only []
  rw [bind_run, appendBlock_run]
  simp only []
  rw [bind_run, appendBlock_run]
  simp only [BodyState.next_grow]
  rw [bind_run, LowerBody.emitUnit_run, ended]
  rfl

theorem BodyState.fork_sound {block : BlockId} (sound : s.Sound)
    (selected : s.builder.Open block) {cond : Operand}
    (typed : s.builder.function.operandTy cond = .ok .bool) : (s.fork block cond).Sound :=
  sound.rebuilt (selected.extends_fork cond) (selected.wellFormed_fork sound.function typed)

/-- Both branches of a conditional are lowered from the state that forks, each into a block
of its own, and lowering goes on in the third block. -/
theorem branches_foretold (local_ : s.Local scope) {block : BlockId}
    (selected : s.builder.Open block) {cond : Operand}
    (typed : s.builder.function.operandTy cond = .ok .bool)
    (thenSpec elseSpec : Names → Option Names) (thenBlamed elseBlamed : Names → Ty → Prop)
    {thenWork elseWork : LowerBody Unit} {thenCloses elseCloses : Bool}
    (thenBlames : ∀ ty, thenBlamed (s.names scope) ty → P ty)
    (elseBlames : ∀ names, thenSpec (s.names scope) = some names →
      ∀ ty, elseBlamed names ty → P ty)
    (thenRun : ∀ t, t.Local scope → t.builder.returnTy = s.builder.returnTy →
      Foretold (statementProgress scope (thenBlamed (t.names scope))) t
        (thenSpec (t.names scope))
        (fun names _ u => t.After scope thenCloses names u) (thenWork t))
    (elseRun : ∀ t, t.Local scope → t.builder.returnTy = s.builder.returnTy →
      Foretold (statementProgress scope (elseBlamed (t.names scope))) t
        (elseSpec (t.names scope))
        (fun names _ u => t.After scope elseCloses names u) (elseWork t)) :
    Foretold (statementProgress scope P) s ((thenSpec (s.names scope)).bind elseSpec)
      (fun names (_ : Unit) t => s.After scope false names t)
      ((do
        lowerBranch ⟨s.next⟩ ⟨s.next + 2⟩ thenWork
        lowerBranch ⟨s.next + 1⟩ ⟨s.next + 2⟩ elseWork
        LowerBody.emit_ (·.positionAtEnd ⟨s.next + 2⟩) : LowerBody Unit) (s.fork block cond)) := by
  have bound : block.index < s.next := by
    obtain ⟨-, data, known, -⟩ := selected
    exact Function.lt_of_block? known
  have sound := BodyState.fork_sound local_.sound selected typed
  have grown : s.builder.function.Extends (s.fork block cond).builder.function :=
    selected.extends_fork cond
  have untouched {id : BlockId} (low : s.next ≤ id.index) (high : id.index < s.next + 3) :
      (s.fork block cond).builder.content id = some ([], none) :=
    Builder.content_fork_new bound cond low high
  have present {id : BlockId} {t : BodyState} (view : t.builder.content id = some ([], none)) :
      (t.builder.function.block? id).isSome := by
    obtain ⟨data, known, -⟩ := Option.map_eq_some_iff.1 view
    rw [known]
    rfl
  -- the fork binds nothing, so that the first branch is judged by the names before it
  have same : (s.fork block cond).names scope = s.names scope :=
    BodyState.names_rebuilt local_.sound grown scope
  refine Foretold.from (t := s.fork block cond) ?_ ⟨.refl local_.inside, grown⟩
  rw [← same]
  have thenView : (s.fork block cond).builder.content ⟨s.next⟩ = some ([], none) :=
    untouched (Nat.le_refl _) (Nat.lt_add_of_pos_right (by decide))
  have lastView : (s.fork block cond).builder.content ⟨s.next + 2⟩ = some ([], none) :=
    untouched (Nat.le_add_right _ _) (Nat.lt_succ_self _)
  have first := (lowerBranch_foretold sound local_.inside local_.unnamed thenView
    (present lastView) (thenRun _
      (BodyState.local_at sound local_.inside local_.unnamed thenView) grown.returnTy)).blaming
    (Q := P) fun ty blames => thenBlames ty (by rw [← same]; exact blames)
  refine Foretold.bind first.noting fun names _ t done noted => ?_
  obtain ⟨passed, after⟩ := noted
  replace passed : thenSpec (s.names scope) = some names := by rw [← same]; exact passed
  -- and has left the two blocks that follow as they were
  have elseView : t.builder.content ⟨s.next + 1⟩ = some ([], none) :=
    selected.content_else after.advances (Nat.lt_succ_self _) (by simp [BodyState.next])
  have endView : t.builder.content ⟨s.next + 2⟩ = some ([], none) :=
    selected.content_else after.advances (by simp [BodyState.next]) (by simp [BodyState.next])
  have inside := done.1.contains local_.inside
  have unnamed := (done.1.names scope).trans local_.unnamed
  have returns : t.builder.returnTy = s.builder.returnTy := (grown.trans done.2).returnTy
  have second := lowerBranch_foretold after.sound inside unnamed elseView (present endView)
    (elseRun _ (BodyState.local_at after.sound inside unnamed elseView) returns)
  rw [show (t.at_ ⟨s.next + 1⟩).names scope = names from after.names] at second
  replace second := second.blaming (elseBlames names passed)
  have whole : elseSpec names = (elseSpec names).bind some := by cases elseSpec names <;> rfl
  rw [whole]
  refine Foretold.bind second fun names' _ u done' after' => ?_
  have branched : s.builder.Branched block cond t.builder u.builder :=
    ⟨selected, after.advances, after.closed, after'.advances, after'.closed⟩
  have last : u.builder.content ⟨s.next + 2⟩ = some ([], none) := branched.content_end
  rw [positionAtEnd_run last]
  refine Foretold.ok ⟨.refl (done'.1.contains inside), .refl _⟩ ?_
  exact {
    sound := after'.sound.rebuilt (.refl _) after'.sound.function
    names := after'.names
    advances := branched.advances
    closed := (Builder.open_of_content last).not_terminated }

theorem skip_foretold (local_ : s.Local scope) (kind : SyntaxKind) (span : FileSpan) :
    Foretold (statementProgress scope P) s (some (s.names scope))
      (fun names (_ : Unit) t => s.After scope false names t) (skip kind span s) := by
  refine Foretold.ok ⟨.warn local_.inside _, .refl _⟩ ?_
  exact {
    sound := local_.sound.congr rfl rfl rfl
    names := BodyState.names_congr rfl rfl rfl
    advances := .refl _
    closed := local_.refl.closed }

/-- Statements behind one that closes are skipped. -/
theorem skipped_foretold (env : Environment) (inside : t.context.scopes.contains scope)
    {names : Names} (after : s.After scope true names t) (stmts : List Stmt) :
    Foretold (statementProgress scope P) t (some names)
      (fun names (_ : Unit) u => s.After scope true names u) (lowerStmts env scope stmts t) := by
  cases stmts with
  | nil =>
    rw [lowerStmts]
    exact Foretold.ok ⟨.refl inside, .refl _⟩ after
  | cons stmt rest =>
    rw [lowerStmts, bind_run, LowerBody.builder_run]
    simp only [after.closed, if_true]
    refine Foretold.ok ⟨.log inside _, .refl _⟩ ?_
    exact {
      sound := after.sound.congr rfl rfl rfl
      names := (BodyState.names_congr rfl rfl rfl).trans after.names
      advances := after.advances
      closed := after.closed }

/-! ## Statements -/

/-- The types of the variables that a statement introduces. -/
def Stmt.Variables (types : TypeMapping) (ret : Ty) (names : Names) (stmt : Stmt) (ty : Ty) :
    Prop :=
  ∃ decl, Stmt.Introduces types ret names stmt decl ty

/-- The types of the variables in a branch that may be absent. -/
def Stmt.OptionalVariables (types : TypeMapping) (ret : Ty) (names : Names) (stmt : Option Stmt)
    (ty : Ty) : Prop :=
  ∃ stmt', stmt = some stmt' ∧ stmt'.Variables types ret names ty

/-- The types of the variables that statements introduce. -/
def Stmt.AnyVariables (types : TypeMapping) (ret : Ty) (names : Names) (stmts : List Stmt)
    (ty : Ty) : Prop :=
  ∃ decl, Stmt.IntroducesAny types ret names stmts decl ty

variable (env : Environment)

/-- An expression statement introduces no variable, so that the builder is never to blame for it.
Its value is dropped: a call that gives none passes here. -/
theorem expression_foretold (local_ : s.Local scope) (expr : Expr) (span : FileSpan) :
    Foretold (statementProgress scope P) s
      ((Stmt.expression expr span).typing env.types s.builder.returnTy (s.names scope))
      (fun names _ t => s.After scope (Stmt.expression expr span).closes names t)
      (lowerStmt env scope (.expression expr span) s) := by
  have value := (lowerExpr_expected scope env expr s local_.toReady).inStatement (P := P)
    local_.inside
  cases expr with
  | call callee args callSpan =>
    rw [Stmt.typing, lowerStmt, Stmt.closes]
    · have target := lowerExpr_expected scope env callee s local_.toReady
      refine Foretold.bind (target.inStatement local_.inside) fun kind value t _ done => ?_
      obtain ⟨emits, stands⟩ := done
      have local' := emits.local local_
      rw [← emits.names local_.sound scope]
      have called := applied_expected env local'.toReady callee stands args callSpan
        fun u params ready count => lowerArgs_expected scope env args params u ready count
      refine (called.inStatement local'.inside).discard (fun _ => t.names scope)
        fun signature result u _ done => ?_
      exact (done.1.after local').of_emits emits local_
    all_goals simp
  | _ =>
    rw [Stmt.typing, lowerStmt, Stmt.closes]
    · exact value.discard (fun _ => s.names scope) fun kind value t _ done => done.1.after local_
    all_goals simp

/-- A conditional ends as the judgement foretells where each of its branches does, from
whatever state it is lowered in. -/
theorem ifElse_foretold (local_ : s.Local scope) (condition : Expr) {thenBranch : Stmt}
    {elseBranch : Option Stmt} (span : FileSpan)
    (thenRun : ∀ u, u.Local scope →
      Foretold (statementProgress scope
          (thenBranch.Variables env.types u.builder.returnTy (u.names scope))) u
        (thenBranch.typing env.types u.builder.returnTy (u.names scope))
        (fun names _ v => u.After scope thenBranch.closes names v)
        (lowerStmt env scope thenBranch u))
    (elseRun : ∀ u, u.Local scope →
      Foretold (statementProgress scope
          (Stmt.OptionalVariables env.types u.builder.returnTy (u.names scope) elseBranch)) u
        (Stmt.typingOptional env.types u.builder.returnTy (u.names scope) elseBranch)
        (fun names _ v => u.After scope (elseBranch.any Stmt.closes) names v)
        (lowerOptional env scope elseBranch u)) :
    Foretold (statementProgress scope
        ((Stmt.ifElse condition thenBranch elseBranch span).Variables env.types
          s.builder.returnTy (s.names scope))) s
      ((Stmt.ifElse condition thenBranch elseBranch span).typing env.types s.builder.returnTy
        (s.names scope))
      (fun names _ t =>
        s.After scope (Stmt.ifElse condition thenBranch elseBranch span).closes names t)
      (lowerStmt env scope (.ifElse condition thenBranch elseBranch span) s) := by
  rw [Stmt.typing, lowerStmt, Stmt.closes]
  · refine Foretold.bind (lowerCondition_foretold env local_ condition).noting
      fun _ cond t done noted => ?_
    obtain ⟨tested, emits, kind, stands, bool⟩ := noted
    have local' := emits.local local_
    obtain ⟨block, selected⟩ := local'.selected
    have typed : t.builder.function.operandTy cond = .ok .bool :=
      bool ▸ operandTy_of_kind stands.kind
    have returns : t.builder.returnTy = s.builder.returnTy := emits.builder.function.returnTy
    refine Eq.mpr (congrArg _ (fork_run selected typed fun thenBlock elseBlock endBlock => do
      lowerBranch thenBlock endBlock (lowerStmt env scope thenBranch)
      lowerBranch elseBlock endBlock (lowerOptional env scope elseBranch)
      LowerBody.emit_ (·.positionAtEnd endBlock))) ?_
    -- the condition has bound nothing: the branches are judged by the names from before it
    rw [← emits.names local_.sound, ← returns]
    rw [← emits.names local_.sound] at tested
    have elseBlames : ∀ names,
        thenBranch.typing env.types t.builder.returnTy (t.names scope) = some names →
        ∀ ty, Stmt.OptionalVariables env.types t.builder.returnTy names elseBranch ty →
          (Stmt.ifElse condition thenBranch elseBranch span).Variables env.types
            t.builder.returnTy (t.names scope) ty := by
      rintro names passed ty ⟨stmt, rfl, decl, within⟩
      exact ⟨decl, .elseBranch tested passed within⟩
    exact (branches_foretold local' selected typed
      (fun names => thenBranch.typing env.types t.builder.returnTy names)
      (fun names => Stmt.typingOptional env.types t.builder.returnTy names elseBranch)
      (fun names => thenBranch.Variables env.types t.builder.returnTy names)
      (fun names => Stmt.OptionalVariables env.types t.builder.returnTy names elseBranch)
      (fun ty ⟨decl, within⟩ => ⟨decl, .thenBranch tested within⟩) elseBlames
      (fun u local'' same => same ▸ thenRun u local'')
      (fun u local'' same => same ▸ elseRun u local'')).weaken
        fun names _ u _ after => after.of_emits emits local_
  all_goals simp

mutual

/-- Lowering a statement ends as the judgement foretells, and the builder is to blame for a
variable alone. -/
theorem lowerStmt_foretold : ∀ (stmt : Stmt) (scope : ScopeId) (s : BodyState), s.Local scope →
    Foretold (statementProgress scope
        (stmt.Variables env.types s.builder.returnTy (s.names scope))) s
      (stmt.typing env.types s.builder.returnTy (s.names scope))
      (fun names _ t => s.After scope stmt.closes names t) (lowerStmt env scope stmt s)
  | .block stmts span, scope, s, local_ => by
    rw [Stmt.typing, lowerStmt, Stmt.closes]
    refine inScope_foretold local_ ?_
    rw [← BodyState.names_entered local_.sound local_.inside]
    exact (lowerStmts_foretold stmts s.home (s.entered scope) local_.entered).blaming
      fun ty ⟨decl, within⟩ => ⟨decl, .block within⟩
  | .expression expr span, scope, s, local_ => expression_foretold env local_ expr span
  | .ifElse condition thenBranch elseBranch span, scope, s, local_ =>
    ifElse_foretold env local_ condition span (lowerStmt_foretold thenBranch scope)
      (lowerOptional_foretold elseBranch scope)
  | .ret value span, scope, s, local_ => by
    rw [Stmt.typing, lowerStmt, Stmt.closes]
    exact lowerReturn_foretold env local_ value span
  | .vars kind declarators span, scope, s, local_ => by
    rw [Stmt.typing, lowerStmt, Stmt.closes]
    · refine (lowerDeclarators_foretold env kind declarators local_).blaming ?_
      rintro ty ⟨before, decl, after, inner, rfl, typed, mutability, type⟩
      exact ⟨decl, .vars typed mutability type⟩
    all_goals simp
  | .whileLoop .., _, _, local_ | .breakLoop .., _, _, local_ | .continueLoop .., _, _, local_
  | .empty .., _, _, local_ => by
    rw [Stmt.typing, lowerStmt, Stmt.closes]
    · exact skip_foretold local_ _ _
    all_goals simp

theorem lowerOptional_foretold : ∀ (stmt : Option Stmt) (scope : ScopeId) (s : BodyState),
    s.Local scope →
    Foretold (statementProgress scope
        (Stmt.OptionalVariables env.types s.builder.returnTy (s.names scope) stmt)) s
      (Stmt.typingOptional env.types s.builder.returnTy (s.names scope) stmt)
      (fun names _ t => s.After scope (stmt.any Stmt.closes) names t)
      (lowerOptional env scope stmt s)
  | none, scope, s, local_ => by
    rw [Stmt.typingOptional, lowerOptional]
    exact Foretold.ok ⟨.refl local_.inside, .refl _⟩ local_.refl
  | some stmt, scope, s, local_ => by
    rw [Stmt.typingOptional, lowerOptional]
    exact (lowerStmt_foretold stmt scope s local_).blaming fun ty blames => ⟨stmt, rfl, blames⟩

/-- Statements are lowered up to the first that closes. -/
theorem lowerStmts_foretold : ∀ (stmts : List Stmt) (scope : ScopeId) (s : BodyState),
    s.Local scope →
    Foretold (statementProgress scope
        (Stmt.AnyVariables env.types s.builder.returnTy (s.names scope) stmts)) s
      (Stmt.typings env.types s.builder.returnTy (s.names scope) stmts)
      (fun names _ t => s.After scope (Stmt.anyCloses stmts) names t)
      (lowerStmts env scope stmts s)
  | [], scope, s, local_ => by
    rw [Stmt.typings, lowerStmts, Stmt.anyCloses]
    exact Foretold.ok ⟨.refl local_.inside, .refl _⟩ local_.refl
  | stmt :: rest, scope, s, local_ => by
    rw [Stmt.typings, lowerStmts, Stmt.anyCloses, bind_run, LowerBody.builder_run]
    simp only [local_.refl.closed, Bool.false_eq_true, if_false]
    have first := (lowerStmt_foretold stmt scope s local_).blaming
      (Q := Stmt.AnyVariables env.types s.builder.returnTy (s.names scope) (stmt :: rest))
      fun ty ⟨decl, within⟩ => ⟨decl, .here within⟩
    refine Foretold.bind first.noting fun names _ t done noted => ?_
    obtain ⟨typed, after⟩ := noted
    cases closes : stmt.closes with
    | true =>
      rw [closes] at after
      simp only [if_true, Bool.true_or]
      exact skipped_foretold env (done.1.contains local_.inside) after rest
    | false =>
      rw [closes] at after
      simp only [Bool.false_eq_true, if_false, Bool.false_or]
      have returns : t.builder.returnTy = s.builder.returnTy := done.2.returnTy
      have later := lowerStmts_foretold rest scope t (after.local local_ done.1)
      rw [after.names, returns] at later
      exact (later.weaken fun names _ u _ after' => after.trans after').blaming
        fun ty ⟨decl, within⟩ => ⟨decl, .later typed closes within⟩

end

end SsaLowering
