/-
# SsaLowering.Proofs.Lower.Opened -- successful runs, one construct at a time

What a run of `lowerStmt` that succeeds has done, in terms of the primitive changes
of a body: code at the end of the current block, a new slot, a binding, the end of a
block, a scope entered and left, a fork.  Every lemma opens one construct, and
leaves the runs of its parts as they are.
-/
import SsaLowering.Proofs.Lower.Body

namespace SsaLowering

set_option autoImplicit false

open Ir (Ty Builder ValueId BlockId Operand Terminator)

variable {s t u : BodyState} {scope : ScopeId} {env : Environment}

/-! ## Operands -/

/-- The operand of an expression. -/
def evaluate (env : Environment) (scope : ScopeId) (expr : Expr) : LowerBody Operand := do
  (← lowerExpr env scope expr).read

theorem evaluate_bind {α : Type} (env : Environment) (scope : ScopeId) (expr : Expr)
    (next : Operand → LowerBody α) :
    (do let operand ← (← lowerExpr env scope expr).read; next operand) =
      evaluate env scope expr >>= next := by
  funext s
  simp only [evaluate, bind_run]
  cases lowerExpr env scope expr s <;> rfl

theorem evaluate_ok {expr : Expr} {operand : Operand} :
    evaluate env scope expr s = .ok operand t ↔
      ∃ value u, lowerExpr env scope expr s = .ok value u ∧ value.read u = .ok operand t :=
  bind_ok

/-- The value of an expression stands for something, and only code was emitted for it. -/
theorem lowerExpr_stands (ready : s.Ready scope) {expr : Expr} {value : ExprValue}
    (run : lowerExpr env scope expr s = .ok value t) :
    s.Emits t ∧ ∃ kind, t.Stands value.bound kind := by
  obtain ⟨kind, -, emits, stands⟩ := (lowerExpr_expected scope env expr s ready).of_ok run
  exact ⟨emits, kind, stands⟩

/-- An operand stands for what its expression does, and only code was emitted for it. -/
theorem evaluate_stands (ready : s.Ready scope) {expr : Expr} {operand : Operand}
    (run : evaluate env scope expr s = .ok operand t) :
    s.Emits t ∧ ∃ kind, t.Stands (.direct operand) kind := by
  obtain ⟨value, u, lowered, read⟩ := evaluate_ok.1 run
  obtain ⟨emits, kind, stands⟩ := lowerExpr_stands ready lowered
  obtain ⟨kind', -, emits', stands'⟩ := (read_expected (emits.ready ready) stands).of_ok read
  exact ⟨emits.trans emits', kind', stands'⟩

/-! ## Names and literals -/

theorem toExprValue_ok {bound : BoundValue} {value : ExprValue} {name : String} {span : FileSpan}
    (run : bound.toExprValue name span s = .ok value t) : bound = value.bound ∧ t = s := by
  cases bound with
  | namespace_ inner => cases run
  | _ =>
    cases run
    exact ⟨rfl, rfl⟩

theorem lowerIdentifier_ok (inside : s.context.scopes.contains scope) {name : Symbol}
    {span : FileSpan} {value : ExprValue}
    (run : lowerIdentifier env scope name span s = .ok value t) :
    s.context.scopes.resolve scope name = some value.bound ∧ t = s := by
  rw [lowerIdentifier, bind_run, LowerBody.resolve_run, if_pos inside] at run
  cases found : s.context.scopes.resolve scope name with
  | none =>
    rw [found] at run
    cases run
  | some bound =>
    rw [found] at run
    obtain ⟨rfl, rfl⟩ := toExprValue_ok run
    exact ⟨rfl, rfl⟩

/-- A member is found in a namespace, where every name of a namespace leads to one. -/
theorem lowerMember_found (inside : s.context.scopes.contains scope)
    (named : ∀ other x inner, s.context.scopes.lookupIn other x = some (.namespace_ inner) →
      (s.context.scopes.name? inner).isSome)
    {object : Expr} {property : Symbol} {span : FileSpan} {value : ExprValue}
    (run : lowerMember env scope object property span s = .ok value t) :
    ∃ name span' inner, object = .identifier name span' ∧
      s.context.scopes.resolve scope name = some (.namespace_ inner) ∧
      s.context.scopes.lookupIn inner property = some value.bound ∧ t = s := by
  cases object with
  | identifier name span' =>
    replace run : (LowerBody.resolve scope name >>= _) s = .ok value t := run
    rw [bind_run, LowerBody.resolve_run, if_pos inside] at run
    cases found : s.context.scopes.resolve scope name with
    | none =>
      rw [found] at run
      cases run
    | some bound =>
      rw [found] at run
      cases bound with
      | namespace_ inner =>
        obtain ⟨home, -, here⟩ := ScopeTable.lookupIn_of_resolve found
        obtain ⟨given, named⟩ := Option.isSome_iff_exists.1 (named home name inner here)
        simp only [] at run
        rw [bind_run, LowerBody.lookupIn_run, if_pos (ScopeTable.contains_of_name? named)] at run
        cases member : s.context.scopes.lookupIn inner property with
        | none =>
          rw [member] at run
          cases run
        | some bound =>
          rw [member] at run
          obtain ⟨rfl, rfl⟩ := toExprValue_ok run
          exact ⟨name, span', inner, rfl, found, member, rfl⟩
      | _ => cases run
  | _ => cases run

theorem lowerMember_ok (ready : s.Ready scope) {object : Expr} {property : Symbol}
    {span : FileSpan} {value : ExprValue}
    (run : lowerMember env scope object property span s = .ok value t) :
    ∃ name span' inner, object = .identifier name span' ∧
      s.context.scopes.resolve scope name = some (.namespace_ inner) ∧
      s.context.scopes.lookupIn inner property = some value.bound ∧ t = s :=
  lowerMember_found ready.inside (fun other x _ here => ready.sound.valid other x _ here) run

/-- A string literal leaves its bytes in a new global, and has the type of strings. -/
theorem lowerString_ok {text : String} {span : FileSpan} {value : ExprValue}
    (run : lowerString env text span s = .ok value t) :
    ∃ ty, env.types.stringTy = Ir.StructTy.ty ty ∧ value = .direct (.constant (.struct ty
        [.global ⟨s.context.module.globals.length⟩, .int 32 text.toUTF8.toList.length])) ∧
      t = { s with context := { s.context with
        module := (s.context.module.addConstant text.toUTF8.toList).2 } } := by
  unfold lowerString at run
  cases string : env.types.stringTy with
  | struct name fields =>
    rw [string] at run
    simp only [] at run
    by_cases long : maxStringBytes < text.toUTF8.toList.length
    · simp only [long, if_true] at run
      cases run
    · simp only [long, if_false] at run
      cases run
      exact ⟨_, rfl, rfl, rfl⟩
  | _ =>
    rw [string] at run
    cases run

/-! ## Emissions -/

theorem emitValue_ok {action : Ir.Action} {id : ValueId}
    (run : LowerBody.emit (·.emitValue action) s = .ok id t) :
    ∃ block ty, s.builder.Open block ∧ id = ⟨s.builder.function.values.length⟩ ∧
      t = s.push block action (some ty) := by
  rw [LowerBody.emit_run] at run
  cases emitted : s.builder.emitValue action with
  | error cause =>
    rw [emitted] at run
    cases run
  | ok result =>
    obtain ⟨value, b⟩ := result
    rw [emitted] at run
    obtain ⟨block, ty, selected, -, rfl, rfl⟩ := Builder.emitValue_ok.1 emitted
    cases run
    exact ⟨block, ty, selected, rfl, rfl⟩

/-- A read of a variable is a load. -/
theorem read_ok {value : ExprValue} {operand : Operand} (run : value.read s = .ok operand t) :
    match value with
    | .direct given => operand = given ∧ t = s
    | .slot home => ∃ block ty, s.builder.Open block ∧
        operand = .value ⟨s.builder.function.values.length⟩ ∧
        t = s.push block (.load home.ty (.value home.ptr)) (some ty) := by
  cases value with
  | direct given =>
    cases run
    exact ⟨rfl, rfl⟩
  | slot home =>
    rw [ExprValue.read, bind_ok] at run
    obtain ⟨id, u, loaded, run⟩ := run
    obtain ⟨block, ty, selected, rfl, rfl⟩ := emitValue_ok loaded
    cases run
    exact ⟨block, ty, selected, rfl, rfl⟩

theorem operandTy_ok {operand : Operand} {ty : Ty}
    (run : LowerBody.operandTy operand s = .ok ty t) : t = s := by
  rw [LowerBody.operandTy, LowerBody.ask_run] at run
  split at run
  · cases run
    rfl
  · cases run

theorem assignmentTarget_ok {target : Expr} {value : ExprValue} {home : StackSlot}
    (run : assignmentTarget env target value s = .ok home t) : value = .slot home ∧ t = s := by
  unfold assignmentTarget at run
  split at run
  · cases run
    exact ⟨rfl, rfl⟩
  all_goals cases run

theorem store_run_ok {stored ptr : Operand} {a : Unit}
    (run : LowerBody.emit_ (·.store stored ptr) s = .ok a t) :
    ∃ block, s.builder.Open block ∧
      s.builder.function.checkAction none (.store stored ptr) = .ok none ∧
      t = s.push block (.store stored ptr) none := by
  rw [LowerBody.emitUnit_run] at run
  cases written : s.builder.store stored ptr with
  | error cause =>
    rw [written] at run
    cases run
  | ok b =>
    rw [written] at run
    obtain ⟨block, selected, checked, rfl⟩ := Builder.store_ok.1 written
    cases run
    exact ⟨block, selected, checked, rfl⟩

theorem assign_ok {home : StackSlot} {stored : Operand} {span : FileSpan} {value : ExprValue}
    (run : assign home stored span s = .ok value t) :
    value = .direct stored ∧ ∃ block, s.builder.Open block ∧
      t = s.push block (.store stored (.value home.ptr)) none := by
  rw [assign, bind_ok] at run
  obtain ⟨found, u, asked, run⟩ := run
  obtain rfl := operandTy_ok asked
  split at run
  · cases run
  · obtain ⟨a, v, written, run⟩ := bind_ok.1 run
    obtain ⟨block, selected, -, rfl⟩ := store_run_ok written
    cases run
    exact ⟨rfl, block, selected, rfl⟩

theorem add_ok {left right : Operand} {span : FileSpan} {value : ExprValue}
    (run : add left right span s = .ok value t) :
    ∃ block ty, s.builder.Open block ∧
      value = .direct (.value ⟨s.builder.function.values.length⟩) ∧
      t = s.push block (.fadd left right) (some ty) := by
  rw [add, bind_ok] at run
  obtain ⟨leftTy, u, asked, run⟩ := run
  obtain rfl := operandTy_ok asked
  rw [bind_ok] at run
  obtain ⟨rightTy, v, asked, run⟩ := run
  obtain rfl := operandTy_ok asked
  split at run
  · cases run
  · rw [bind_ok] at run
    obtain ⟨id, w, emitted, run⟩ := run
    obtain ⟨block, ty, selected, rfl, rfl⟩ := emitValue_ok emitted
    cases run
    exact ⟨block, ty, selected, rfl, rfl⟩

/-! ## Calls -/

theorem callTarget_ok {callee : Expr} {value : ExprValue} {id : Ir.FuncId}
    {signature : Ir.FunctionTy}
    (run : callTarget env callee value s = .ok (id, signature) t) :
    value = .direct (.function id) ∧ t = s := by
  cases value with
  | slot home => cases run
  | direct operand =>
    cases operand with
    | function target =>
      replace run : (LowerBody.context >>= _) s = .ok (id, signature) t := run
      rw [bind_run, LowerBody.context_run] at run
      cases known : s.context.module.signature? target with
      | none =>
        simp only [known] at run
        cases run
      | some found =>
        simp only [known] at run
        cases run
        exact ⟨rfl, rfl⟩
    | _ => cases run

/-- A call lowers its arguments and calls what its callee denotes. -/
theorem lowerCall_ok {callee : Expr} {value : ExprValue} {found : Nat}
    {args : List Ty → LowerBody (List Operand)} {span : FileSpan} {result : Option Operand}
    (run : lowerCall env callee value found args span s = .ok result t) :
    ∃ id params operands u block ty, value = .direct (.function id) ∧ found = params.length ∧
      args params s = .ok operands u ∧ u.builder.Open block ∧
      result = ty.map (fun _ => .value ⟨u.builder.function.values.length⟩) ∧
      t = u.push block (.call id operands) ty := by
  rw [lowerCall, bind_ok] at run
  obtain ⟨⟨id, signature⟩, u, target, run⟩ := run
  obtain ⟨rfl, rfl⟩ := callTarget_ok target
  simp only [] at run
  split at run
  · cases run
  · rename_i count
    obtain ⟨operands, v, lowered, run⟩ := bind_ok.1 run
    obtain ⟨called, w, emitted, run⟩ := bind_ok.1 run
    rw [LowerBody.emit_run] at emitted
    cases made : v.builder.call id signature operands with
    | error cause =>
      rw [made] at emitted
      cases emitted
    | ok made' =>
      obtain ⟨value, b⟩ := made'
      rw [made] at emitted
      obtain ⟨block, ty, selected, -, rfl, rfl⟩ := Builder.emit_ok.1 made
      cases emitted
      cases run
      refine ⟨id, signature.params, operands, v, block, ty, rfl, Classical.not_not.1 count,
        lowered, selected, ?_, rfl⟩
      cases ty <;> rfl

theorem lowerArgs_cons_ok {arg : Expr} {args : List Expr} {param : Ty} {params : List Ty}
    {operands : List Operand}
    (run : lowerArgs env scope (arg :: args) (param :: params) s = .ok operands t) :
    ∃ operand u rest, evaluate env scope arg s = .ok operand u ∧
      lowerArgs env scope args params u = .ok rest t ∧ operands = operand :: rest := by
  rw [lowerArgs, evaluate_bind, bind_ok] at run
  obtain ⟨operand, u, evaluated, run⟩ := run
  rw [bind_ok] at run
  obtain ⟨a, v, checked, run⟩ := run
  rw [bind_ok] at run
  obtain ⟨rest, x, lowered, run⟩ := run
  rw [checkArgument, bind_ok] at checked
  obtain ⟨found, w, asked, checked⟩ := checked
  obtain rfl := operandTy_ok asked
  split at checked
  · cases checked
  · cases checked
    cases run
    exact ⟨operand, _, rest, evaluated, lowered, rfl⟩

/-! ## Composite expressions -/

/-- A call in an expression has a value. -/
theorem lowerExpr_call_ok {callee : Expr} {args : List Expr} {span : FileSpan} {value : ExprValue}
    (run : lowerExpr env scope (.call callee args span) s = .ok value t) :
    ∃ target u operand, lowerExpr env scope callee s = .ok target u ∧
      lowerCall env callee target args.length (lowerArgs env scope args) span u =
        .ok (some operand) t ∧ value = .direct operand := by
  rw [lowerExpr, bind_ok] at run
  obtain ⟨target, u, lowered, run⟩ := run
  rw [bind_ok] at run
  obtain ⟨result, v, called, run⟩ := run
  cases result with
  | none => cases run
  | some operand =>
    cases run
    exact ⟨target, u, operand, lowered, called, rfl⟩

/-- Two operators are lowered. -/
theorem lowerExpr_binary_ok {op : BinaryOp} {lhs rhs : Expr} {span : FileSpan} {value : ExprValue}
    (run : lowerExpr env scope (.binary op lhs rhs span) s = .ok value t) :
    op = .assign ∨ op = .add := by
  cases op with
  | assign => exact Or.inl rfl
  | add => exact Or.inr rfl
  | _ =>
    rw [lowerExpr] at run
    · cases run
    all_goals simp

/-- An assignment evaluates its right side after its target, and has the value that it writes. -/
theorem lowerExpr_assign_ok {lhs rhs : Expr} {span : FileSpan} {value : ExprValue}
    (run : lowerExpr env scope (.binary .assign lhs rhs span) s = .ok value t) :
    ∃ home u stored v block, lowerExpr env scope lhs s = .ok (.slot home) u ∧
      evaluate env scope rhs u = .ok stored v ∧ v.builder.Open block ∧ value = .direct stored ∧
      t = v.push block (.store stored (.value home.ptr)) none := by
  rw [lowerExpr, bind_ok] at run
  obtain ⟨target, u, lowered, run⟩ := run
  rw [bind_ok] at run
  obtain ⟨home, u', found, run⟩ := run
  obtain ⟨rfl, rfl⟩ := assignmentTarget_ok found
  rw [evaluate_bind, bind_ok] at run
  obtain ⟨stored, v, evaluated, run⟩ := run
  obtain ⟨rfl, block, selected, rfl⟩ := assign_ok run
  exact ⟨home, _, stored, v, block, lowered, evaluated, selected, rfl, rfl⟩

/-- An addition evaluates its operands from left to right. -/
theorem lowerExpr_add_ok {lhs rhs : Expr} {span : FileSpan} {value : ExprValue}
    (run : lowerExpr env scope (.binary .add lhs rhs span) s = .ok value t) :
    ∃ left u right v block ty, evaluate env scope lhs s = .ok left u ∧
      evaluate env scope rhs u = .ok right v ∧ v.builder.Open block ∧
      value = .direct (.value ⟨v.builder.function.values.length⟩) ∧
      t = v.push block (.fadd left right) (some ty) := by
  rw [lowerExpr, evaluate_bind, bind_ok] at run
  obtain ⟨left, u, evaluated, run⟩ := run
  rw [evaluate_bind, bind_ok] at run
  obtain ⟨right, v, evaluated', run⟩ := run
  obtain ⟨block, ty, selected, rfl, rfl⟩ := add_ok run
  exact ⟨left, u, right, v, block, ty, evaluated, evaluated', selected, rfl, rfl⟩

/-! ## The end of a block -/

theorem terminate_run_ok {terminator : Terminator} {a : Unit} :
    LowerBody.emit_ (·.terminate terminator) s = .ok a t ↔
      ∃ block, s.builder.Open block ∧ s.builder.function.checkTerminator terminator = .ok () ∧
        t = s.rebuilt (s.builder.closed block terminator) := by
  rw [LowerBody.emitUnit_run]
  cases ended : s.builder.terminate terminator with
  | error cause =>
    refine ⟨fun run => ?_, fun ⟨block, selected, checked, _⟩ => ?_⟩
    · cases run
    · rw [Builder.terminate_ok.2 ⟨block, selected, checked, rfl⟩] at ended
      cases ended
  | ok b =>
    obtain ⟨block, selected, checked, rfl⟩ := Builder.terminate_ok.1 ended
    refine ⟨fun run => ?_, fun ⟨block', selected', _, same⟩ => ?_⟩
    · cases run
      exact ⟨block, selected, checked, rfl⟩
    · cases selected.current.symm.trans selected'.current
      rw [same]
      rfl

/-- What a return does before it ends its block: it evaluates its value, if it has one. -/
inductive BodyState.Returns (env : Environment) (scope : ScopeId) (s : BodyState) :
    Option Expr → Option Operand → BodyState → Prop
  | nothing : Returns env scope s none none s
  | value {expr : Expr} {operand : Operand} {u : BodyState}
      (run : evaluate env scope expr s = .ok operand u) :
      Returns env scope s (some expr) (some operand) u

theorem BodyState.Returns.emits {value : Option Expr} {operand : Option Operand}
    (returns : s.Returns env scope value operand t) (ready : s.Ready scope) : s.Emits t := by
  cases returns with
  | nothing => exact .refl s
  | value run => exact (evaluate_stands ready run).1

/-- A return ends the current block with its value. -/
theorem lowerReturn_ok {value : Option Expr} {span : FileSpan}
    (run : lowerReturn env scope value span s = .ok () t) :
    ∃ (u : BodyState) (operand : Option Operand) (block : BlockId), u.builder.Open block ∧
      u.builder.function.checkTerminator (.ret operand) = .ok () ∧
      t = u.rebuilt (u.builder.closed block (.ret operand)) ∧
      s.Returns env scope value operand u := by
  unfold lowerReturn at run
  rw [bind_run, LowerBody.builder_run] at run
  cases value with
  | none =>
    simp only [] at run
    split at run
    · cases run
    · obtain ⟨block, selected, checked, rfl⟩ := terminate_run_ok.1 run
      exact ⟨s, none, block, selected, checked, rfl, .nothing⟩
  | some expr =>
    simp only [] at run
    rw [evaluate_bind, bind_ok] at run
    obtain ⟨operand, u, evaluated, run⟩ := run
    rw [bind_ok] at run
    obtain ⟨found, v, asked, run⟩ := run
    obtain rfl : u = v := by
      rw [LowerBody.operandTy, LowerBody.ask_run] at asked
      split at asked
      · cases asked
        rfl
      · cases asked
    split at run
    · cases run
    · obtain ⟨block, selected, checked, rfl⟩ := terminate_run_ok.1 run
      exact ⟨u, some operand, block, selected, checked, rfl, .value evaluated⟩

/-- A condition is an operand of type `bool`. -/
theorem lowerCondition_ok {condition : Expr} {cond : Operand}
    (run : lowerCondition env scope condition s = .ok cond t) :
    evaluate env scope condition s = .ok cond t ∧
      t.builder.function.operandTy cond = .ok .bool := by
  unfold lowerCondition at run
  rw [evaluate_bind, bind_ok] at run
  obtain ⟨operand, u, evaluated, run⟩ := run
  rw [bind_ok] at run
  obtain ⟨found, v, asked, run⟩ := run
  rw [LowerBody.operandTy, LowerBody.ask_run] at asked
  split at asked
  · rename_i ty typed
    cases asked
    split at run
    · cases run
    · rename_i bool
      cases run
      exact ⟨evaluated, by rw [typed, Classical.not_not.1 bool]⟩
  · cases asked

/-! ## Variables -/

theorem declaredTy_ok {decl : Declarator} {declared : Option Ty}
    (run : declaredTy env decl s = .ok declared t) : t = s := by
  unfold declaredTy at run
  cases declares : decl.type with
  | none =>
    rw [declares] at run
    cases run
    rfl
  | some type =>
    cases image : env.types.resolve type with
    | ok ty =>
      simp only [declares, image] at run
      cases run
      rfl
    | error cause =>
      simp only [declares, image] at run
      cases run

theorem lowerInitializer_ok {declared : Option Ty} {expr : Expr} {operand : Operand} {ty : Ty}
    (run : lowerInitializer env scope declared expr s = .ok (operand, ty) t) :
    evaluate env scope expr s = .ok operand t := by
  unfold lowerInitializer at run
  rw [evaluate_bind, bind_ok] at run
  obtain ⟨operand', u, evaluated, run⟩ := run
  rw [bind_ok] at run
  obtain ⟨found, v, asked, run⟩ := run
  rw [LowerBody.operandTy, LowerBody.ask_run] at asked
  split at asked
  · cases asked
    cases declared with
    | none =>
      cases run
      exact evaluated
    | some expected =>
      simp only [] at run
      split at run
      · cases run
      · cases run
        exact evaluated
  · cases asked

/-- An initial value is the operand of the initializer. -/
theorem initialValue_ok {declared : Option Ty} {decl : Declarator} {init : Option (Operand × Ty)}
    (run : initialValue env scope declared decl s = .ok init t) :
    (decl.init = none ∧ init = none ∧ t = s) ∨
      ∃ expr operand ty, decl.init = some expr ∧ init = some (operand, ty) ∧
        evaluate env scope expr s = .ok operand t := by
  unfold initialValue at run
  cases absent : decl.init with
  | none =>
    rw [absent] at run
    cases run
    exact Or.inl ⟨rfl, rfl, rfl⟩
  | some expr =>
    rw [absent] at run
    simp only [] at run
    rw [map_run, bind_ok] at run
    obtain ⟨⟨operand, ty⟩, u, lowered, run⟩ := run
    cases run
    exact Or.inr ⟨expr, operand, ty, rfl, rfl, lowerInitializer_ok lowered⟩

/-- What a declarator does to a state. -/
inductive BodyState.Declares (env : Environment) (scope : ScopeId) (decl : Declarator)
    (s : BodyState) : Bool → BodyState → Prop
  /-- A constant is bound to the operand itself, which may take its name. -/
  | constant {expr : Expr} {operand : Operand} {u : BodyState} {b : Builder}
      (init : decl.init = some expr) (run : evaluate env scope expr s = .ok operand u)
      (grown : u.builder.function.Extends b.function)
      (ok : b.function.WellFormed u.context.module) (current : b.current = u.builder.current)
      (blocks : b.function.blocks = u.builder.function.blocks) :
      Declares env scope decl s false ((u.rebuilt b).bound scope decl.name (.direct operand))
  /-- A variable without an initial value gets a slot. -/
  | blank {ty : Ty} (init : decl.init = none) (sized : ty.isSized) :
      Declares env scope decl s true
        ((s.withSlot ty (env.name decl.name)).bound scope decl.name (.slot (s.nextSlot ty)))
  /-- A variable with an initial value gets a slot, to which the value is stored. -/
  | stored {expr : Expr} {operand : Operand} {u : BodyState} {ty : Ty} {block : BlockId}
      (init : decl.init = some expr) (run : evaluate env scope expr s = .ok operand u)
      (sized : ty.isSized)
      (selected : (u.withSlot ty (env.name decl.name)).builder.Open block)
      (checked : (u.withSlot ty (env.name decl.name)).builder.function.checkAction none
        (.store operand (.value (u.nextSlot ty).ptr)) = .ok none) :
      Declares env scope decl s true
        (((u.withSlot ty (env.name decl.name)).push block
          (.store operand (.value (u.nextSlot ty).ptr)) none).bound scope decl.name
            (.slot (u.nextSlot ty)))

theorem bindConstant_ok (local_ : s.Local scope) {decl : Declarator} {operand : Operand} {ty : Ty}
    (stands : ∃ kind, s.Stands (.direct operand) kind)
    (run : bindConstant env scope decl (some (operand, ty)) s = .ok () t) :
    ∃ b, s.builder.function.Extends b.function ∧ b.function.WellFormed s.context.module ∧
      b.current = s.builder.current ∧ b.function.blocks = s.builder.function.blocks ∧
      t = (s.rebuilt b).bound scope decl.name (.direct operand) := by
  have plain {operand : Operand}
      (run : (Functor.discard (LowerBody.outside (Lower.bind scope decl.name
        (.direct operand))) : LowerBody Unit) s = .ok () t) :
      ∃ b, s.builder.function.Extends b.function ∧ b.function.WellFormed s.context.module ∧
        b.current = s.builder.current ∧ b.function.blocks = s.builder.function.blocks ∧
        t = (s.rebuilt b).bound scope decl.name (.direct operand) := by
    rw [bindName_run local_.inside] at run
    cases run
    exact ⟨s.builder, .refl _, local_.sound.function, rfl, rfl, rfl⟩
  cases operand with
  | value id =>
    obtain ⟨kind, stands⟩ := stands
    obtain ⟨b, named, naming, grown, ok, current, blocks⟩ :=
      nameValue_run local_.sound stands.valid (env.name decl.name)
    have chained : bindConstant env scope decl (some (.value id, ty)) s =
        (Functor.discard (LowerBody.outside (Lower.bind scope decl.name
          (.direct (.value id)))) : LowerBody Unit) (s.rebuilt b) := by
      refine (bind_run (Functor.discard (LowerBody.emit _)) _ s).trans ?_
      rw [(discard_ok (u := ())).2 ⟨named, naming⟩]
    rw [chained, bindName_run (s := s.rebuilt b) local_.inside] at run
    cases run
    exact ⟨b, grown, ok, current, blocks, rfl⟩
  | constant c => exact plain run
  | function id => exact plain run

theorem alloca_ok (local_ : s.Local scope) {ty : Ty} {name : String} {ptr : ValueId}
    (run : LowerBody.emit (·.alloca ty name) s = .ok ptr t) :
    ty.isSized ∧ ptr = (s.nextSlot ty).ptr ∧ t = s.withSlot ty name := by
  by_cases sized : ty.isSized
  · rw [(alloca_run local_ ty name).1 sized] at run
    cases run
    exact ⟨sized, rfl, rfl⟩
  · rw [(alloca_run local_ ty name).2 sized] at run
    cases run

theorem bindVariable_ok (local_ : s.Local scope) {decl : Declarator} {declared : Option Ty}
    {init : Option (Operand × Ty)}
    (run : bindVariable env scope decl declared init s = .ok () t) :
    ∃ ty, ty.isSized ∧
      match init with
      | none => t = (s.withSlot ty (env.name decl.name)).bound scope decl.name
          (.slot (s.nextSlot ty))
      | some (operand, _) =>
        ∃ block, (s.withSlot ty (env.name decl.name)).builder.Open block ∧
          (s.withSlot ty (env.name decl.name)).builder.function.checkAction none
            (.store operand (.value (s.nextSlot ty).ptr)) = .ok none ∧
          t = ((s.withSlot ty (env.name decl.name)).push block
            (.store operand (.value (s.nextSlot ty).ptr)) none).bound scope decl.name
              (.slot (s.nextSlot ty)) := by
  unfold bindVariable at run
  cases chosen : declared <|> init.map (·.2) with
  | none =>
    rw [chosen] at run
    cases run
  | some ty =>
    rw [chosen] at run
    simp only [] at run
    rw [bind_ok] at run
    obtain ⟨ptr, u, reserved, run⟩ := run
    obtain ⟨sized, rfl, rfl⟩ := alloca_ok local_ reserved
    refine ⟨ty, sized, ?_⟩
    have inside : (s.withSlot ty (env.name decl.name)).context.scopes.contains scope :=
      local_.inside
    cases init with
    | none =>
      replace run : (Functor.discard (LowerBody.outside (Lower.bind scope decl.name _)) :
        LowerBody Unit) _ = .ok () t := run
      rw [bindName_run inside] at run
      cases run
      rfl
    | some init =>
      obtain ⟨operand, found⟩ := init
      replace run : (LowerBody.emit_ (·.store operand (.value (s.nextSlot ty).ptr)) >>= fun _ =>
        (Functor.discard (LowerBody.outside (Lower.bind scope decl.name
          (.slot (s.nextSlot ty)))) : LowerBody Unit)) _ = .ok () t := run
      rw [bind_ok] at run
      obtain ⟨a, v, stored, run⟩ := run
      obtain ⟨block, selected, checked, rfl⟩ := store_run_ok stored
      have bound := bindName_run (s := (s.withSlot ty (env.name decl.name)).push block
        (.store operand (.value (s.nextSlot ty).ptr)) none) inside decl.name
          (.slot (s.nextSlot ty))
      cases bound.symm.trans run
      exact ⟨block, selected, checked, rfl⟩

/-- A declarator that succeeds has evaluated its initial value and bound its name. -/
theorem lowerDeclarator_ok (local_ : s.Local scope) {kind : BindingKind} {decl : Declarator}
    (run : lowerDeclarator env scope kind decl s = .ok () t) :
    s.Declares env scope decl kind.isMutable t := by
  rw [lowerDeclarator_eq, bind_ok] at run
  obtain ⟨declared, u, typed, run⟩ := run
  obtain rfl := declaredTy_ok typed
  rw [bind_ok] at run
  obtain ⟨init, v, initialized, run⟩ := run
  cases mutability : kind.isMutable with
  | false =>
    rw [mutability] at run
    rcases initialValue_ok initialized with ⟨absent, rfl, rfl⟩ |
      ⟨expr, operand, ty, present, rfl, evaluated⟩
    · cases run
    · replace run : bindConstant env scope decl (some (operand, ty)) v = .ok () t := run
      obtain ⟨emits, stands⟩ := evaluate_stands local_.toReady evaluated
      obtain ⟨b, grown, ok, current, blocks, rfl⟩ :=
        bindConstant_ok (emits.local local_) stands run
      exact .constant present evaluated grown ok current blocks
  | true =>
    rw [mutability] at run
    rcases initialValue_ok initialized with ⟨absent, rfl, rfl⟩ |
      ⟨expr, operand, ty, present, rfl, evaluated⟩
    · obtain ⟨ty, sized, rfl⟩ := bindVariable_ok local_ run
      exact .blank absent sized
    · obtain ⟨emits, stands⟩ := evaluate_stands local_.toReady evaluated
      obtain ⟨ty, sized, block, selected, checked, rfl⟩ :=
        bindVariable_ok (emits.local local_) run
      exact .stored present evaluated sized selected checked

/-! ## Expressions as statements -/

/-- A call that stands as a statement may be one of a `void` function; any other expression is
lowered as it is elsewhere. -/
theorem expressionStatement_ok {expr : Expr} {span : FileSpan}
    (run : lowerStmt env scope (.expression expr span) s = .ok () t) :
    (∃ callee args span' target u result, expr = .call callee args span' ∧
      lowerExpr env scope callee s = .ok target u ∧
      lowerCall env callee target args.length (lowerArgs env scope args) span' u =
        .ok result t) ∨
    ∃ value, lowerExpr env scope expr s = .ok value t := by
  by_cases call : ∃ callee args span', expr = .call callee args span'
  · obtain ⟨callee, args, span', rfl⟩ := call
    rw [lowerStmt, bind_ok] at run
    obtain ⟨target, u, lowered, run⟩ := run
    obtain ⟨result, called⟩ := discard_ok.1 run
    exact Or.inl ⟨callee, args, span', target, u, result, rfl, lowered, called⟩
  · rw [lowerStmt] at run
    · exact Or.inr (discard_ok.1 run)
    · exact fun callee args span' same => call ⟨callee, args, span', same⟩

/-- An expression that stands as a statement leaves code. -/
theorem expressionStatement_emits (ready : s.Ready scope) {expr : Expr} {span : FileSpan}
    (run : lowerStmt env scope (.expression expr span) s = .ok () t) : s.Emits t := by
  rcases expressionStatement_ok run with
    ⟨callee, args, span', target, u, result, rfl, lowered, called⟩ | ⟨value, lowered⟩
  · obtain ⟨emits, kind, stands⟩ := lowerExpr_stands ready lowered
    have applied := applied_expected env (emits.ready ready) callee stands args span'
      fun v params ready count => lowerArgs_expected scope env args params v ready count
    obtain ⟨signature, -, emits', -⟩ := applied.of_ok called
    exact emits.trans emits'
  · exact (lowerExpr_stands ready lowered).1

/-! ## Blocks and conditionals -/

theorem block_ok (inside : s.context.scopes.contains scope) {stmts : List Stmt} {span : FileSpan}
    (run : lowerStmt env scope (.block stmts span) s = .ok () t) :
    ∃ u, lowerStmts env s.home stmts (s.entered scope) = .ok () u ∧ t = u.leave s.home := by
  rw [lowerStmt, inScope_eq _ inside] at run
  cases inner : lowerStmts env s.home stmts (s.entered scope) with
  | error failure u =>
    rw [inner] at run
    cases run
  | ok a u =>
    rw [inner] at run
    cases run
    exact ⟨u, rfl, rfl⟩

/-- Behind a block the names are those before it. -/
theorem block_spares (local_ : s.Local scope) {stmts : List Stmt}
    (inner : lowerStmts env s.home stmts (s.entered scope) = .ok () u) :
    s.context.Spares scope (u.leave s.home).context := by
  obtain ⟨names, -, done, -⟩ :=
    (lowerStmts_foretold env stmts s.home _ local_.entered).of_ok inner
  obtain ⟨grows, lookups⟩ := Context.Grows.leave rfl local_.inside done.1
  exact { grows with lookups := lookups }

/-- A branch ends the block it starts in, by itself or by a jump. -/
inductive BodyState.Falls (next : BlockId) (s : BodyState) : BodyState → Prop
  | ended (ended : s.builder.isTerminated = true) : Falls next s s
  | jumped {block : BlockId} (selected : s.builder.Open block)
      (checked : s.builder.function.checkTerminator (.br next) = .ok ()) :
      Falls next s (s.rebuilt (s.builder.closed block (.br next)))

theorem lowerBranch_ok {start next : BlockId} {work : LowerBody Unit}
    (view : s.builder.content start = some ([], none))
    (run : lowerBranch start next work s = .ok () t) :
    ∃ u, work (s.at_ start) = .ok () u ∧ u.Falls next t := by
  rw [lowerBranch, bind_run, positionAtEnd_run view] at run
  simp only [] at run
  rw [bind_ok] at run
  obtain ⟨a, u, branch, run⟩ := run
  refine ⟨u, branch, ?_⟩
  rw [bind_run, LowerBody.builder_run] at run
  simp only [] at run
  cases ended : u.builder.isTerminated with
  | true =>
    rw [ended] at run
    cases run
    exact .ended ended
  | false =>
    rw [ended] at run
    obtain ⟨block, selected, checked, rfl⟩ := terminate_run_ok.1 run
    exact .jumped selected checked

/-- The states of a conditional, from its condition to its last block. -/
structure BodyState.Forks (env : Environment) (scope : ScopeId) (condition : Expr)
    (thenBranch : Stmt) (elseBranch : Option Stmt) (s : BodyState) (cond : Operand)
    (block : BlockId) (u v v' w w' t : BodyState) : Prop where
  condition : evaluate env scope condition s = .ok cond u
  selected : u.builder.Open block
  typed : u.builder.function.operandTy cond = .ok .bool
  thenRun : lowerStmt env scope thenBranch ((u.fork block cond).at_ ⟨u.next⟩) = .ok () v
  thenFalls : v.Falls ⟨u.next + 2⟩ v'
  elseRun : lowerOptional env scope elseBranch (v'.at_ ⟨u.next + 1⟩) = .ok () w
  elseFalls : w.Falls ⟨u.next + 2⟩ w'
  last : t = w'.at_ ⟨u.next + 2⟩
  emits : s.Emits u
  thenLocal : ((u.fork block cond).at_ ⟨u.next⟩).Local scope
  thenDone : (statementProgress scope).Done ((u.fork block cond).at_ ⟨u.next⟩) v
  thenSound : v.Sound
  elseLocal : (v'.at_ ⟨u.next + 1⟩).Local scope
  elseDone : (statementProgress scope).Done (v'.at_ ⟨u.next + 1⟩) w
  elseSound : w.Sound
  branched : u.builder.Branched block cond v'.builder w'.builder

section Falls

variable {next : BlockId} (falls : s.Falls next t)
include falls

theorem BodyState.Falls.context : t.context = s.context := by
  cases falls <;> rfl

theorem BodyState.Falls.isTerminated : t.builder.isTerminated = true := by
  cases falls with
  | ended ended => exact ended
  | jumped selected checked => exact selected.isTerminated_closed _

theorem BodyState.Falls.advances : s.builder.Advances t.builder := by
  cases falls with
  | ended ended => exact .refl _
  | jumped selected checked => exact selected.advances_closed _

theorem BodyState.Falls.sound (sound : s.Sound) : t.Sound := by
  cases falls with
  | ended ended => exact sound
  | jumped selected checked =>
    have grown := (selected.advances_closed (.br next)).function
    obtain ⟨-, data, known, unended⟩ := selected
    exact sound.rebuilt grown (Ir.Function.wellFormed_close sound.function known unended checked)

end Falls

theorem ifElse_ok (local_ : s.Local scope) {condition : Expr} {thenBranch : Stmt}
    {elseBranch : Option Stmt} {span : FileSpan}
    (run : lowerStmt env scope (.ifElse condition thenBranch elseBranch span) s = .ok () t) :
    ∃ cond block u v v' w w',
      s.Forks env scope condition thenBranch elseBranch cond block u v v' w w' t := by
  rw [lowerStmt] at run
  rw [bind_ok] at run
  obtain ⟨cond, u, evaluated, run⟩ := run
  obtain ⟨evaluated, typed⟩ := lowerCondition_ok evaluated
  have emits := (evaluate_stands local_.toReady evaluated).1
  have local' := emits.local local_
  obtain ⟨block, selected⟩ := local'.selected
  have forked := fork_run selected typed fun thenBlock elseBlock endBlock => do
    lowerBranch thenBlock endBlock (lowerStmt env scope thenBranch)
    lowerBranch elseBlock endBlock (lowerOptional env scope elseBranch)
    LowerBody.emit_ (·.positionAtEnd endBlock)
  replace run := forked.symm.trans run
  rw [bind_ok] at run
  obtain ⟨a, v', thenRun, run⟩ := run
  rw [bind_ok] at run
  obtain ⟨a', w', elseRun, run⟩ := run
  have sound := BodyState.fork_sound local'.sound selected typed
  have bound : block.index < u.next := by
    obtain ⟨-, data, known, -⟩ := selected
    exact Ir.Function.lt_of_block? known
  have thenView : (u.fork block cond).builder.content ⟨u.next⟩ = some ([], none) :=
    Builder.content_fork_new bound cond (Nat.le_refl _) (Nat.lt_add_of_pos_right (by decide))
  obtain ⟨v, thenRun, thenFalls⟩ := lowerBranch_ok thenView thenRun
  have thenLocal := BodyState.local_at sound local'.inside local'.unnamed thenView
  obtain ⟨names, -, thenDone, thenAfter⟩ :=
    (lowerStmt_foretold env thenBranch scope _ thenLocal).of_ok thenRun
  have first := thenAfter.advances.trans thenFalls.advances
  -- what the first branch adds leaves the second block of the fork empty, and the last one too
  have elseView : v'.builder.content ⟨u.next + 1⟩ = some ([], none) :=
    selected.content_else first (Nat.lt_succ_self _) (by simp [BodyState.next])
  obtain ⟨w, elseRun, elseFalls⟩ := lowerBranch_ok elseView elseRun
  have inside : v.context.scopes.contains scope := thenDone.1.contains local'.inside
  have unnamed := (thenDone.1.names scope).trans local'.unnamed
  rw [← thenFalls.context] at inside unnamed
  have elseLocal :=
    BodyState.local_at (thenFalls.sound thenAfter.sound) inside unnamed elseView
  obtain ⟨names', -, elseDone, elseAfter⟩ :=
    (lowerOptional_foretold env elseBranch scope _ elseLocal).of_ok elseRun
  have branched : u.builder.Branched block cond v'.builder w'.builder :=
    ⟨selected, first, thenFalls.isTerminated, elseAfter.advances.trans elseFalls.advances,
      elseFalls.isTerminated⟩
  have last : w'.builder.content ⟨u.next + 2⟩ = some ([], none) := branched.content_end
  rw [positionAtEnd_run last] at run
  cases run
  exact ⟨cond, block, u, v, v', w, w', evaluated, selected, typed, thenRun, thenFalls, elseRun,
    elseFalls, rfl, emits, thenLocal, thenDone, thenAfter.sound, elseLocal, elseDone,
    elseAfter.sound, branched⟩

/-! ## Lists of statements -/

theorem skip_ok {kind : SyntaxKind} {span : FileSpan} (run : skip kind span s = .ok () t) :
    t = { s with context := s.context.warn ⟨.unhandledSyntax kind, span⟩ } := by
  cases run
  rfl

/-- From an open block the first statement is lowered, and then the rest. -/
theorem lowerStmts_cons_ok (local_ : s.Local scope) {stmt : Stmt} {rest : List Stmt}
    (run : lowerStmts env scope (stmt :: rest) s = .ok () t) :
    ∃ u, lowerStmt env scope stmt s = .ok () u ∧ lowerStmts env scope rest u = .ok () t := by
  rw [lowerStmts, bind_run, LowerBody.builder_run] at run
  simp only [local_.refl.closed, Bool.false_eq_true, if_false] at run
  obtain ⟨a, u, first, run⟩ := bind_ok.1 run
  exact ⟨u, first, run⟩

/-- Behind a closed block nothing is lowered. -/
theorem lowerStmts_closed_ok (closed : s.builder.isTerminated = true) {stmts : List Stmt}
    (run : lowerStmts env scope stmts s = .ok () t) :
    ∃ journal, t = { s with context := { s.context with journal } } := by
  cases stmts with
  | nil =>
    rw [lowerStmts] at run
    cases run
    exact ⟨s.context.journal, rfl⟩
  | cons stmt rest =>
    rw [lowerStmts, bind_run, LowerBody.builder_run] at run
    simp only [closed, if_true] at run
    cases run
    exact ⟨_, rfl⟩

/-- Behind the first statement either its end has been met, or the rest is lowered. -/
theorem lowerStmts_cons_cases (local_ : s.Local scope) {stmt : Stmt} {rest : List Stmt}
    (run : lowerStmts env scope (stmt :: rest) s = .ok () t) :
    ∃ u, lowerStmt env scope stmt s = .ok () u ∧
      ((stmt.closes = true ∧ u.builder.isTerminated = true ∧
          ∃ journal, t = { u with context := { u.context with journal } }) ∨
        (stmt.closes = false ∧ u.Local scope ∧ lowerStmts env scope rest u = .ok () t)) := by
  obtain ⟨u, first, run⟩ := lowerStmts_cons_ok local_ run
  obtain ⟨names, -, done, after⟩ := (lowerStmt_foretold env stmt scope s local_).of_ok first
  refine ⟨u, first, ?_⟩
  cases closes : stmt.closes with
  | true =>
    rw [closes] at after
    exact Or.inl ⟨rfl, after.closed, lowerStmts_closed_ok after.closed run⟩
  | false =>
    rw [closes] at after
    exact Or.inr ⟨rfl, after.local local_ done.1, run⟩

theorem declarators_cons_ok {kind : BindingKind} {decl : Declarator} {rest : List Declarator}
    (run : (decl :: rest).forM (lowerDeclarator env scope kind) s = .ok () t) :
    ∃ u, lowerDeclarator env scope kind decl s = .ok () u ∧
      rest.forM (lowerDeclarator env scope kind) u = .ok () t := by
  obtain ⟨a, u, first, run⟩ := bind_ok.1 run
  exact ⟨u, first, run⟩

end SsaLowering
