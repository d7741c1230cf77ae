/-
# SsaLowering.Proofs.Meaning.Expression -- lowered expressions have their values

Over the code that was emitted for an expression, a machine that matches a run of the
source program goes on as the expression does: it makes the same calls and stores, and
what the expression was lowered to is its value (`lowerExpr_passes`).
-/
import SsaLowering.Proofs.Meaning.Matching

namespace SsaLowering

set_option autoImplicit false

open Ir (Ty Module Function Builder ValueId BlockId Operand Action Machine)
open Ir.Machine (Passes Has)

variable {m : Module} {world : World} {f : Function} {scope : ScopeId} {env : Environment}
  {s t u : BodyState} {c d : Machine} {homes : List ValueId} {frames : Frames}
  {memory memory' : Memory}

/-! ## Values -/

/-- What an expression was lowered to has its value: an operand that the machine can read, or
the variable that the expression names. -/
def ExprValue.Denotes (m : Module) (homes : List ValueId) (frames : Frames) (expr : Expr)
    (s : BodyState) (c : Machine) (memory : Memory) (value : Value) : ExprValue → Prop
  | direct operand => Has m s c operand value
  | slot home => ∃ i, frames.target? expr = some i ∧ homes[i]? = some home.ptr ∧
      memory.cells[i]? = some value

/-- What naming a variable gives. -/
theorem Expr.eval_of_target {expr : Expr} {i : Nat} (target : frames.target? expr = some i) :
    expr.eval world frames memory = (memory.cells[i]?).map (·, memory) := by
  cases expr with
  | identifier name span =>
    simp only [Frames.target?] at target
    split at target
    · rename_i here
      cases target
      rw [Expr.eval, Frames.read?, here]
    · cases target
  | _ => cases target

/-- A name is lowered to what it is bound to, which has the value of the name. -/
theorem lowerIdentifier_denotes (world : World) (agrees : Agrees m homes s scope c frames)
    (holds : c.Holds f homes s.count memory) {name : Symbol} (span : FileSpan) {value : ExprValue}
    (found : s.context.scopes.resolve scope name = some value.bound) :
    ∃ v, (Expr.identifier name span).eval world frames memory = some (v, memory) ∧
      value.Denotes m homes frames (.identifier name span) s c memory v := by
  obtain ⟨meaning, here, means⟩ := agrees name _ found
  cases value with
  | direct operand =>
    cases means with
    | value has => exact ⟨_, by rw [Expr.eval, Frames.read?, here]; rfl, has⟩
  | slot home =>
    cases means with
    | @cell _ i place =>
      obtain ⟨v, known, -⟩ := holds.read? place
      refine ⟨v, by rw [Expr.eval, Frames.read?, here]; simp only [known, Option.map_some], i, ?_,
        place, known⟩
      rw [Frames.target?, here]

/-- A member of a namespace is a function. -/
theorem lowerMember_denotes (world : World) (memory : Memory)
    (agrees : Agrees m homes s scope c frames) {name property : Symbol} (span span' : FileSpan)
    {inner : ScopeId} {value : ExprValue}
    (found : s.context.scopes.resolve scope name = some (.namespace_ inner))
    (member : s.context.scopes.lookupIn inner property = some value.bound) :
    ∃ v, (Expr.member (.identifier name span') property span).eval world frames memory =
        some (v, memory) ∧
      value.Denotes m homes frames (.member (.identifier name span') property span) s c
        memory v := by
  obtain ⟨meaning, here, means⟩ := agrees name _ found
  cases means with
  | @namespace_ _ members named offers =>
    rcases offers property _ member with ⟨id, same, known⟩ | ⟨other, same⟩
    · cases value with
      | direct operand =>
        cases same
        refine ⟨.function id, ?_, rfl, nofun⟩
        rw [Expr.eval, Frames.member?, here]
        simp only [known, Option.map_some]
      | slot home => cases same
    · cases value <;> cases same

/-- A string literal is the bytes of its global. -/
theorem lowerString_has {text : String} {ty : Ir.StructTy}
    (within : t.Within m f)
    (globals : t.context.module.globals =
      s.context.module.globals ++
        [⟨Module.globalName s.context.module.globals.length, text.toUTF8.toList, true⟩]) :
    Has m t c (.constant (.struct ty [.global ⟨s.context.module.globals.length⟩,
      .int 32 text.toUTF8.toList.length])) (.string text.toUTF8.toList) := by
  refine ⟨?_, nofun⟩
  obtain ⟨more, whole⟩ := within.globals
  have known : m.global? ⟨s.context.module.globals.length⟩ =
      some ⟨Module.globalName s.context.module.globals.length, text.toUTF8.toList, true⟩ := by
    rw [Module.global?, ← whole, globals]
    simp
  simp only [Ir.Machine.read, Ir.Constant.read, known, Option.map_some, Int.toNat_natCast,
    List.take_length]

/-! ## Operands -/

/-- A machine that follows the source program goes over the code of the expression as the
expression goes. -/
def Expr.Faithful (m : Module) (world : World) (f : Function) (homes : List ValueId)
    (env : Environment) (expr : Expr) : Prop :=
  ∀ {scope : ScopeId} {s t : BodyState} {value : ExprValue} {frames : Frames} {memory : Memory}
    {c : Machine}, s.Ready scope → lowerExpr env scope expr s = .ok value t → t.Within m f →
      Follows m f homes s scope frames memory c →
        ∃ v memory' d, expr.eval world frames memory = some (v, memory') ∧
          Passes m world f homes s c t memory' d ∧ value.Denotes m homes frames expr t d memory' v

/-- A variable is read where its value is needed. -/
theorem read_passes {expr : Expr} {value : ExprValue} {v : Value} {operand : Operand}
    (denotes : value.Denotes m homes frames expr s c memory v)
    (matches_ : c.Matches f homes s memory) (run : value.read s = .ok operand t)
    (within : t.Within m f) : ∃ d, Passes m world f homes s c t memory d ∧ Has m t d operand v := by
  have opened := read_ok run
  cases value with
  | direct given =>
    obtain ⟨rfl, rfl⟩ := opened
    exact ⟨c, .refl matches_, denotes⟩
  | slot home =>
    obtain ⟨block, ty, selected, rfl, rfl⟩ := opened
    obtain ⟨i, -, place, known⟩ := denotes
    exact matches_.load world selected within place known

/-- The operand of an expression has its value. -/
theorem evaluate_passes {expr : Expr} (faithful : expr.Faithful m world f homes env)
    {operand : Operand} (ready : s.Ready scope) (run : evaluate env scope expr s = .ok operand t)
    (within : t.Within m f) (follows : Follows m f homes s scope frames memory c) :
    ∃ v memory' d, expr.eval world frames memory = some (v, memory') ∧
      Passes m world f homes s c t memory' d ∧ Has m t d operand v := by
  obtain ⟨value, u, lowered, read⟩ := evaluate_ok.1 run
  obtain ⟨emits, kind, stands⟩ := lowerExpr_stands ready lowered
  obtain ⟨-, -, emits', -⟩ := (read_expected (emits.ready ready) stands).of_ok read
  obtain ⟨v, memory', d, evaluates, passes, denotes⟩ :=
    faithful ready lowered (within.of_emits emits') follows
  obtain ⟨e, passes', has⟩ := read_passes denotes passes.matches_ read within
  exact ⟨v, memory', e, evaluates, passes.trans passes', has⟩

/-- Arguments are evaluated from left to right. -/
theorem lowerArgs_passes : ∀ {args : List Expr} {params : List Ty} {s t : BodyState}
    {operands : List Operand} {memory : Memory} {c : Machine},
    (∀ arg ∈ args, arg.Faithful m world f homes env) → s.Ready scope →
      args.length = params.length → lowerArgs env scope args params s = .ok operands t →
        t.Within m f → Follows m f homes s scope frames memory c →
          ∃ values memory' d, Expr.evals world frames args memory = some (values, memory') ∧
            Passes m world f homes s c t memory' d ∧ List.Forall₂ (Has m t d) operands values
  | [], params, s, t, operands, memory, c, _, _, _, run, _, follows => by
    rw [lowerArgs] at run
    · cases run
      exact ⟨[], memory, c, by rw [Expr.evals], .refl follows.matches_, .nil⟩
    · simp
  | arg :: args, param :: params, s, t, operands, memory, c, faithful, ready, count, run, within,
      follows => by
    obtain ⟨operand, u, rest, evaluated, lowered, rfl⟩ := lowerArgs_cons_ok run
    have emits := (evaluate_stands ready evaluated).1
    have ready' := emits.ready ready
    obtain ⟨-, -, emits', -⟩ :=
      (lowerArgs_expected scope env args params u ready' (Nat.succ.inj count)).of_ok lowered
    obtain ⟨v, memory', d, evaluates, passes, has⟩ :=
      evaluate_passes (faithful arg List.mem_cons_self) ready evaluated (within.of_emits emits')
        follows
    obtain ⟨values, memory'', e, evaluates', passes', has'⟩ :=
      lowerArgs_passes (fun arg member => faithful arg (List.mem_cons_of_mem _ member)) ready'
        (Nat.succ.inj count) lowered within (follows.passes passes emits.scopes)
    refine ⟨v :: values, memory'', e, ?_, passes.trans passes', .cons (has.passes passes') has'⟩
    rw [Expr.evals]
    simp only [evaluates, evaluates', bind, Option.bind_some]

/-- A call is made when its callee and its arguments are known. -/
theorem lowerCall_passes {callee : Expr} {args : List Expr}
    (faithful : callee.Faithful m world f homes env)
    (arguments : ∀ arg ∈ args, arg.Faithful m world f homes env) {target : ExprValue}
    {result : Option Operand} {span : FileSpan} (ready : s.Ready scope)
    (lowered : lowerExpr env scope callee s = .ok target u)
    (run : lowerCall env callee target args.length (lowerArgs env scope args) span u =
      .ok result t) (within : t.Within m f) (follows : Follows m f homes s scope frames memory c) :
    ∃ v memory' d, (Expr.call callee args span).eval world frames memory = some (v, memory') ∧
      Passes m world f homes s c t memory' d ∧
      ∀ operand, result = some operand → Has m t d operand v := by
  obtain ⟨emits, kind, stands⟩ := lowerExpr_stands ready lowered
  have ready' := emits.ready ready
  obtain ⟨id, params, operands, w, block, ty, rfl, count, given, selected, rfl, rfl⟩ :=
    lowerCall_ok run
  obtain ⟨-, -, emits', -⟩ :=
    (lowerArgs_expected scope env args params u ready' count).of_ok given
  have pushed : w.Within m f :=
    within.congr (Builder.extends_push_open selected (.call id operands) ty) rfl
  obtain ⟨v, memory', d, evaluates, passes, has⟩ :=
    faithful ready lowered (pushed.of_emits emits') follows
  obtain ⟨values, memory'', e, evaluates', passes', has'⟩ :=
    lowerArgs_passes arguments ready' count given pushed (follows.passes passes emits.scopes)
  obtain rfl : .function id = v := Option.some.inj has.reads
  obtain ⟨last, passes'', results⟩ := passes'.matches_.call world selected within has'
  refine ⟨_, _, last, ?_, (passes.trans passes').trans passes'', results⟩
  rw [Expr.eval]
  simp only [evaluates, evaluates', bind, Option.bind_some]

/-- An assignment stores the value in the variable, which is the value of the assignment. -/
theorem lowerAssign_passes {lhs rhs : Expr} {span : FileSpan} {home : StackSlot} {stored : Operand}
    {v : BodyState} {block : BlockId} (target : lhs.Faithful m world f homes env)
    (faithful : rhs.Faithful m world f homes env) (ready : s.Ready scope)
    (lowered : lowerExpr env scope lhs s = .ok (.slot home) u)
    (evaluated : evaluate env scope rhs u = .ok stored v) (selected : v.builder.Open block)
    (within : (v.push block (.store stored (.value home.ptr)) none).Within m f)
    (follows : Follows m f homes s scope frames memory c) :
    ∃ value memory' d,
      (Expr.binary .assign lhs rhs span).eval world frames memory = some (value, memory') ∧
        Passes m world f homes s c (v.push block (.store stored (.value home.ptr)) none) memory' d ∧
        Has m (v.push block (.store stored (.value home.ptr)) none) d stored value := by
  have emits := (lowerExpr_stands ready lowered).1
  have emits' := (evaluate_stands (emits.ready ready) evaluated).1
  have open_ : v.Within m f := within.congr (Builder.extends_push_open selected _ none) rfl
  obtain ⟨value, memory', d, evaluates, passes, i, named, place, -⟩ :=
    target ready lowered (open_.of_emits emits') follows
  -- naming the variable does nothing
  obtain rfl : memory' = memory := by
    rw [Expr.eval_of_target named] at evaluates
    obtain ⟨_, -, same⟩ := Option.map_eq_some_iff.1 evaluates
    exact (Prod.mk.inj same).2.symm
  obtain ⟨value, memory', e, evaluates, passes', has⟩ := evaluate_passes faithful
    (emits.ready ready) evaluated open_ (follows.passes passes emits.scopes)
  obtain ⟨last, passes''⟩ := passes'.matches_.store world selected within place has
  refine ⟨value, _, last, ?_, (passes.trans passes').trans passes'', has.passes passes''⟩
  rw [Expr.eval]
  simp only [named, evaluates, bind, Option.bind_some]

/-- An addition adds its operands from left to right. -/
theorem lowerAdd_passes {lhs rhs : Expr} {span : FileSpan} {left right : Operand}
    {v : BodyState} {block : BlockId} {ty : Ty} (first : lhs.Faithful m world f homes env)
    (second : rhs.Faithful m world f homes env) (ready : s.Ready scope)
    (evaluated : evaluate env scope lhs s = .ok left u)
    (evaluated' : evaluate env scope rhs u = .ok right v) (selected : v.builder.Open block)
    (within : (v.push block (.fadd left right) (some ty)).Within m f)
    (follows : Follows m f homes s scope frames memory c) :
    ∃ value memory' d,
      (Expr.binary .add lhs rhs span).eval world frames memory = some (value, memory') ∧
        Passes m world f homes s c (v.push block (.fadd left right) (some ty)) memory' d ∧
        Has m (v.push block (.fadd left right) (some ty)) d (.value ⟨v.count⟩) value := by
  have emits := (evaluate_stands ready evaluated).1
  have emits' := (evaluate_stands (emits.ready ready) evaluated').1
  have open_ : v.Within m f := within.congr (Builder.extends_push_open selected _ (some ty)) rfl
  obtain ⟨a, memory', d, evaluates, passes, has⟩ :=
    evaluate_passes first ready evaluated (open_.of_emits emits') follows
  obtain ⟨b, memory'', e, evaluates', passes', has'⟩ := evaluate_passes second
    (emits.ready ready) evaluated' open_ (follows.passes passes emits.scopes)
  obtain ⟨last, passes'', sum⟩ :=
    passes'.matches_.add world selected within (has.passes passes') has'
  refine ⟨_, memory'', last, ?_, (passes.trans passes').trans passes'', sum⟩
  rw [Expr.eval]
  simp only [evaluates, evaluates', bind, Option.bind_some]

/-! ## Expressions -/

mutual

/-- The code of an expression does what the expression does. -/
theorem lowerExpr_faithful (m : Module) (world : World) (f : Function) (homes : List ValueId)
    (env : Environment) : ∀ expr : Expr, expr.Faithful m world f homes env
  | .identifier name span, scope, s, t, value, frames, memory, c, ready, run, within, follows => by
    rw [lowerExpr] at run
    obtain ⟨found, rfl⟩ := lowerIdentifier_ok ready.inside run
    obtain ⟨v, evaluates, denotes⟩ :=
      lowerIdentifier_denotes world follows.agrees follows.matches_.holds span found
    exact ⟨v, memory, c, evaluates, .refl follows.matches_, denotes⟩
  | .member object property span, scope, s, t, value, frames, memory, c, ready, run, within,
      follows => by
    rw [lowerExpr] at run
    obtain ⟨name, span', inner, rfl, found, member, rfl⟩ := lowerMember_ok ready run
    obtain ⟨v, evaluates, denotes⟩ :=
      lowerMember_denotes world memory follows.agrees span span' found member
    exact ⟨v, memory, c, evaluates, .refl follows.matches_, denotes⟩
  | .call callee args span, scope, s, t, value, frames, memory, c, ready, run, within,
      follows => by
    obtain ⟨target, u, operand, lowered, called, rfl⟩ := lowerExpr_call_ok run
    obtain ⟨v, memory', d, evaluates, passes, has⟩ :=
      lowerCall_passes (lowerExpr_faithful m world f homes env callee)
        (lowerArgs_faithful m world f homes env args) ready lowered called within follows
    exact ⟨v, memory', d, evaluates, passes, has operand rfl⟩
  | .binary op lhs rhs span, scope, s, t, value, frames, memory, c, ready, run, within,
      follows => by
    rcases lowerExpr_binary_ok run with rfl | rfl
    · obtain ⟨home, u, stored, v, block, lowered, evaluated, selected, rfl, rfl⟩ :=
        lowerExpr_assign_ok run
      exact lowerAssign_passes (lowerExpr_faithful m world f homes env lhs)
        (lowerExpr_faithful m world f homes env rhs) ready lowered evaluated selected within follows
    · obtain ⟨left, u, right, v, block, ty, evaluated, evaluated', selected, rfl, rfl⟩ :=
        lowerExpr_add_ok run
      exact lowerAdd_passes (lowerExpr_faithful m world f homes env lhs)
        (lowerExpr_faithful m world f homes env rhs) ready evaluated evaluated' selected within
        follows
  | .bool literal span, scope, s, t, value, frames, memory, c, ready, run, within, follows => by
    rw [lowerExpr] at run
    cases run
    exact ⟨.bool literal, memory, c, by rw [Expr.eval], .refl follows.matches_, rfl, nofun⟩
  | .number literal span, scope, s, t, value, frames, memory, c, ready, run, within, follows => by
    rw [lowerExpr] at run
    cases run
    exact ⟨.number literal, memory, c, by rw [Expr.eval], .refl follows.matches_, rfl, nofun⟩
  | .string text span, scope, s, t, value, frames, memory, c, ready, run, within, follows => by
    rw [lowerExpr] at run
    obtain ⟨ty, -, rfl, rfl⟩ := lowerString_ok run
    refine ⟨.string text.toUTF8.toList, memory, c, by rw [Expr.eval], ?_,
      lowerString_has within rfl⟩
    exact ⟨.refl _ c, ⟨follows.matches_.at_.congr rfl rfl rfl rfl,
      follows.matches_.holds⟩, Nat.le_refl _⟩
  | .unary .., _, _, _, _, _, _, _, _, run, _, _ | .null .., _, _, _, _, _, _, _, _, run, _, _
  | .array .., _, _, _, _, _, _, _, _, run, _, _
  | .index .., _, _, _, _, _, _, _, _, run, _, _ => by
    rw [lowerExpr] at run
    cases run

theorem lowerArgs_faithful (m : Module) (world : World) (f : Function) (homes : List ValueId)
    (env : Environment) : ∀ args : List Expr, ∀ arg ∈ args, arg.Faithful m world f homes env
  | [] => List.forall_mem_nil _
  | arg :: args => List.forall_mem_cons.2
      ⟨lowerExpr_faithful m world f homes env arg, lowerArgs_faithful m world f homes env args⟩

end

end SsaLowering
