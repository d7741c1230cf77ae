/-
# SsaLowering.Proofs.Lower.Reads -- what the code of an expression reads

The code that an expression leaves at the end of the current block reads from the
addresses of variables that are bound to a name when the expression is lowered
(`lowerExpr_fetches`), and from no others.
-/
import SsaLowering.Proofs.Ir.Assignment
import SsaLowering.Proofs.Lower.Opened

namespace SsaLowering

set_option autoImplicit false

open Ir (Ty Builder ValueId BlockId Operand Action)

/-! ## Code that reads from given addresses -/

namespace Ir.Builder

/-- Instructions were added at the end of the selected block, and they read from the given
addresses alone. -/
inductive Fetches (homes : ValueId → Prop) (b : Builder) : Builder → Prop
  | refl : Fetches homes b b
  | push {c : Builder} {block : BlockId} {action : Action} (before : Fetches homes b c)
      (selected : c.Open block) (effect : action.isAlloca = false)
      (reads : ∀ p, action.Loads p → homes p) (ty : Option Ty) :
      Fetches homes b { c with function := c.function.push block action ty }

variable {homes : ValueId → Prop} {b c d : Builder}

theorem Fetches.trans (first : Fetches homes b c) (second : Fetches homes c d) :
    Fetches homes b d := by
  induction second with
  | refl => exact first
  | push _ selected effect reads ty ih => exact .push ih selected effect reads ty

theorem Fetches.current (fetches : Fetches homes b c) : c.current = b.current := by
  induction fetches with
  | refl => rfl
  | push _ _ _ _ _ ih => exact ih

theorem Fetches.function (fetches : Fetches homes b c) : b.function.Extends c.function := by
  induction fetches with
  | refl => exact .refl _
  | push _ selected _ _ ty ih => exact ih.trans (extends_push_open selected _ ty)

/-- Reads of addresses that are written at the end of the selected block keep an account. -/
theorem Fetches.assigns {Q : ValueId → Prop} {A : BlockId → ValueId → Prop} {cur : BlockId}
    (fetches : Fetches homes b c) (current : b.current = some cur)
    (account : b.function.Assigns Q A)
    (written : ∀ p, homes p → Q p → b.function.AssignedAt A cur p) : c.function.Assigns Q A := by
  induction fetches with
  | refl => exact account
  | push before selected effect reads ty ih =>
    obtain ⟨here, data, known, unended⟩ := selected
    cases here.symm.trans (before.current.trans current)
    exact ih.push known unended effect ty fun p loads counts =>
      (written p (reads p loads) counts).mono before.function

theorem Fetches.slots (fetches : Fetches homes b c) : c.function.slots = b.function.slots := by
  induction fetches with
  | refl => rfl
  | push _ _ effect _ ty ih => exact (Function.slots_push _ _ effect ty).trans ih

end Ir.Builder

namespace BodyState

variable {s t u : BodyState} {scope : ScopeId}

/-- The address of a variable that is bound to a name in some scope. -/
def Homes (s : BodyState) (p : ValueId) : Prop :=
  ∃ scope x home, s.context.scopes.lookupIn scope x = some (.slot home) ∧ home.ptr = p

/-- Code was added that reads variables which are bound. -/
structure Fetches (s t : BodyState) : Prop where
  scopes : t.context.scopes = s.context.scopes
  builder : s.builder.Fetches s.Homes t.builder

theorem homes_congr (scopes : t.context.scopes = s.context.scopes) : t.Homes = s.Homes := by
  funext p
  rw [Homes, Homes, scopes]

theorem Fetches.refl (s : BodyState) : s.Fetches s := ⟨rfl, .refl⟩

theorem Fetches.homes (fetches : s.Fetches t) : t.Homes = s.Homes := homes_congr fetches.scopes

theorem Fetches.trans (first : s.Fetches t) (second : t.Fetches u) : s.Fetches u where
  scopes := second.scopes.trans first.scopes
  builder := first.builder.trans (first.homes ▸ second.builder)

theorem Fetches.push (fetches : s.Fetches t) {block : BlockId} (selected : t.builder.Open block)
    {action : Action} (effect : action.isAlloca = false)
    (reads : ∀ p, action.Loads p → t.Homes p) (ty : Option Ty) :
    s.Fetches (t.push block action ty) :=
  fetches.trans ⟨rfl, .push .refl selected effect reads ty⟩

end BodyState

/-! ## Expressions -/

section Expressions

variable {s t : BodyState} {scope : ScopeId} {env : Environment}

/-- An action other than a load reads no variable. -/
theorem loads_of_other {action : Action} (other : ∀ ty ptr, action ≠ .load ty ptr)
    {homes : ValueId → Prop} (p : ValueId) (loads : action.Loads p) : homes p := by
  obtain ⟨ty, same⟩ := loads
  exact absurd same (other ty _)

/-- A value of an expression that is a variable which is bound. -/
def ExprValue.Named (s : BodyState) (value : ExprValue) : Prop :=
  ∀ home, value = .slot home → s.Homes home.ptr

theorem ExprValue.Named.direct (s : BodyState) (operand : Operand) :
    (ExprValue.direct operand).Named s := nofun

/-- A name that is found in a scope names what it is bound to. -/
theorem ExprValue.Named.of_lookupIn {value : ExprValue} {home : ScopeId} {x : Symbol}
    (here : s.context.scopes.lookupIn home x = some value.bound) : value.Named s := by
  rintro slot rfl
  exact ⟨home, x, slot, here, rfl⟩

theorem read_fetches {value : ExprValue} (named : value.Named s) {operand : Operand}
    (run : value.read s = .ok operand t) : s.Fetches t := by
  have opened := read_ok run
  cases value with
  | direct given =>
    obtain ⟨-, rfl⟩ := opened
    exact .refl t
  | slot home =>
    obtain ⟨block, ty, selected, -, rfl⟩ := opened
    refine (BodyState.Fetches.refl s).push selected rfl ?_ _
    rintro p ⟨ty, same⟩
    cases same
    exact named home rfl

/-- The operand of an expression, given what the expression does. -/
theorem evaluate_fetches {expr : Expr} {operand : Operand}
    (lowered : ∀ value u, lowerExpr env scope expr s = .ok value u → s.Fetches u ∧ value.Named u)
    (run : evaluate env scope expr s = .ok operand t) : s.Fetches t := by
  obtain ⟨value, u, found, read⟩ := evaluate_ok.1 run
  obtain ⟨fetches, named⟩ := lowered value u found
  exact fetches.trans (read_fetches named read)

/-- A call reads what its arguments read. -/
theorem lowerCall_fetches {callee : Expr} {value : ExprValue} {found : Nat}
    {args : List Ty → LowerBody (List Operand)} {span : FileSpan} {result : Option Operand}
    (lowered : ∀ params operands u, args params s = .ok operands u → s.Fetches u)
    (run : lowerCall env callee value found args span s = .ok result t) : s.Fetches t := by
  obtain ⟨id, params, operands, u, block, ty, -, -, arguments, selected, -, rfl⟩ :=
    lowerCall_ok run
  exact (lowered _ _ _ arguments).push selected rfl (loads_of_other (by nofun)) _

mutual

/-- The code of an expression reads variables that are bound, and its value is no other
variable. -/
theorem lowerExpr_fetches (env : Environment) : ∀ (expr : Expr) {scope : ScopeId}
    {s t : BodyState} {value : ExprValue}, s.Ready scope →
      lowerExpr env scope expr s = .ok value t → s.Fetches t ∧ value.Named t
  | .identifier name span, scope, s, t, value, ready, run => by
    rw [lowerExpr] at run
    obtain ⟨found, rfl⟩ := lowerIdentifier_ok ready.inside run
    obtain ⟨home, -, here⟩ := ScopeTable.lookupIn_of_resolve found
    exact ⟨.refl t, .of_lookupIn here⟩
  | .member object property span, scope, s, t, value, ready, run => by
    rw [lowerExpr] at run
    obtain ⟨-, -, inner, -, -, here, rfl⟩ := lowerMember_ok ready run
    exact ⟨.refl t, .of_lookupIn here⟩
  | .call callee args span, scope, s, t, value, ready, run => by
    obtain ⟨target, u, operand, lowered, called, rfl⟩ := lowerExpr_call_ok run
    have ready' := (lowerExpr_stands ready lowered).1.ready ready
    have fetches := (lowerExpr_fetches env callee ready lowered).1.trans
      (lowerCall_fetches (fun _ _ _ => lowerArgs_fetches env args ready') called)
    exact ⟨fetches, .direct _ _⟩
  | .binary op lhs rhs span, scope, s, t, value, ready, run => by
    rcases lowerExpr_binary_ok run with rfl | rfl
    · obtain ⟨home, u, stored, v, block, lowered, evaluated, selected, rfl, rfl⟩ :=
        lowerExpr_assign_ok run
      have ready' := (lowerExpr_stands ready lowered).1.ready ready
      have first := (lowerExpr_fetches env lhs ready lowered).1
      have second := evaluate_fetches (fun _ _ => lowerExpr_fetches env rhs ready') evaluated
      exact ⟨(first.trans second).push selected rfl (loads_of_other (by nofun)) _,
        .direct _ _⟩
    · obtain ⟨left, u, right, v, block, ty, evaluated, evaluated', selected, rfl, rfl⟩ :=
        lowerExpr_add_ok run
      have ready' := (evaluate_stands ready evaluated).1.ready ready
      have first := evaluate_fetches (fun _ _ => lowerExpr_fetches env lhs ready) evaluated
      have second := evaluate_fetches (fun _ _ => lowerExpr_fetches env rhs ready') evaluated'
      exact ⟨(first.trans second).push selected rfl (loads_of_other (by nofun)) _,
        .direct _ _⟩
  | .bool literal span, scope, s, t, value, ready, run => by
    rw [lowerExpr] at run
    cases run
    exact ⟨.refl s, .direct _ _⟩
  | .number literal span, scope, s, t, value, ready, run => by
    rw [lowerExpr] at run
    cases run
    exact ⟨.refl s, .direct _ _⟩
  | .string text span, scope, s, t, value, ready, run => by
    rw [lowerExpr] at run
    obtain ⟨ty, -, rfl, rfl⟩ := lowerString_ok run
    exact ⟨⟨rfl, .refl⟩, .direct _ _⟩
  | .unary .., _, _, _, _, _, run | .null .., _, _, _, _, _, run
  | .array .., _, _, _, _, _, run | .index .., _, _, _, _, _, run => by
    rw [lowerExpr] at run
    cases run

theorem lowerArgs_fetches (env : Environment) : ∀ (args : List Expr) {params : List Ty}
    {scope : ScopeId} {s t : BodyState} {operands : List Operand}, s.Ready scope →
      lowerArgs env scope args params s = .ok operands t → s.Fetches t
  | [], params, scope, s, t, operands, ready, run => by
    rw [lowerArgs] at run
    · cases run
      exact .refl s
    · simp
  | arg :: args, [], scope, s, t, operands, ready, run => by
    rw [lowerArgs] at run
    · cases run
      exact .refl s
    · simp
  | arg :: args, param :: params, scope, s, t, operands, ready, run => by
    obtain ⟨operand, u, rest, evaluated, lowered, rfl⟩ := lowerArgs_cons_ok run
    have emits := (evaluate_stands ready evaluated).1
    have first := evaluate_fetches (fun _ _ => lowerExpr_fetches env arg ready) evaluated
    exact first.trans (lowerArgs_fetches env args (emits.ready ready) lowered)

end

theorem operand_fetches (ready : s.Ready scope) {expr : Expr} {operand : Operand}
    (run : evaluate env scope expr s = .ok operand t) : s.Fetches t :=
  evaluate_fetches (fun _ _ => lowerExpr_fetches env expr ready) run

/-- An expression that stands as a statement reads what any other does. -/
theorem expressionStatement_fetches (ready : s.Ready scope) {expr : Expr} {span : FileSpan}
    (run : lowerStmt env scope (.expression expr span) s = .ok () t) : s.Fetches t := by
  rcases expressionStatement_ok run with
    ⟨callee, args, span', target, u, result, rfl, lowered, called⟩ | ⟨value, lowered⟩
  · have emits := (lowerExpr_stands ready lowered).1
    exact (lowerExpr_fetches env callee ready lowered).1.trans
      (lowerCall_fetches (fun _ _ _ => lowerArgs_fetches env args (emits.ready ready)) called)
  · exact (lowerExpr_fetches env expr ready lowered).1

end Expressions

end SsaLowering
