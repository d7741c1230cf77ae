/-
# SsaLowering.Proofs.Lower.Refusals -- what the builder refuses

Lowering asks the builder only for what the builder allows: the block is open, the
operands are values of the function, the types fit, the callee is known and gets the
arguments that it takes, the function of a body is the declared one.  All of this is
part of the invariants that every step keeps, so only two requests are ever refused: a
function under a linkage name that is taken, and a slot for a variable whose type has
no values (`Context.Reached.builder_refuses`).
-/
import SsaLowering.Proofs.Lower.Members

namespace SsaLowering

set_option autoImplicit false

open Ir (Function FunctionTy Ty BuildError)

variable {env : Environment} {scope : ScopeId} {cx cx' : Context}
  {calls : Environment → FunctionDecl → Prop}

/-! ## The global scope -/

/-- Scopes keep their place while lowering goes on. -/
theorem Step.scopes (step : Step calls cx cx') (sound : cx.Sound) :
    cx.scopes.Extends cx'.scopes := by
  cases step with
  | log event => exact .refl _
  | warn diagnostic => exact .refl _
  | @enter scope inside name => exact cx.scopes.extends_enter scope (some name)
  | bind scope name named => exact cx.scopes.extends_assign scope name _
  | @function env decl call scope =>
    have leaves := lowerFunction_leaves env scope decl sound
    cases run : lowerFunction env scope decl cx with
    | error failure after =>
      rw [run] at leaves
      rw [Lower.after_error run]
      exact .of_frames leaves.frames
    | ok u after =>
      rw [run] at leaves
      obtain ⟨f, installs⟩ := leaves
      rw [Lower.after_ok run]
      exact installs.extends_

theorem Run.scopes (run : Run calls cx cx') (sound : cx.Sound) :
    cx.scopes.Extends cx'.scopes := by
  induction run with
  | refl => exact .refl _
  | tail path step ih => exact ih.trans (step.scopes (Run.sound path sound).1)

/-- The global scope is in no namespace. -/
theorem Context.Reached.namespacePath_global (reached : cx.Reached) :
    cx.scopes.namespacePath ScopeTable.global = [] := by
  obtain ⟨name, run⟩ := reached
  have sound := Context.sound_initial name
  exact (run.scopes sound).namespacePath sound.ordered sound.root

/-! ## Refusals -/

theorem Ir.Ty.isSized_eq_false {ty : Ty} :
    ty.isSized = false ↔ ty = .void ∨ ∃ params ret, ty = .function params ret := by
  cases ty <;> simp [Ir.Ty.isSized]

/-- Why the builder refuses a declaration in a scope of a context. -/
inductive Context.BuilderRefuses (cx : Context) (env : Environment) (scope : ScopeId)
    (decl : FunctionDecl) : BuildError → Prop
  /-- A function of the module has the linkage name. -/
  | taken (known : (cx.module.functionNamed? (env.linkage cx.scopes scope decl.name)).isSome) :
      cx.BuilderRefuses env scope decl
        (.duplicateSymbol (env.linkage cx.scopes scope decl.name))
  /-- Lowering of the body comes to a `let` or `var` whose type is no type of values. -/
  | valueless {signature : FunctionTy} {linkage : String} {body : Body} {variable_ : Declarator}
      {ty : Ty} (header : Header env scope decl cx signature linkage)
      (present : decl.body = some body)
      (introduced : Stmt.IntroducesAny env.types signature.ret
        (((cx.declare scope decl.name (.declare linkage signature)).names scope).bindParams
          decl.params signature.params) body.stmts variable_ ty)
      (type : ty = .void ∨ ∃ params ret, ty = .function params ret) :
      cx.BuilderRefuses env scope decl (.invalidType "alloca" ty)

theorem lowerFunction_refuses (sound : cx.Sound) {decl : FunctionDecl} {cause : BuildError}
    (run : lowerFunction env scope decl cx = .error (.refused (.build cause)) cx') :
    cx.BuilderRefuses env scope decl cause := by
  rcases lowerFunction_build sound run with ⟨rfl, known⟩ |
    ⟨signature, linkage, body, ty, header, present, ⟨variable_, introduced⟩, unsized, rfl⟩
  · exact .taken known
  · rw [sound.names_begun] at introduced
    exact .valueless header present introduced (Ir.Ty.isSized_eq_false.1 unsized)

/-- When the lowering of a unit ends in an error of the builder, some member of the unit was
declared under a linkage name that was taken, by the functions before the unit or by a member
before it, or has a `let` or `var` in its body whose type is `void` or that of a function.
No other error of the builder is possible. -/
theorem Context.Reached.builder_refuses (reached : cx.Reached) (env : Environment)
    (unit : SourceUnit) (cause : BuildError)
    (run : lowerUnit env unit cx = .error (.refused (.build cause)) cx') :
    ∃ done failing rest fs before scope,
      Item.allMembers [] unit.items = done ++ failing :: rest ∧
      before.module.functions = cx.module.functions ++ fs ∧
      List.Forall₂ (·.Makes env) done fs ∧
      before.scopes.namespacePath scope = failing.around ∧
      lowerFunction env scope failing.decl before = .error (.refused (.build cause)) cx' ∧
      before.BuilderRefuses env scope failing.decl cause := by
  have sound := reached.sound
  have logged : (cx.log (.unitStarted unit.name unit.items.length)).Sound :=
    sound.restored (cx.restored_log _)
  have ends := lowerItems_ends env unit.items ScopeTable.global _ logged sound.root
  have items : lowerItems env ScopeTable.global unit.items
      (cx.log (.unitStarted unit.name unit.items.length)) =
        .error (.refused (.build cause)) cx' := run
  rw [items, show (cx.log _).scopes.namespacePath ScopeTable.global = [] from
    reached.namespacePath_global] at ends
  obtain ⟨done, failing, rest, fs, inner, before, listed, adds, around, failed⟩ := ends
  exact ⟨done, failing, rest, fs, before, inner, listed, adds.functions, adds.made, around,
    failed, lowerFunction_refuses adds.sound failed⟩

namespace Sample

/-- The function `f`, twice. -/
def twice : SourceUnit := ⟨⟨0⟩, "sample", [.function double, .function double]⟩

/-- `let y: void; return x` -/
def valueless : SourceUnit where
  file := ⟨0⟩
  name := "sample"
  items := [.function (function [.vars .let_ [⟨⟨2⟩, some .void, none, .unplaced⟩] .unplaced,
    .ret (some x) .unplaced])]

end Sample

theorem Context.Reached.builder_refuses_sample :
    (Context.initial "m").Reached ∧
      (∃ cx', lowerUnit Sample.standard Sample.twice (.initial "m") =
          .error (.refused (.build (.duplicateSymbol "f"))) cx' ∧
        ∃ member ∈ Item.allMembers [] Sample.twice.items, ∃ (before : Context) (scope : ScopeId),
          before.BuilderRefuses Sample.standard scope member.decl (.duplicateSymbol "f")) ∧
      ∃ cx', lowerUnit Sample.standard Sample.valueless (.initial "m") =
          .error (.refused (.build (.invalidType "alloca" .void))) cx' ∧
        ∃ member ∈ Item.allMembers [] Sample.valueless.items,
          ∃ (before : Context) (scope : ScopeId),
            before.BuilderRefuses Sample.standard scope member.decl
              (.invalidType "alloca" .void) := by
  have reached : (Context.initial "m").Reached := ⟨"m", .refl⟩
  have taken : (lowerUnit Sample.standard Sample.twice).refusal? (.initial "m") =
      some (.build (.duplicateSymbol "f")) := by cbv
  have unsized : (lowerUnit Sample.standard Sample.valueless).refusal? (.initial "m") =
      some (.build (.invalidType "alloca" .void)) := by cbv
  have run := Lower.refused_of_refusal taken
  have run' := Lower.refused_of_refusal unsized
  refine ⟨reached, ⟨_, run, ?_⟩, _, run', ?_⟩
  · obtain ⟨done, failing, rest, fs, before, scope, listed, -, -, -, -, refuses⟩ :=
      reached.builder_refuses _ _ _ run
    exact ⟨failing, listed ▸ List.mem_append_cons_self, before, scope, refuses⟩
  · obtain ⟨done, failing, rest, fs, before, scope, listed, -, -, -, -, refuses⟩ :=
      reached.builder_refuses _ _ _ run'
    exact ⟨failing, listed ▸ List.mem_append_cons_self, before, scope, refuses⟩

end SsaLowering
