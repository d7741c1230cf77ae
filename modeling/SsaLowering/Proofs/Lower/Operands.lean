/-
# SsaLowering.Proofs.Lower.Operands -- what holds of every operand in a body

An operand that lowering makes is a value, a literal, the aggregate of a string
literal, or what a name is bound to.  So a property of operands that these have
(`OperandRule`) is one of all operands in an installed body, and it stays one
while the module around the body grows (`Run.obeys`).
-/
import SsaLowering.Proofs.Ir.References
import SsaLowering.Proofs.Lower.Dominance
import SsaLowering.Proofs.Lower.Members

namespace SsaLowering

set_option autoImplicit false

open Ir (Ty Module Function Builder BlockId Operand Action)

/-- A property of operands that those have which lowering makes without a look at a name or
at the type of strings. -/
structure OperandRule where
  Holds : Module → Operand → Prop
  /-- A module that grows keeps it. -/
  widen : ∀ {m m' : Module} {operand : Operand}, Holds m operand → m.Widens m' →
    Holds m' operand
  value : ∀ m id, Holds m (.value id)
  bool : ∀ m value, Holds m (.constant (.bool value))
  double : ∀ m value, Holds m (.constant (.double value))
  function : ∀ (m : Module) (id : Ir.FuncId), id.index < m.functions.length →
    Holds m (.function id)

namespace OperandRule

/-- String literals of a type have the property. -/
def Admits (rule : OperandRule) (string : Ty) : Prop :=
  ∀ (ty : Ir.StructTy) (m : Module) (bytes : List UInt8), string = ty.ty →
    rule.Holds (m.addConstant bytes).2
      (.constant (.struct ty [.global ⟨m.globals.length⟩, .int 32 bytes.length]))

/-- What a name is bound to has the property. -/
def Covers (rule : OperandRule) (m : Module) : BoundValue → Prop
  | .direct operand => rule.Holds m operand
  | _ => True

variable {rule : OperandRule} {m m' : Module}

theorem Covers.widen {bound : BoundValue} (covers : rule.Covers m bound) (wider : m.Widens m') :
    rule.Covers m' bound := by
  cases bound with
  | direct operand => exact rule.widen covers wider
  | _ => trivial

/-- What is bound outside of functions are functions that are there. -/
theorem covers_of_standing {table : ScopeTable} {bound : BoundValue}
    (standing : bound.Standing m table) : rule.Covers m bound := by
  cases bound with
  | direct operand =>
    cases operand with
    | function id =>
      obtain ⟨signature, known⟩ := Option.isSome_iff_exists.1 standing
      obtain ⟨f, present, -⟩ := Option.map_eq_some_iff.1 known
      exact rule.function m id (List.getElem?_eq_some_iff.1 present).1
    | value id => cases standing
    | constant c => cases standing
  | _ => trivial

/-- A store to a slot mentions no other operand than what it stores. -/
theorem forall_mentions_store {operand : Operand} (holds : rule.Holds m operand)
    (ptr : Ir.ValueId) :
    ∀ mentioned ∈ (Action.store operand (.value ptr)).mentions, rule.Holds m mentioned :=
  List.forall_mem_cons.2 ⟨holds, List.forall_mem_singleton.2 (rule.value m ptr)⟩

end OperandRule

variable {s t u : BodyState} {scope : ScopeId} {env : Environment} {rule : OperandRule}

/-! ## Bodies under construction -/

namespace BodyState

/-- All operands in the code and in the bindings have the property. -/
structure Obeys (rule : OperandRule) (s : BodyState) : Prop where
  code : s.builder.function.MentionsOnly (rule.Holds s.context.module)
  names : ∀ other x bound, s.context.scopes.lookupIn other x = some bound →
    rule.Covers s.context.module bound

theorem Obeys.rebuilt (obeys : s.Obeys rule) {b : Builder}
    (code : b.function.MentionsOnly (rule.Holds s.context.module)) :
    (s.rebuilt b).Obeys rule where
  code := code
  names := obeys.names

theorem Obeys.push (obeys : s.Obeys rule) (block : BlockId) {action : Action}
    (new : ∀ operand ∈ action.mentions, rule.Holds s.context.module operand)
    (ty : Option Ty) : (s.push block action ty).Obeys rule where
  code := obeys.code.push block new ty
  names := obeys.names

theorem Obeys.withSlot (obeys : s.Obeys rule) (ty : Ty) (name : String) :
    (s.withSlot ty name).Obeys rule :=
  obeys.rebuilt (obeys.code.reserve ty _)

theorem Obeys.at_ (obeys : s.Obeys rule) (block : BlockId) : (s.at_ block).Obeys rule :=
  obeys.rebuilt obeys.code

/-- Other scopes in which nothing new is bound but what has the property. -/
theorem Obeys.rescoped (obeys : s.Obeys rule) (builder : t.builder = s.builder)
    (module : t.context.module = s.context.module)
    (names : ∀ other x bound, t.context.scopes.lookupIn other x = some bound →
      s.context.scopes.lookupIn other x = some bound ∨ rule.Covers s.context.module bound) :
    t.Obeys rule where
  code := by rw [builder, module]; exact obeys.code
  names := by
    intro other x bound here
    rw [module]
    rcases names other x bound here with before | new
    · exact obeys.names other x bound before
    · exact new

theorem Obeys.bound (obeys : s.Obeys rule) (scope : ScopeId) (name : Symbol)
    {value : BoundValue} (new : rule.Covers s.context.module value) :
    (s.bound scope name value).Obeys rule := by
  refine obeys.rescoped rfl rfl fun other x found here => ?_
  simp only [BodyState.bound, ScopeTable.lookupIn_assign] at here
  split at here
  · cases here
    exact Or.inr new
  · exact Or.inl here

theorem Obeys.entered (obeys : s.Obeys rule) (scope : ScopeId) : (s.entered scope).Obeys rule :=
  obeys.rescoped rfl rfl fun other x _ here => Or.inl (s.lookupIn_entered scope other x ▸ here)

theorem Obeys.leave (obeys : s.Obeys rule) (scope : ScopeId) : (s.leave scope).Obeys rule := by
  refine obeys.rescoped rfl rfl fun other x bound here => ?_
  simp only [BodyState.leave, ScopeTable.lookupIn_discard] at here
  split at here
  · cases here
  · exact Or.inl here

/-- Work that leads to a state with the property, in a module that has no less. -/
structure Leads (rule : OperandRule) (s t : BodyState) : Prop where
  wider : s.context.module.Widens t.context.module
  obeys : t.Obeys rule

theorem Leads.refl (obeys : s.Obeys rule) : s.Leads rule s := ⟨.refl _, obeys⟩

theorem Leads.trans (first : s.Leads rule t) (second : t.Leads rule u) : s.Leads rule u :=
  ⟨first.wider.trans second.wider, second.obeys⟩

/-- Work that leaves the module alone. -/
theorem Leads.within (leads : s.Leads rule t) (module : u.context.module = t.context.module)
    (obeys : u.Obeys rule) : s.Leads rule u :=
  ⟨module ▸ leads.wider, obeys⟩

end BodyState

/-! ## Expressions -/

theorem read_obeys (obeys : s.Obeys rule) {value : ExprValue}
    (known : rule.Covers s.context.module value.bound) {operand : Operand}
    (run : value.read s = .ok operand t) :
    s.Leads rule t ∧ rule.Holds t.context.module operand := by
  have opened := read_ok run
  cases value with
  | direct given =>
    obtain ⟨rfl, rfl⟩ := opened
    exact ⟨.refl obeys, known⟩
  | slot home =>
    obtain ⟨block, ty, -, rfl, rfl⟩ := opened
    refine ⟨(BodyState.Leads.refl obeys).within rfl (obeys.push block ?_ _), rule.value _ _⟩
    exact List.forall_mem_singleton.2 (rule.value _ _)

/-- The operand of an expression, given what the expression does. -/
theorem evaluate_obeys {expr : Expr} {operand : Operand}
    (lowered : ∀ value u, lowerExpr env scope expr s = .ok value u →
      s.Leads rule u ∧ rule.Covers u.context.module value.bound)
    (run : evaluate env scope expr s = .ok operand t) :
    s.Leads rule t ∧ rule.Holds t.context.module operand := by
  obtain ⟨value, u, found, read⟩ := evaluate_ok.1 run
  obtain ⟨leads, known⟩ := lowered value u found
  obtain ⟨leads', known'⟩ := read_obeys leads.obeys known read
  exact ⟨leads.trans leads', known'⟩

/-- A call mentions its callee and its arguments. -/
theorem lowerCall_obeys {callee : Expr} {value : ExprValue} {found : Nat}
    {args : List Ty → LowerBody (List Operand)} {span : FileSpan} {result : Option Operand}
    (known : rule.Covers s.context.module value.bound)
    (lowered : ∀ params operands u, args params s = .ok operands u →
      s.Leads rule u ∧ ∀ operand ∈ operands, rule.Holds u.context.module operand)
    (run : lowerCall env callee value found args span s = .ok result t) :
    s.Leads rule t ∧ ∀ operand, result = some operand → rule.Holds t.context.module operand := by
  obtain ⟨id, params, operands, u, block, ty, rfl, -, arguments, -, rfl, rfl⟩ :=
    lowerCall_ok run
  obtain ⟨leads, mentioned⟩ := lowered params operands u arguments
  have called : ∀ operand ∈ (Action.call id operands).mentions,
      rule.Holds u.context.module operand :=
    List.forall_mem_cons.2 ⟨rule.widen known leads.wider, mentioned⟩
  refine ⟨leads.within rfl (leads.obeys.push block called _), ?_⟩
  intro operand same
  obtain ⟨image, -, rfl⟩ := Option.map_eq_some_iff.1 same
  exact rule.value _ _

theorem lowerString_obeys (strings : rule.Admits env.types.stringTy) (obeys : s.Obeys rule)
    {text : String} {span : FileSpan} {value : ExprValue}
    (run : lowerString env text span s = .ok value t) :
    s.Leads rule t ∧ rule.Covers t.context.module value.bound := by
  obtain ⟨ty, string, rfl, rfl⟩ := lowerString_ok run
  have wider : s.context.module.Widens (s.context.module.addConstant text.toUTF8.toList).2 :=
    ⟨Nat.le_refl _, by simp [Module.addConstant]⟩
  refine ⟨⟨wider, obeys.code.mono fun operand holds => rule.widen holds wider, ?_⟩, ?_⟩
  · intro other x bound here
    exact (obeys.names other x bound here).widen wider
  · exact strings ty s.context.module text.toUTF8.toList string

mutual

/-- The code and the value of an expression keep the rule. -/
theorem lowerExpr_obeys (strings : rule.Admits env.types.stringTy) : ∀ (expr : Expr)
    {scope : ScopeId} {s t : BodyState} {value : ExprValue}, s.Ready scope → s.Obeys rule →
      lowerExpr env scope expr s = .ok value t →
        s.Leads rule t ∧ rule.Covers t.context.module value.bound
  | .identifier name span, scope, s, t, value, ready, obeys, run => by
    rw [lowerExpr] at run
    obtain ⟨found, rfl⟩ := lowerIdentifier_ok ready.inside run
    obtain ⟨home, -, here⟩ := ScopeTable.lookupIn_of_resolve found
    exact ⟨.refl obeys, obeys.names home name _ here⟩
  | .member object property span, scope, s, t, value, ready, obeys, run => by
    rw [lowerExpr] at run
    obtain ⟨-, -, inner, -, -, here, rfl⟩ := lowerMember_ok ready run
    exact ⟨.refl obeys, obeys.names inner property _ here⟩
  | .call callee args span, scope, s, t, value, ready, obeys, run => by
    obtain ⟨target, u, operand, lowered, called, rfl⟩ := lowerExpr_call_ok run
    have ready' := (lowerExpr_stands ready lowered).1.ready ready
    obtain ⟨leads, known⟩ := lowerExpr_obeys strings callee ready obeys lowered
    obtain ⟨leads', mentioned⟩ := lowerCall_obeys known
      (fun _ _ _ => lowerArgs_obeys strings args ready' leads.obeys) called
    exact ⟨leads.trans leads', mentioned operand rfl⟩
  | .binary op lhs rhs span, scope, s, t, value, ready, obeys, run => by
    rcases lowerExpr_binary_ok run with rfl | rfl
    · obtain ⟨home, u, stored, v, block, lowered, evaluated, -, rfl, rfl⟩ :=
        lowerExpr_assign_ok run
      have ready' := (lowerExpr_stands ready lowered).1.ready ready
      have first := (lowerExpr_obeys strings lhs ready obeys lowered).1
      obtain ⟨second, known⟩ := evaluate_obeys
        (fun _ _ => lowerExpr_obeys strings rhs ready' first.obeys) evaluated
      exact ⟨(first.trans second).within rfl
        (second.obeys.push block (rule.forall_mentions_store known _) _), known⟩
    · obtain ⟨left, u, right, v, block, ty, evaluated, evaluated', -, rfl, rfl⟩ :=
        lowerExpr_add_ok run
      have ready' := (evaluate_stands ready evaluated).1.ready ready
      obtain ⟨first, known⟩ := evaluate_obeys
        (fun _ _ => lowerExpr_obeys strings lhs ready obeys) evaluated
      obtain ⟨second, known'⟩ := evaluate_obeys
        (fun _ _ => lowerExpr_obeys strings rhs ready' first.obeys) evaluated'
      have added : ∀ operand ∈ (Action.fadd left right).mentions,
          rule.Holds v.context.module operand := by
        simpa [Action.mentions, Action.operands] using
          And.intro (rule.widen known second.wider) known'
      exact ⟨(first.trans second).within rfl (second.obeys.push block added _),
        rule.value _ _⟩
  | .bool literal span, scope, s, t, value, ready, obeys, run => by
    rw [lowerExpr] at run
    cases run
    exact ⟨.refl obeys, rule.bool _ _⟩
  | .number literal span, scope, s, t, value, ready, obeys, run => by
    rw [lowerExpr] at run
    cases run
    exact ⟨.refl obeys, rule.double _ _⟩
  | .string text span, scope, s, t, value, ready, obeys, run => by
    rw [lowerExpr] at run
    exact lowerString_obeys strings obeys run
  | .unary .., _, _, _, _, _, _, run | .null .., _, _, _, _, _, _, run
  | .array .., _, _, _, _, _, _, run | .index .., _, _, _, _, _, _, run => by
    rw [lowerExpr] at run
    cases run

theorem lowerArgs_obeys (strings : rule.Admits env.types.stringTy) : ∀ (args : List Expr)
    {params : List Ty} {scope : ScopeId} {s t : BodyState} {operands : List Operand},
    s.Ready scope → s.Obeys rule → lowerArgs env scope args params s = .ok operands t →
      s.Leads rule t ∧ ∀ operand ∈ operands, rule.Holds t.context.module operand
  | [], params, scope, s, t, operands, ready, obeys, run => by
    rw [lowerArgs] at run
    · cases run
      exact ⟨.refl obeys, nofun⟩
    · simp
  | arg :: args, [], scope, s, t, operands, ready, obeys, run => by
    rw [lowerArgs] at run
    · cases run
      exact ⟨.refl obeys, nofun⟩
    · simp
  | arg :: args, param :: params, scope, s, t, operands, ready, obeys, run => by
    obtain ⟨operand, u, rest, evaluated, lowered, rfl⟩ := lowerArgs_cons_ok run
    have emits := (evaluate_stands ready evaluated).1
    obtain ⟨first, known⟩ := evaluate_obeys
      (fun _ _ => lowerExpr_obeys strings arg ready obeys) evaluated
    obtain ⟨second, mentioned⟩ :=
      lowerArgs_obeys strings args (emits.ready ready) first.obeys lowered
    exact ⟨first.trans second,
      List.forall_mem_cons.2 ⟨rule.widen known second.wider, mentioned⟩⟩

end

theorem operand_obeys (strings : rule.Admits env.types.stringTy) (ready : s.Ready scope)
    (obeys : s.Obeys rule) {expr : Expr} {operand : Operand}
    (run : evaluate env scope expr s = .ok operand t) :
    s.Leads rule t ∧ rule.Holds t.context.module operand :=
  evaluate_obeys (fun _ _ => lowerExpr_obeys strings expr ready obeys) run

/-! ## Statements -/

theorem expressionStatement_obeys (strings : rule.Admits env.types.stringTy)
    (ready : s.Ready scope) (obeys : s.Obeys rule) {expr : Expr} {span : FileSpan}
    (run : lowerStmt env scope (.expression expr span) s = .ok () t) : s.Leads rule t := by
  rcases expressionStatement_ok run with
    ⟨callee, args, span', target, u, result, rfl, lowered, called⟩ | ⟨value, lowered⟩
  · have emits := (lowerExpr_stands ready lowered).1
    obtain ⟨leads, known⟩ := lowerExpr_obeys strings callee ready obeys lowered
    exact leads.trans (lowerCall_obeys known
      (fun _ _ _ => lowerArgs_obeys strings args (emits.ready ready) leads.obeys) called).1
  · exact (lowerExpr_obeys strings expr ready obeys lowered).1

theorem lowerReturn_obeys (strings : rule.Admits env.types.stringTy) (ready : s.Ready scope)
    (obeys : s.Obeys rule) {value : Option Expr} {span : FileSpan}
    (run : lowerReturn env scope value span s = .ok () t) : s.Leads rule t := by
  obtain ⟨u, operand, block, -, -, rfl, returns⟩ := lowerReturn_ok run
  cases returns with
  | nothing =>
    exact (BodyState.Leads.refl obeys).within rfl (obeys.rebuilt (obeys.code.close block nofun))
  | value run =>
    obtain ⟨leads, known⟩ := operand_obeys strings ready obeys run
    refine leads.within rfl (leads.obeys.rebuilt (leads.obeys.code.close block ?_))
    exact List.forall_mem_singleton.2 known

theorem BodyState.Declares.obeys {decl : Declarator} {mutability : Bool}
    (declares : s.Declares env scope decl mutability t)
    (strings : rule.Admits env.types.stringTy) (ready : s.Ready scope) (obeys : s.Obeys rule) :
    s.Leads rule t := by
  cases declares with
  | @constant expr operand u b init run grown ok current blocks =>
    obtain ⟨leads, known⟩ := operand_obeys strings ready obeys run
    have named := leads.obeys.rebuilt (leads.obeys.code.of_blocks blocks)
    exact leads.within rfl (named.bound scope decl.name known)
  | @blank ty init sized =>
    exact (BodyState.Leads.refl obeys).within rfl
      ((obeys.withSlot ty _).bound scope decl.name trivial)
  | @stored expr operand u ty block init run sized selected checked =>
    obtain ⟨leads, known⟩ := operand_obeys strings ready obeys run
    exact leads.within rfl (((leads.obeys.withSlot ty _).push block
      (rule.forall_mentions_store known _) _).bound scope decl.name trivial)

theorem declarators_obeys (strings : rule.Admits env.types.stringTy) (kind : BindingKind) :
    ∀ {decls : List Declarator} {s t : BodyState}, s.Local scope → s.Obeys rule →
      decls.forM (lowerDeclarator env scope kind) s = .ok () t → s.Leads rule t
  | [], s, t, _, obeys, run => by
    cases run
    exact .refl obeys
  | decl :: rest, s, t, local_, obeys, run => by
    obtain ⟨u, first, run⟩ := declarators_cons_ok run
    obtain ⟨names, -, done, after⟩ :=
      (lowerDeclarator_foretold env kind local_ decl).of_ok first
    have leads := (lowerDeclarator_ok local_ first).obeys strings local_.toReady obeys
    exact leads.trans
      (declarators_obeys strings kind (after.local local_ done.1) leads.obeys run)

/-- The jump at the end of a branch mentions nothing. -/
theorem BodyState.Falls.obeys {next : BlockId} (falls : s.Falls next t) (obeys : s.Obeys rule) :
    s.Leads rule t := by
  cases falls with
  | ended ended => exact .refl obeys
  | @jumped block selected checked =>
    exact (BodyState.Leads.refl obeys).within rfl (obeys.rebuilt (obeys.code.close block nofun))

theorem skip_obeys (obeys : s.Obeys rule) {kind : SyntaxKind} {span : FileSpan}
    (run : skip kind span s = .ok () t) : s.Leads rule t := by
  obtain rfl := skip_ok run
  exact (BodyState.Leads.refl obeys).within rfl
    (obeys.rescoped rfl rfl fun _ _ _ here => Or.inl here)

mutual

/-- Statements leave code and bindings that keep the rule. -/
theorem lowerStmt_obeys (strings : rule.Admits env.types.stringTy) : ∀ (stmt : Stmt)
    {scope : ScopeId} {s t : BodyState}, s.Local scope → s.Obeys rule →
      lowerStmt env scope stmt s = .ok () t → s.Leads rule t
  | .block stmts span, scope, s, t, local_, obeys, run => by
    obtain ⟨u, inner, rfl⟩ := block_ok local_.inside run
    have leads := lowerStmts_obeys strings stmts local_.entered (obeys.entered scope) inner
    exact ⟨leads.wider, leads.obeys.leave s.home⟩
  | .expression expr span, scope, s, t, local_, obeys, run =>
    expressionStatement_obeys strings local_.toReady obeys run
  | .ifElse condition thenBranch elseBranch span, scope, s, t, local_, obeys, run => by
    obtain ⟨cond, block, u, v, v', w, w', forks⟩ := ifElse_ok local_ run
    obtain ⟨leads, known⟩ := operand_obeys strings local_.toReady obeys forks.condition
    have forked : s.Leads rule ((u.fork block cond).at_ ⟨u.next⟩) :=
      leads.within rfl (leads.obeys.rebuilt
        (Ir.Builder.mentionsOnly_fork leads.obeys.code block known))
    have first := lowerStmt_obeys strings thenBranch forks.thenLocal forked.obeys forks.thenRun
    have fallen := first.trans (forks.thenFalls.obeys first.obeys)
    have between : s.Leads rule (v'.at_ ⟨u.next + 1⟩) :=
      (forked.trans fallen).within rfl (fallen.obeys.at_ _)
    have second := lowerOptional_obeys strings elseBranch forks.elseLocal between.obeys
      forks.elseRun
    have fallen' := between.trans (second.trans (forks.elseFalls.obeys second.obeys))
    rw [forks.last]
    exact fallen'.within rfl (fallen'.obeys.at_ _)
  | .ret value span, scope, s, t, local_, obeys, run => by
    rw [lowerStmt] at run
    exact lowerReturn_obeys strings local_.toReady obeys run
  | .vars kind declarators span, scope, s, t, local_, obeys, run => by
    rw [lowerStmt] at run
    exact declarators_obeys strings kind local_ obeys run
  | .whileLoop .., _, _, _, _, obeys, run | .breakLoop .., _, _, _, _, obeys, run
  | .continueLoop .., _, _, _, _, obeys, run | .empty .., _, _, _, _, obeys, run => by
    rw [lowerStmt] at run
    exact skip_obeys obeys run

theorem lowerOptional_obeys (strings : rule.Admits env.types.stringTy) : ∀ (stmt : Option Stmt)
    {scope : ScopeId} {s t : BodyState}, s.Local scope → s.Obeys rule →
      lowerOptional env scope stmt s = .ok () t → s.Leads rule t
  | none, scope, s, t, _, obeys, run => by
    rw [lowerOptional] at run
    cases run
    exact .refl obeys
  | some stmt, scope, s, t, local_, obeys, run => by
    rw [lowerOptional] at run
    exact lowerStmt_obeys strings stmt local_ obeys run

theorem lowerStmts_obeys (strings : rule.Admits env.types.stringTy) : ∀ (stmts : List Stmt)
    {scope : ScopeId} {s t : BodyState}, s.Local scope → s.Obeys rule →
      lowerStmts env scope stmts s = .ok () t → s.Leads rule t
  | [], scope, s, t, _, obeys, run => by
    rw [lowerStmts] at run
    cases run
    exact .refl obeys
  | stmt :: rest, scope, s, t, local_, obeys, run => by
    obtain ⟨u, first, onward⟩ := lowerStmts_cons_cases local_ run
    have leads := lowerStmt_obeys strings stmt local_ obeys first
    rcases onward with ⟨-, -, journal, rfl⟩ | ⟨-, local', run⟩
    · exact leads.within rfl (leads.obeys.rescoped rfl rfl fun _ _ _ here => Or.inl here)
    · exact leads.trans (lowerStmts_obeys strings rest local' leads.obeys run)

end

/-! ## Whole bodies -/

/-- The end of a body mentions nothing. -/
theorem BodyState.Sealed.obeys {span : FileSpan} (sealed : s.Sealed span t)
    (obeys : s.Obeys rule) : t.Obeys rule := by
  cases sealed with
  | ended ended => exact obeys
  | @fell block cx selected context =>
    have plain : ∀ operand ∈ s.builder.fallOff.operands,
        rule.Holds s.context.module operand := by
      unfold Builder.fallOff
      split <;> nofun
    have closed := obeys.rebuilt (b := s.builder.closed block s.builder.fallOff)
      (obeys.code.close block plain)
    rcases context with rfl | rfl
    · exact closed
    · exact closed.rescoped rfl rfl fun _ _ _ here => Or.inl here

/-- A body that is built keeps the rule, where the bindings around it do. -/
theorem buildBody_obeys (strings : rule.Admits env.types.stringTy) {decl : FunctionDecl}
    {ty : Ir.FunctionTy} {stmts : List Stmt} (declared : s.Declared scope ty)
    (count : decl.params.length = ty.params.length)
    (around : ∀ other x bound, s.context.scopes.lookupIn other x = some bound →
      rule.Covers s.context.module bound)
    (run : buildBody env scope decl stmts s = .ok () t) : t.Obeys rule := by
  obtain ⟨p, q, starts, body, sealed⟩ := buildBody_ok declared count run
  have module : p.context.module = s.context.module := by rw [starts.context]; rfl
  have begun : p.Obeys rule := {
    code := by
      obtain ⟨label, entry⟩ := starts.entry
      exact Function.mentionsOnly_of_blocks_eq _ entry rfl
    names := by
      intro other x bound here
      rw [module]
      rcases starts.lookupIn here with before | ⟨id, -, rfl⟩
      · exact around other x bound before
      · exact rule.value _ _ }
  have leads := lowerStmts_obeys strings stmts starts.local_ begun body
  exact sealed.obeys (leads.obeys.leave s.home)

/-! ## Functions -/

variable {cx cx' : Context} {decl : FunctionDecl} {f : Function}

theorem Context.Installs.widens (installs : cx.Installs env scope decl f cx') :
    cx.module.Widens cx'.module where
  functions := by
    rw [installs.functions, List.length_append]
    exact Nat.le_add_right _ _
  globals := installs.globals.length_le

/-- An installed function keeps the rule. -/
theorem lowerFunction_obeys (strings : rule.Admits env.types.stringTy) (sound : cx.Sound)
    (run : lowerFunction env scope decl cx = .ok () cx')
    (added : cx'.module.functions = cx.module.functions ++ [f]) :
    f.MentionsOnly (rule.Holds cx'.module) := by
  have outcome : FunctionOutcome env scope decl cx (lowerFunction env scope decl cx) :=
    lowerFunction_outcome sound
  rw [run] at outcome
  cases outcome with
  | @external signature linkage header absent =>
    obtain rfl : Function.declare linkage signature = f := by
      simpa [Context.declare, Module.appended] using added
    exact Function.mentionsOnly_declare _ _
  | @installed signature linkage body t header present build passed =>
    obtain rfl : t.builder.function = f := by simpa [Context.finished] using added
    obtain ⟨-, done, -⟩ := building_ok sound header build
    have obeys := buildBody_obeys strings
      (sound.begun header.inside decl.name linkage signature)
      (signature?_ok.1 header.typed).params_length
      (fun other x bound here => OperandRule.covers_of_standing
        (sound.standing_declare decl.name _ here)) build
    have functions : t.context.module.functions =
        cx.module.functions ++ [.declare linkage signature] := done.1.functions
    have wider : t.context.module.Widens (cx.finished t.builder.function t.context).module := by
      refine ⟨?_, Nat.le_refl _⟩
      rw [functions, added, List.length_append, List.length_append]
      rfl
    exact obeys.code.mono fun operand holds => rule.widen holds wider

/-! ## Runs -/

/-- All operands in the functions of a context have the property. -/
def Context.Obeys (rule : OperandRule) (cx : Context) : Prop :=
  ∀ f ∈ cx.module.functions, f.MentionsOnly (rule.Holds cx.module)

variable {calls : Environment → FunctionDecl → Prop}

theorem Step.obeys (strings : ∀ env decl, calls env decl → rule.Admits env.types.stringTy)
    (step : Step calls cx cx') (sound : cx.Sound) (obeys : cx.Obeys rule) : cx'.Obeys rule := by
  cases step with
  | log event => exact obeys
  | warn diagnostic => exact obeys
  | enter inside name => exact obeys
  | bind scope name named => exact obeys
  | @function env decl call scope =>
    have leaves := lowerFunction_leaves env scope decl sound
    cases run : lowerFunction env scope decl cx with
    | error failure after =>
      rw [run] at leaves
      rw [Lower.after_error run, Context.Obeys, leaves.module]
      exact obeys
    | ok u after =>
      rw [run] at leaves
      obtain ⟨f, installs⟩ := leaves
      rw [Lower.after_ok run, Context.Obeys, installs.functions, List.forall_mem_append]
      refine ⟨fun g member => (obeys g member).mono fun operand holds =>
        rule.widen holds installs.widens, ?_⟩
      rw [List.forall_mem_singleton]
      exact lowerFunction_obeys (strings env decl call) sound run installs.functions

/-- Every function that a run leaves keeps the rule. -/
theorem Run.obeys (strings : ∀ env decl, calls env decl → rule.Admits env.types.stringTy)
    (run : Run calls cx cx') (sound : cx.Sound) (obeys : cx.Obeys rule) : cx'.Obeys rule := by
  induction run with
  | refl => exact obeys
  | tail path step ih => exact step.obeys strings (Run.sound path sound).1 ih

end SsaLowering
