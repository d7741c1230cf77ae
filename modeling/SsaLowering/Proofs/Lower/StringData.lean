/-
# SsaLowering.Proofs.Lower.StringData -- string literals become constant data

Each string literal that a body evaluates adds its bytes to the constant data of the module,
and nothing else does (`BodyState.Quotes.data`).  The value of a literal is an aggregate with
the handle of these bytes and their number.  It ends up in the instructions that the source says
(`Stmt.allUses`), so the rows of aggregates in a function are the rows of its literals
(`buildBody_quotes`).  While a body is lowered, the constants that stand for a literal are bound
to its aggregate, and no other name is bound to one (`BodyState.Tallies`).
-/
import SsaLowering.Proofs.Lower.Members
import SsaLowering.Proofs.Lower.Naming
import SsaLowering.Proofs.Quotations

namespace SsaLowering

set_option autoImplicit false

open Ir (Ty StructTy Constant Function Builder BlockId Operand Action Terminator)

/-! ## Constant data and aggregates of literals -/

/-- The constant data of literals: one read-only entry for each, in their order. -/
def quoting (texts : List String) : List Ir.Global :=
  texts.mapIdx fun i text => ⟨Ir.Module.globalName i, text.toUTF8.toList, true⟩

@[simp] theorem length_quoting (texts : List String) : (quoting texts).length = texts.length :=
  List.length_mapIdx

theorem getElem?_quoting {texts : List String} {i : Nat} {text : String}
    (here : texts[i]? = some text) :
    (quoting texts)[i]? = some ⟨Ir.Module.globalName i, text.toUTF8.toList, true⟩ := by
  rw [quoting, List.getElem?_mapIdx, here]
  rfl

/-- One more literal. -/
theorem globals_addConstant {m : Ir.Module} {texts : List String}
    (data : m.globals = quoting texts) (text : String) :
    (m.addConstant text.toUTF8.toList).2.globals = quoting (texts ++ [text]) := by
  rw [quoting, List.mapIdx_concat, ← quoting, ← data, ← length_quoting texts, ← data]
  rfl

/-- The layout of strings, where they are aggregates. -/
def Environment.stringStruct (env : Environment) : StructTy :=
  match env.types.stringTy with
  | .struct name fields => ⟨name, fields⟩
  | _ => default

theorem Environment.stringStruct_eq {env : Environment} {ty : StructTy}
    (string : env.types.stringTy = ty.ty) : env.stringStruct = ty := by
  rw [stringStruct, string, StructTy.ty]

/-- The aggregate of a literal of a function, before whose own data there are `base` others. -/
def Literal.constant (env : Environment) (base : Nat) (lit : Literal) : Constant :=
  .struct env.stringStruct [.global ⟨base + lit.number⟩, .int 32 lit.text.toUTF8.toList.length]

/-- The rows of aggregates that rows of literals stand for. -/
def placed (env : Environment) (base : Nat) (rows : List (List (Option Literal))) :
    List (List (Option Constant)) :=
  rows.map (List.map (Option.map (Literal.constant env base)))

def BoundValue.aggregate? : BoundValue → Option Constant
  | .direct operand => operand.aggregate?
  | _ => none

/-- What is bound is the aggregate of the literal, and none where there is no literal. -/
def Literal.Fits (env : Environment) (base : Nat) (note : Option Literal)
    (found : Option BoundValue) : Prop :=
  ∀ bound, found = some bound → bound.aggregate? = note.map (Literal.constant env base)

theorem BoundValue.aggregate?_of_outer {bound : BoundValue} (outer : bound.isOuter = true) :
    bound.aggregate? = none := by
  obtain ⟨id, rfl⟩ | ⟨inner, rfl⟩ := outer_cases outer
  · rfl
  · rfl

variable {env : Environment} {earlier : List String} {base : Nat} {s t u : BodyState}
  {scope : ScopeId} {ledger : Ledger} {texts texts' : List String}
  {rows rows' : List (List (Option Literal))}

@[simp] theorem placed_nil : placed env base [] = [] := rfl

theorem placed_append : placed env base (rows ++ rows') =
    placed env base rows ++ placed env base rows' :=
  List.map_append

theorem placed_occupied (row : List (Option Literal)) :
    placed env base (occupied row) = occupied (row.map (Option.map (Literal.constant env base))) :=
  (occupied_map _ row).symm

/-! ## Work that adds data and rows -/

namespace BodyState

/-- The constant data is that of the literals so far, and the names are bound as the ledger
says.  Before the function there were `earlier` literals. -/
structure Tallies (s : BodyState) (env : Environment) (earlier : List String) (scope : ScopeId)
    (ledger : Ledger) : Prop where
  names : s.context.scopes.Tells (Literal.Fits env earlier.length) scope ledger.names
  data : s.context.module.globals = quoting (earlier ++ ledger.texts)

/-- Work that adds the data of literals and rows of aggregates. -/
structure Quotes (s : BodyState) (env : Environment) (base : Nat) (texts : List String)
    (rows : List (List (Option Literal))) (t : BodyState) : Prop where
  data : ∀ before, s.context.module.globals = quoting before →
    t.context.module.globals = quoting (before ++ texts)
  code : t.builder.function.aggregates.Perm
    (s.builder.function.aggregates ++ placed env base rows)

theorem Quotes.trans (first : s.Quotes env base texts rows t)
    (second : t.Quotes env base texts' rows' u) :
    s.Quotes env base (texts ++ texts') (rows ++ rows') u where
  data := by
    intro before data
    rw [← List.append_assoc]
    exact second.data _ (first.data before data)
  code := by
    rw [placed_append, ← List.append_assoc]
    exact second.code.trans (first.code.append_right _)

/-- Work that adds neither. -/
theorem Quotes.silent (module : t.context.module = s.context.module)
    (code : t.builder.function.aggregates.Perm s.builder.function.aggregates) :
    s.Quotes env base [] [] t where
  data := by
    intro before data
    rw [module, data, List.append_nil]
  code := by
    rw [placed_nil, List.append_nil]
    exact code

theorem Quotes.refl (s : BodyState) : s.Quotes env base [] [] s := .silent rfl (.refl _)

/-- Work that adds nothing more. -/
theorem Quotes.then (first : s.Quotes env base texts rows t)
    (second : t.Quotes env base [] [] u) : s.Quotes env base texts rows u := by
  simpa only [List.append_nil] using first.trans second

/-- An instruction adds the row of its operands. -/
theorem Quotes.push {block : BlockId} (selected : s.builder.Open block) {action : Action}
    (ty : Option Ty) {row : List (Option Literal)}
    (operands : action.operands.map Operand.aggregate? =
      row.map (Option.map (Literal.constant env base))) :
    s.Quotes env base [] (occupied row) (s.push block action ty) where
  data := by
    intro before data
    rw [List.append_nil]
    exact data
  code := by
    obtain ⟨-, content, known, -⟩ := selected
    rw [placed_occupied, ← operands]
    exact Function.aggregates_push known action ty

/-- An instruction without aggregates. -/
theorem Quotes.pushOther {block : BlockId} (selected : s.builder.Open block) {action : Action}
    (ty : Option Ty) (plain : ∀ operand ∈ action.operands, operand.aggregate? = none) :
    s.Quotes env base [] [] (s.push block action ty) := by
  obtain ⟨-, content, known, -⟩ := selected
  have grown := Function.aggregates_push known action ty
  rw [Ir.aggregatesAmong_eq_nil plain, List.append_nil] at grown
  exact .silent rfl grown

/-- The end of a block adds the row of its operands. -/
theorem Quotes.closed {block : BlockId} (selected : s.builder.Open block) {terminator : Terminator}
    {row : List (Option Literal)} (operands : terminator.operands.map Operand.aggregate? =
      row.map (Option.map (Literal.constant env base))) :
    s.Quotes env base [] (occupied row) (s.rebuilt (s.builder.closed block terminator)) where
  data := by
    intro before data
    rw [List.append_nil]
    exact data
  code := by
    obtain ⟨-, content, known, unended⟩ := selected
    rw [placed_occupied, ← operands]
    exact Function.aggregates_close known unended terminator

/-- The end of a block without aggregates. -/
theorem Quotes.closedOther {block : BlockId} (selected : s.builder.Open block)
    {terminator : Terminator} (plain : ∀ operand ∈ terminator.operands, operand.aggregate? = none) :
    s.Quotes env base [] [] (s.rebuilt (s.builder.closed block terminator)) := by
  obtain ⟨-, content, known, unended⟩ := selected
  have ended := Function.aggregates_close known unended terminator
  rw [Ir.aggregatesAmong_eq_nil plain, List.append_nil] at ended
  exact .silent rfl ended

theorem Quotes.withSlot (local_ : s.Local scope) (ty : Ty) (name : String) :
    s.Quotes env base [] [] (s.withSlot ty name) := by
  obtain ⟨entry, known⟩ := local_.entry
  exact .silent rfl (Function.aggregates_reserve known ty _)

theorem Quotes.fork {block : BlockId} (selected : u.builder.Open block) {cond : Operand}
    {note : Option Literal} (held : cond.aggregate? = note.map (Literal.constant env base))
    (next : BlockId) : u.Quotes env base [] (occupied [note]) ((u.fork block cond).at_ next) where
  data := by
    intro before data
    rw [List.append_nil]
    exact data
  code := by
    have grown := Builder.aggregates_fork selected cond
    rw [placed_occupied, List.map_singleton, ← held]
    exact grown

theorem Falls.quotes {next : BlockId} (falls : s.Falls next t) (start : BlockId) :
    s.Quotes env base [] [] (t.at_ start) := by
  cases falls with
  | ended ended => exact .silent rfl (.refl _)
  | @jumped block selected checked =>
    have ended : s.Quotes env base [] [] (s.rebuilt (s.builder.closed block (.br next))) :=
      .closedOther selected nofun
    have code := ended.code
    rw [placed_nil, List.append_nil] at code
    exact .silent rfl code

theorem Tallies.congr (tallies : s.Tallies env earlier scope ledger)
    (scopes : t.context.scopes = s.context.scopes)
    (quotes : s.Quotes env base texts rows t) :
    t.Tallies env earlier scope (ledger.past texts) where
  names := by
    rw [scopes]
    exact tallies.names
  data := by
    rw [Ledger.past, ← List.append_assoc]
    exact quotes.data _ tallies.data

theorem Tallies.silent (tallies : s.Tallies env earlier scope ledger)
    (scopes : t.context.scopes = s.context.scopes) (quotes : s.Quotes env base [] rows t) :
    t.Tallies env earlier scope ledger := by
  simpa only [Ledger.past_nil] using tallies.congr scopes quotes

theorem Tallies.emits (tallies : s.Tallies env earlier scope ledger) (emits : s.Emits t)
    (quotes : s.Quotes env base texts rows t) :
    t.Tallies env earlier scope (ledger.past texts) :=
  tallies.congr emits.scopes quotes

end BodyState

open BodyState (Quotes Tallies)

/-! ## Expressions -/

/-- The code of an expression adds the literals of the expression and the rows of its
instructions, and its value is the aggregate of the literal that it holds. -/
structure BodyState.Cites (s : BodyState) (env : Environment) (base : Nat) (expr : Expr)
    (ledger : Ledger) (value : ExprValue) (t : BodyState) : Prop where
  quotes : s.Quotes env base expr.literals (expr.uses ledger) t
  held : value.bound.aggregate? = (expr.held ledger).map (Literal.constant env base)

open BodyState (Cites)

/-- An expression that is no more than a value, and no literal. -/
theorem BodyState.Cites.plain {expr : Expr} {value : ExprValue} (literals : expr.literals = [])
    (uses : expr.uses ledger = []) (held : expr.held ledger = none)
    (other : value.bound.aggregate? = none) : s.Cites env base expr ledger value s where
  quotes := by
    rw [literals, uses]
    exact .refl s
  held := by rw [held, other]; rfl

/-- What is read is the literal that the expression holds. -/
theorem read_cites {expr : Expr} {value : ExprValue} {operand : Operand}
    (cites : s.Cites env base expr ledger value t) (run : value.read t = .ok operand u) :
    s.Cites env base expr ledger (.direct operand) u := by
  have opened := read_ok run
  cases value with
  | direct given =>
    obtain ⟨rfl, rfl⟩ := opened
    exact cites
  | slot home =>
    obtain ⟨block, ty, selected, rfl, rfl⟩ := opened
    exact ⟨cites.quotes.then (.pushOther selected _ (List.forall_mem_singleton.2 rfl)), cites.held⟩

/-- The operand of an expression, given what the expression does. -/
theorem evaluate_cites {expr : Expr} {operand : Operand}
    (lowered : ∀ value u, lowerExpr env scope expr s = .ok value u →
      s.Cites env base expr ledger value u)
    (run : evaluate env scope expr s = .ok operand t) :
    s.Cites env base expr ledger (.direct operand) t := by
  obtain ⟨value, u, found, read⟩ := evaluate_ok.1 run
  exact read_cites (lowered value u found) read

/-- A call has the row of its arguments. -/
theorem lowerCall_cites {callee : Expr} {value : ExprValue} {args : List Expr} {span : FileSpan}
    {result : Option Operand} (called : s.Cites env base callee ledger value u)
    (lowered : ∀ params operands v, args.length = params.length →
      lowerArgs env scope args params u = .ok operands v →
        u.Quotes env base (Expr.allLiterals args)
            (Expr.allUses (ledger.past callee.literals) args) v ∧
          operands.map Operand.aggregate? =
            (Expr.allHeld (ledger.past callee.literals) args).map
              (Option.map (Literal.constant env base)))
    (run : lowerCall env callee value args.length (lowerArgs env scope args) span u =
      .ok result t) :
    s.Quotes env base (Expr.call callee args span).literals
        ((Expr.call callee args span).uses ledger) t ∧
      ∀ operand, result = some operand → operand.aggregate? = none := by
  obtain ⟨id, params, operands, v, block, ty, -, count, arguments, selected, rfl, rfl⟩ :=
    lowerCall_ok run
  obtain ⟨quotes, rows⟩ := lowered params operands v count arguments
  have emitted : v.Quotes env base [] _ (v.push block (.call id operands) ty) :=
    .push selected ty rows
  have all := (called.quotes.trans quotes).trans emitted
  rw [List.append_nil] at all
  refine ⟨by simpa only [Expr.literals, Expr.uses] using all, ?_⟩
  intro operand same
  obtain ⟨image, -, rfl⟩ := Option.map_eq_some_iff.1 same
  rfl

theorem lowerAssign_cites {lhs rhs : Expr} {span : FileSpan} {value : ExprValue}
    (first : ∀ value u, lowerExpr env scope lhs s = .ok value u →
      s.Cites env base lhs ledger value u)
    (second : ∀ value u, lowerExpr env scope lhs s = .ok value u → ∀ value v,
      lowerExpr env scope rhs u = .ok value v →
        u.Cites env base rhs (ledger.past lhs.literals) value v)
    (run : lowerExpr env scope (.binary .assign lhs rhs span) s = .ok value t) :
    s.Cites env base (.binary .assign lhs rhs span) ledger value t := by
  obtain ⟨home, u, stored, v, block, lowered, evaluated, selected, rfl, rfl⟩ :=
    lowerExpr_assign_ok run
  have right := evaluate_cites (second _ _ lowered) evaluated
  have written : v.Quotes env base [] (occupied [rhs.held (ledger.past lhs.literals), none])
      (v.push block (.store stored (.value home.ptr)) none) :=
    .push selected none (congrArg (· :: [none]) right.held)
  have all := ((first _ _ lowered).quotes.trans right.quotes).trans written
  rw [List.append_nil] at all
  exact ⟨by simpa only [Expr.literals, Expr.uses] using all, right.held⟩

theorem lowerAdd_cites {lhs rhs : Expr} {span : FileSpan} {value : ExprValue}
    (first : ∀ value u, lowerExpr env scope lhs s = .ok value u →
      s.Cites env base lhs ledger value u)
    (second : ∀ operand u, evaluate env scope lhs s = .ok operand u → ∀ value v,
      lowerExpr env scope rhs u = .ok value v →
        u.Cites env base rhs (ledger.past lhs.literals) value v)
    (run : lowerExpr env scope (.binary .add lhs rhs span) s = .ok value t) :
    s.Cites env base (.binary .add lhs rhs span) ledger value t := by
  obtain ⟨left, u, right, v, block, ty, evaluated, evaluated', selected, rfl, rfl⟩ :=
    lowerExpr_add_ok run
  have left' := evaluate_cites first evaluated
  have right' := evaluate_cites (second _ _ evaluated) evaluated'
  have row : (Action.fadd left right).operands.map Operand.aggregate? =
      [lhs.held ledger, rhs.held (ledger.past lhs.literals)].map
        (Option.map (Literal.constant env base)) := by
    rw [List.map_cons, List.map_singleton, ← left'.held, ← right'.held]
    rfl
  have summed : v.Quotes env base [] _ (v.push block (.fadd left right) (some ty)) :=
    .push selected _ row
  have all := (left'.quotes.trans right'.quotes).trans summed
  rw [List.append_nil] at all
  exact ⟨by simpa only [Expr.literals, Expr.uses] using all, rfl⟩

/-- The handle of a literal is the number of literals before it. -/
theorem lowerString_cites (tallies : s.Tallies env earlier scope ledger) {text : String}
    {span : FileSpan} {value : ExprValue} (run : lowerString env text span s = .ok value t) :
    s.Cites env earlier.length (.string text span) ledger value t := by
  obtain ⟨ty, string, rfl, rfl⟩ := lowerString_ok run
  constructor
  · constructor
    · intro before data
      rw [Expr.literals]
      exact globals_addConstant data text
    · have silent : (Expr.string text span).uses ledger = [] := by simp [Expr.uses]
      rw [silent, placed_nil, List.append_nil]
  · have count : s.context.module.globals.length = earlier.length + ledger.texts.length := by
      rw [tallies.data, length_quoting, List.length_append]
    rw [Expr.held, Option.map_some, Literal.constant, env.stringStruct_eq string, ← count]
    rfl

mutual

theorem lowerExpr_cites (env : Environment) : ∀ (expr : Expr) {scope : ScopeId}
    {s t : BodyState} {value : ExprValue} {ledger : Ledger}, s.Ready scope →
      s.Tallies env earlier scope ledger → lowerExpr env scope expr s = .ok value t →
        s.Cites env earlier.length expr ledger value t
  | .identifier name span, scope, s, t, value, ledger, ready, tallies, run => by
    rw [lowerExpr] at run
    obtain ⟨found, rfl⟩ := lowerIdentifier_ok ready.inside run
    refine ⟨?_, tallies.names.names name _ found⟩
    rw [Expr.literals, Expr.uses]
    · exact .refl _
    all_goals simp
  | .member object property span, scope, s, t, value, ledger, ready, tallies, run => by
    rw [lowerExpr] at run
    obtain ⟨name, span', inner, rfl, -⟩ :=
      lowerMember_found tallies.names.inside tallies.names.namespaces run
    obtain ⟨outer, rfl⟩ := lowerMember_outer tallies.names run
    exact .plain (by simp [Expr.literals]) (by simp [Expr.uses]) rfl
      (BoundValue.aggregate?_of_outer outer)
  | .call callee args span, scope, s, t, value, ledger, ready, tallies, run => by
    obtain ⟨target, u, operand, lowered, called, rfl⟩ := lowerExpr_call_ok run
    have emits := (lowerExpr_stands ready lowered).1
    have cites := lowerExpr_cites env callee ready tallies lowered
    obtain ⟨quotes, plain⟩ := lowerCall_cites cites (fun _ _ _ => lowerArgs_cites env args
      (emits.ready ready) (tallies.emits emits cites.quotes)) called
    exact ⟨quotes, plain operand rfl⟩
  | .binary op lhs rhs span, scope, s, t, value, ledger, ready, tallies, run => by
    have first (value : ExprValue) (u : BodyState)
        (run : lowerExpr env scope lhs s = .ok value u) :
        s.Cites env earlier.length lhs ledger value u :=
      lowerExpr_cites env lhs ready tallies run
    have second {u : BodyState} (emits : s.Emits u)
        (quotes : s.Quotes env earlier.length lhs.literals (lhs.uses ledger) u) (value : ExprValue)
        (v : BodyState) (run : lowerExpr env scope rhs u = .ok value v) :
        u.Cites env earlier.length rhs (ledger.past lhs.literals) value v :=
      lowerExpr_cites env rhs (emits.ready ready) (tallies.emits emits quotes) run
    rcases lowerExpr_binary_ok run with rfl | rfl
    · refine lowerAssign_cites first (fun value u lowered => ?_) run
      exact second (lowerExpr_stands ready lowered).1 (first value u lowered).quotes
    · refine lowerAdd_cites first (fun operand u evaluated => ?_) run
      exact second (evaluate_stands ready evaluated).1 (evaluate_cites first evaluated).quotes
  | .bool literal span, scope, s, t, value, ledger, ready, tallies, run => by
    rw [lowerExpr] at run
    cases run
    exact .plain (by simp [Expr.literals]) (by simp [Expr.uses]) rfl rfl
  | .number literal span, scope, s, t, value, ledger, ready, tallies, run => by
    rw [lowerExpr] at run
    cases run
    exact .plain (by simp [Expr.literals]) (by simp [Expr.uses]) rfl rfl
  | .string text span, scope, s, t, value, ledger, ready, tallies, run => by
    rw [lowerExpr] at run
    exact lowerString_cites tallies run
  | .unary .., _, _, _, _, _, _, _, run | .null .., _, _, _, _, _, _, _, run
  | .array .., _, _, _, _, _, _, _, run | .index .., _, _, _, _, _, _, _, run => by
    rw [lowerExpr] at run
    cases run

/-- As many arguments as there are parameters are all lowered, and are the operands. -/
theorem lowerArgs_cites (env : Environment) : ∀ (args : List Expr) {params : List Ty}
    {scope : ScopeId} {s t : BodyState} {operands : List Operand} {ledger : Ledger},
    s.Ready scope → s.Tallies env earlier scope ledger → args.length = params.length →
      lowerArgs env scope args params s = .ok operands t →
        s.Quotes env earlier.length (Expr.allLiterals args) (Expr.allUses ledger args) t ∧
          operands.map Operand.aggregate? =
            (Expr.allHeld ledger args).map (Option.map (Literal.constant env earlier.length))
  | [], params, scope, s, t, operands, ledger, ready, tallies, count, run => by
    rw [lowerArgs] at run
    · cases run
      rw [Expr.allLiterals, Expr.allUses]
      exact ⟨.refl s, rfl⟩
    · simp
  | arg :: args, [], scope, s, t, operands, ledger, ready, tallies, count, run => by
    cases count
  | arg :: args, param :: params, scope, s, t, operands, ledger, ready, tallies, count, run => by
    obtain ⟨operand, u, rest, evaluated, lowered, rfl⟩ := lowerArgs_cons_ok run
    have emits := (evaluate_stands ready evaluated).1
    have first := evaluate_cites (fun _ _ => lowerExpr_cites env arg ready tallies) evaluated
    obtain ⟨quotes, row⟩ := lowerArgs_cites env args (emits.ready ready)
      (tallies.emits emits first.quotes) (Nat.succ.inj count) lowered
    rw [Expr.allLiterals, Expr.allUses, Expr.allHeld, List.map_cons, List.map_cons, row,
      ← first.held]
    exact ⟨first.quotes.trans quotes, rfl⟩

end

theorem operand_cites (ready : s.Ready scope) (tallies : s.Tallies env earlier scope ledger)
    {expr : Expr} {operand : Operand} (run : evaluate env scope expr s = .ok operand t) :
    s.Cites env earlier.length expr ledger (.direct operand) t :=
  evaluate_cites (fun _ _ => lowerExpr_cites env expr ready tallies) run

/-! ## Statements -/

section Statements

theorem expressionStatement_quotes (ready : s.Ready scope)
    (tallies : s.Tallies env earlier scope ledger) {expr : Expr} {span : FileSpan}
    (run : lowerStmt env scope (.expression expr span) s = .ok () t) :
    s.Quotes env earlier.length expr.literals (expr.uses ledger) t := by
  rcases expressionStatement_ok run with
    ⟨callee, args, span', target, u, result, rfl, lowered, called⟩ | ⟨value, lowered⟩
  · have emits := (lowerExpr_stands ready lowered).1
    have cites := lowerExpr_cites env callee ready tallies lowered
    exact (lowerCall_cites cites (fun _ _ _ => lowerArgs_cites env args
      (emits.ready ready) (tallies.emits emits cites.quotes)) called).1
  · exact (lowerExpr_cites env expr ready tallies lowered).quotes

/-- A constant is bound to its value, and a variable to a slot. -/
theorem BodyState.Declares.quotes {decl : Declarator} {kind : BindingKind}
    (declares : s.Declares env scope decl kind.isMutable t) (local_ : s.Local scope)
    (tallies : s.Tallies env earlier scope ledger) :
    s.Quotes env earlier.length decl.literals (decl.uses kind ledger) t ∧
      t.Tallies env earlier scope (ledger.declare kind decl) := by
  unfold Declarator.uses Ledger.declare Declarator.literals
  generalize kind.isMutable = mutability at declares
  cases declares with
  | @constant expr operand u b init run grown ok current blocks =>
    have emits := (evaluate_stands local_.toReady run).1
    have cites := operand_cites local_.toReady tallies run
    have known := tallies.emits emits cites.quotes
    have named : u.Quotes env earlier.length [] []
        ((u.rebuilt b).bound scope decl.name (.direct operand)) :=
      .silent rfl (List.Perm.of_eq (congrArg (List.flatMap _) blocks))
    have all := cites.quotes.trans named
    rw [List.append_nil expr.literals] at all
    rw [init]
    refine ⟨all, ?_, known.data⟩
    exact known.names.bound decl.name nofun fun bound same => Option.some.inj same ▸ cites.held
  | @blank ty init sized =>
    have reserved : s.Quotes env earlier.length [] [] _ :=
      .withSlot local_ ty (env.name decl.name)
    rw [init, Option.elim_none, List.append_nil]
    refine ⟨⟨reserved.data, reserved.code⟩, ?_, tallies.data⟩
    exact tallies.names.bound decl.name nofun fun bound same => Option.some.inj same ▸ rfl
  | @stored expr operand u ty block init run sized selected checked =>
    have emits := (evaluate_stands local_.toReady run).1
    have local' := emits.local local_
    have cites := operand_cites local_.toReady tallies run
    have known := tallies.emits emits cites.quotes
    have reserved : u.Quotes env earlier.length [] [] _ :=
      .withSlot local' ty (env.name decl.name)
    have written : BodyState.Quotes _ env earlier.length [] (occupied [expr.held ledger, none])
        ((u.withSlot ty (env.name decl.name)).push block
          (.store operand (.value (u.nextSlot ty).ptr)) none) :=
      .push selected none (congrArg (· :: [none]) cites.held)
    have all := (cites.quotes.then reserved).trans written
    rw [List.append_nil] at all
    rw [init]
    refine ⟨⟨all.data, all.code⟩, ?_, known.data⟩
    exact known.names.bound decl.name nofun fun bound same => Option.some.inj same ▸ rfl

theorem declarators_quote (kind : BindingKind) :
    ∀ {declarators : List Declarator} {s t : BodyState} {ledger : Ledger}, s.Local scope →
      s.Tallies env earlier scope ledger →
      declarators.forM (lowerDeclarator env scope kind) s = .ok () t →
        s.Quotes env earlier.length (declarators.flatMap Declarator.literals)
            (Declarator.allUses kind ledger declarators) t ∧
          t.Tallies env earlier scope (declarators.foldl (Ledger.declare kind) ledger)
  | [], s, t, ledger, local_, tallies, run => by
    cases run
    exact ⟨.refl s, tallies⟩
  | decl :: rest, s, t, ledger, local_, tallies, run => by
    obtain ⟨u, first, run⟩ := declarators_cons_ok run
    obtain ⟨names, -, done, after⟩ := (lowerDeclarator_foretold env kind local_ decl).of_ok first
    obtain ⟨declared, tallies'⟩ := (lowerDeclarator_ok local_ first).quotes local_ tallies
    obtain ⟨others, behind⟩ := declarators_quote kind (after.local local_ done.1) tallies' run
    exact ⟨declared.trans others, behind⟩

theorem lowerReturn_quotes (ready : s.Ready scope) (tallies : s.Tallies env earlier scope ledger)
    {value : Option Expr} {span : FileSpan}
    (run : lowerReturn env scope value span s = .ok () t) :
    s.Quotes env earlier.length (value.elim [] Expr.literals)
        (value.elim [] fun expr => expr.uses ledger ++ occupied [expr.held ledger]) t ∧
      t.Tallies env earlier scope (ledger.past (value.elim [] Expr.literals)) := by
  obtain ⟨u, operand, block, selected, checked, rfl, returns⟩ := lowerReturn_ok run
  cases returns with
  | nothing =>
    have ended : s.Quotes env earlier.length [] []
        (s.rebuilt (s.builder.closed block (.ret none))) := .closedOther selected nofun
    exact ⟨ended, tallies.congr rfl ended⟩
  | @value expr operand u evaluated =>
    have emits := (evaluate_stands ready evaluated).1
    have cites := operand_cites ready tallies evaluated
    have ended : u.Quotes env earlier.length [] (occupied [expr.held ledger])
        (u.rebuilt (u.builder.closed block (.ret (some operand)))) :=
      .closed selected (congrArg (· :: []) cites.held)
    have all := cites.quotes.trans ended
    rw [List.append_nil] at all
    exact ⟨all, tallies.congr emits.scopes all⟩

theorem skip_quotes (tallies : s.Tallies env earlier scope ledger) {kind : SyntaxKind}
    {span : FileSpan} (run : skip kind span s = .ok () t) :
    s.Quotes env earlier.length [] [] t ∧ t.Tallies env earlier scope (ledger.past []) := by
  obtain rfl := skip_ok run
  have quotes : s.Quotes env earlier.length [] []
      { s with context := s.context.warn ⟨.unhandledSyntax kind, span⟩ } := .silent rfl (.refl _)
  exact ⟨quotes, tallies.congr rfl quotes⟩

section Forks

variable {condition : Expr} {thenBranch : Stmt} {elseBranch : Option Stmt} {cond : Operand}
  {block : BlockId} {v v' w w' : BodyState}

/-- Into the first branch of a conditional. -/
theorem BodyState.Forks.quotesCondition
    (forks : s.Forks env scope condition thenBranch elseBranch cond block u v v' w w' t)
    (ready : s.Ready scope) (tallies : s.Tallies env earlier scope ledger) :
    s.Quotes env earlier.length condition.literals
        (condition.uses ledger ++ occupied [condition.held ledger])
        ((u.fork block cond).at_ ⟨u.next⟩) ∧
      ((u.fork block cond).at_ ⟨u.next⟩).Tallies env earlier scope
        (ledger.past condition.literals) := by
  have cites := operand_cites ready tallies forks.condition
  have forked := Quotes.fork forks.selected cites.held ⟨u.next⟩
  have all := cites.quotes.trans forked
  rw [List.append_nil] at all
  exact ⟨all, (tallies.emits forks.emits cites.quotes).silent rfl forked⟩

/-- From one branch into the other. -/
theorem BodyState.Forks.quotesBetween
    (forks : s.Forks env scope condition thenBranch elseBranch cond block u v v' w w' t)
    (tallies : v.Tallies env earlier scope ledger) :
    v.Quotes env earlier.length [] [] (v'.at_ ⟨u.next + 1⟩) ∧
      (v'.at_ ⟨u.next + 1⟩).Tallies env earlier scope ledger := by
  have quotes : v.Quotes env earlier.length [] [] (v'.at_ ⟨u.next + 1⟩) := forks.thenFalls.quotes _
  exact ⟨quotes, tallies.silent (congrArg (·.scopes) forks.thenFalls.context) quotes⟩

/-- Behind both branches. -/
theorem BodyState.Forks.quotesBehind
    (forks : s.Forks env scope condition thenBranch elseBranch cond block u v v' w w' t)
    (tallies : w.Tallies env earlier scope ledger) :
    w.Quotes env earlier.length [] [] t ∧ t.Tallies env earlier scope ledger := by
  rw [forks.last]
  have quotes : w.Quotes env earlier.length [] [] (w'.at_ ⟨u.next + 2⟩) := forks.elseFalls.quotes _
  exact ⟨quotes, tallies.silent (congrArg (·.scopes) forks.elseFalls.context) quotes⟩

end Forks

/-- What a block leaves are its literals and its rows. -/
theorem BodyState.Tallies.left {stmts : List Stmt} {span : FileSpan}
    {rows : List (List (Option Literal))} (tallies : s.Tallies env earlier scope ledger)
    (run : lowerStmt env scope (.block stmts span) s = .ok () t)
    (quotes : s.Quotes env earlier.length (Stmt.allLiterals stmts) rows t) :
    t.Tallies env earlier scope (ledger.past (Stmt.allLiterals stmts)) where
  names := tallies.names.rebinds (lowerStmt_binds env (.block stmts span) scope run)
  data := by
    rw [Ledger.past, ← List.append_assoc]
    exact quotes.data _ tallies.data

mutual

/-- The code of a statement adds the literals and the rows of the statement. -/
theorem lowerStmt_quotes (env : Environment) : ∀ (stmt : Stmt) {scope : ScopeId}
    {s t : BodyState} {ledger : Ledger}, s.Local scope → s.Tallies env earlier scope ledger →
      lowerStmt env scope stmt s = .ok () t →
        s.Quotes env earlier.length stmt.literals (stmt.uses ledger) t ∧
          t.Tallies env earlier scope (ledger.behind stmt)
  | .block stmts span, scope, s, t, ledger, local_, tallies, run => by
    obtain ⟨u, inner, rfl⟩ := block_ok local_.inside run
    have entered : (s.entered scope).Tallies env earlier s.home ledger :=
      ⟨tallies.names.entered, tallies.data⟩
    have within := lowerStmts_quotes env stmts local_.entered entered inner
    have quotes : s.Quotes env earlier.length (Stmt.allLiterals stmts)
        (Stmt.allUses ledger stmts) (u.leave s.home) := ⟨within.data, within.code⟩
    rw [Stmt.literals, Stmt.uses]
    exact ⟨quotes, tallies.left run quotes⟩
  | .expression expr span, scope, s, t, ledger, local_, tallies, run => by
    have emits := expressionStatement_emits local_.toReady run
    have quotes := expressionStatement_quotes local_.toReady tallies run
    rw [Stmt.literals, Stmt.uses]
    exact ⟨quotes, tallies.emits emits quotes⟩
  | .ifElse condition thenBranch elseBranch span, scope, s, t, ledger, local_, tallies, run => by
    obtain ⟨cond, block, u, v, v', w, w', forks⟩ := ifElse_ok local_ run
    obtain ⟨asked, tallies₁⟩ := forks.quotesCondition local_.toReady tallies
    obtain ⟨first, tallies₂⟩ :=
      lowerStmt_quotes env thenBranch forks.thenLocal tallies₁ forks.thenRun
    obtain ⟨between, tallies₃⟩ := forks.quotesBetween tallies₂
    obtain ⟨second, tallies₄⟩ :=
      lowerOptional_quotes env elseBranch forks.elseLocal tallies₃ forks.elseRun
    obtain ⟨behind, tallies₅⟩ := forks.quotesBehind tallies₄
    rw [Stmt.literals, Stmt.uses, Ledger.behind]
    exact ⟨(((asked.trans first).then between).trans second).then behind, tallies₅⟩
  | .ret value span, scope, s, t, ledger, local_, tallies, run => by
    rw [lowerStmt] at run
    rw [Stmt.uses, Stmt.literals]
    exact lowerReturn_quotes local_.toReady tallies run
  | .vars kind declarators span, scope, s, t, ledger, local_, tallies, run => by
    rw [lowerStmt] at run
    rw [Stmt.literals, Stmt.uses, Ledger.behind]
    exact declarators_quote kind local_ tallies run
  | .whileLoop .., _, _, _, _, _, tallies, run | .breakLoop .., _, _, _, _, _, tallies, run
  | .continueLoop .., _, _, _, _, _, tallies, run | .empty .., _, _, _, _, _, tallies, run => by
    rw [lowerStmt] at run
    rw [Stmt.uses]
    exact skip_quotes tallies run

theorem lowerOptional_quotes (env : Environment) : ∀ (stmt : Option Stmt) {scope : ScopeId}
    {s t : BodyState} {ledger : Ledger}, s.Local scope → s.Tallies env earlier scope ledger →
      lowerOptional env scope stmt s = .ok () t →
        s.Quotes env earlier.length (Stmt.literalsOptional stmt) (Stmt.usesOptional ledger stmt) t ∧
          t.Tallies env earlier scope (ledger.behindOptional stmt)
  | none, scope, s, t, ledger, local_, tallies, run => by
    rw [lowerOptional] at run
    cases run
    rw [Stmt.literalsOptional, Stmt.usesOptional, Ledger.behindOptional]
    exact ⟨.refl s, tallies⟩
  | some stmt, scope, s, t, ledger, local_, tallies, run => by
    rw [lowerOptional] at run
    rw [Stmt.literalsOptional, Stmt.usesOptional, Ledger.behindOptional]
    exact lowerStmt_quotes env stmt local_ tallies run

theorem lowerStmts_quotes (env : Environment) : ∀ (stmts : List Stmt) {scope : ScopeId}
    {s t : BodyState} {ledger : Ledger}, s.Local scope → s.Tallies env earlier scope ledger →
      lowerStmts env scope stmts s = .ok () t →
        s.Quotes env earlier.length (Stmt.allLiterals stmts) (Stmt.allUses ledger stmts) t
  | [], scope, s, t, ledger, local_, tallies, run => by
    rw [lowerStmts] at run
    cases run
    rw [Stmt.allLiterals, Stmt.allUses]
    exact .refl s
  | stmt :: rest, scope, s, t, ledger, local_, tallies, run => by
    obtain ⟨u, first, onward⟩ := lowerStmts_cons_cases local_ run
    obtain ⟨quotes, tallies'⟩ := lowerStmt_quotes env stmt local_ tallies first
    rw [Stmt.allLiterals, Stmt.allUses]
    apply quotes.trans
    rcases onward with ⟨closes, -, journal, rfl⟩ | ⟨closes, local', run⟩ <;> rw [closes]
    · exact .silent rfl (.refl _)
    · exact lowerStmts_quotes env rest local' tallies' run

end

end Statements

end SsaLowering
