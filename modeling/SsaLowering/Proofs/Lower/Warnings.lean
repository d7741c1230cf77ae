/-
# SsaLowering.Proofs.Lower.Warnings -- the warnings of a program, read off the tree

Which warnings a program gets is said on the source tree alone: what is skipped, and
for which functions control can arrive behind the body although a value is due
there (`Stmt.completes`, `Item.warnings`).  The lowering decides the second by a
search in the blocks that it has built.  Both agree, since what a statement does to
the reachable blocks follows its shape (`lowerStmt_reports`), also where code is
lowered into blocks that control never enters.

So the warnings of a program are exactly those of its tree, in source order
(`lowerProgram_diagnostics`).
-/
import SsaLowering.Proofs.Ir.Reachability
import SsaLowering.Proofs.Lower.Members

namespace SsaLowering

set_option autoImplicit false

open Ir (Ty FunctionTy Function Builder BlockId Operand)

/-! ## Warnings on the tree -/

mutual

/-- Whether control can arrive behind a statement. -/
def Stmt.completes : Stmt → Bool
  | .block stmts _ => Stmt.allComplete stmts
  | .ifElse _ thenBranch elseBranch _ =>
    thenBranch.completes || Stmt.completesOptional elseBranch
  | .ret .. => false
  | _ => true

def Stmt.completesOptional : Option Stmt → Bool
  | none => true
  | some stmt => stmt.completes

def Stmt.allComplete : List Stmt → Bool
  | [] => true
  | stmt :: rest => stmt.completes && Stmt.allComplete rest

end

mutual

/-- The warnings about what is skipped in a statement. -/
def Stmt.warnings : Stmt → List Diagnostic
  | .block stmts _ => Stmt.allWarnings stmts
  | .ifElse _ thenBranch elseBranch _ =>
    thenBranch.warnings ++ Stmt.warningsOptional elseBranch
  | .expression .. | .ret .. | .vars .. => []
  | skipped => [⟨.unhandledSyntax skipped.kind, skipped.span⟩]

def Stmt.warningsOptional : Option Stmt → List Diagnostic
  | none => []
  | some stmt => stmt.warnings

/-- The warnings of statements, up to the first that always returns. -/
def Stmt.allWarnings : List Stmt → List Diagnostic
  | [] => []
  | stmt :: rest => stmt.warnings ++ if stmt.closes then [] else Stmt.allWarnings rest

end

/-- Whether a function returns a value, so that its end must not be reached without one. -/
def FunctionDecl.yields (types : TypeMapping) (decl : FunctionDecl) : Bool :=
  match decl.returnType.map types.resolve with
  | some (.ok ty) => !ty.isVoid
  | _ => false

/-- The warnings of a function: those of its body, and then one if control can arrive behind
the body although a value is due there. -/
def Member.warnings (member : Member) (env : Environment) : List Diagnostic :=
  match member.decl.body with
  | none => []
  | some body =>
    Stmt.allWarnings body.stmts ++
      if member.decl.yields env.types && Stmt.allComplete body.stmts then
        [⟨.missingReturn (member.linkage env), member.decl.span⟩]
      else []

mutual

/-- The warnings of an item that is inside of namespaces. -/
def Item.warnings (env : Environment) (around : List Symbol) : Item → List Diagnostic
  | .function decl => Member.warnings ⟨around, decl⟩ env
  | .namespace_ name items _ => Item.allWarnings env (around ++ [name]) items
  | skipped => [⟨.unhandledSyntax skipped.kind, skipped.span⟩]

def Item.allWarnings (env : Environment) (around : List Symbol) : List Item → List Diagnostic
  | [] => []
  | item :: rest => item.warnings env around ++ Item.allWarnings env around rest

end

/-! ## Reports -/

variable {s t u : BodyState} {scope : ScopeId} {env : Environment} {completes completes' : Bool}
  {warnings warnings' : List Diagnostic}

/-- Work that added the warnings, and behind which control arrives if it arrives before it
and the work completes. -/
structure BodyState.Reports (s : BodyState) (completes : Bool) (warnings : List Diagnostic)
    (t : BodyState) : Prop where
  diagnostics : t.context.diagnostics = s.context.diagnostics ++ warnings
  flows : s.builder.Flows completes t.builder

namespace BodyState

theorem Reports.silent (flows : s.builder.Flows completes t.builder)
    (diagnostics : t.context.diagnostics = s.context.diagnostics) : s.Reports completes [] t where
  diagnostics := by rw [diagnostics, List.append_nil]
  flows := flows

theorem Reports.refl (s : BodyState) : s.Reports true [] s := .silent (.refl _) rfl

theorem Reports.trans (first : s.Reports completes warnings t)
    (second : t.Reports completes' warnings' u) :
    s.Reports (completes && completes') (warnings ++ warnings') u where
  diagnostics := by rw [second.diagnostics, first.diagnostics, List.append_assoc]
  flows := first.flows.trans second.flows

theorem Emits.reports (emits : s.Emits t) : s.Reports true [] t := by
  obtain ⟨more, same⟩ := emits.context
  exact .silent emits.builder.flows (by rw [same])

/-- Work after code that was emitted. -/
theorem Reports.of_emits (reports : t.Reports completes warnings u) (emits : s.Emits t) :
    s.Reports completes warnings u :=
  emits.reports.trans reports

end BodyState

/-! ## Statements -/

theorem BodyState.Declares.reports {decl : Declarator} {mutable : Bool}
    (declares : s.Declares env scope decl mutable t) (local_ : s.Local scope) :
    s.Reports true [] t := by
  cases declares with
  | @constant expr operand u b init run grown ok current blocks =>
    have emits := (evaluate_stands local_.toReady run).1
    obtain ⟨block, selected⟩ := (emits.local local_).selected
    have same (other : BlockId) : b.content other = u.builder.content other := by
      rw [Builder.content, Builder.content, Function.block?, Function.block?, blocks]
    have flows := selected.flows_content current grown.length_le same
    exact .of_emits (.silent flows rfl) emits
  | @blank ty init sized =>
    obtain ⟨block, selected⟩ := local_.selected
    exact .silent (selected.flows_content rfl (s.extends_withSlot ty _).length_le
      (s.builder.content_withSlot ty _)) rfl
  | @stored expr operand u ty block init run sized selected checked =>
    have emits := (evaluate_stands local_.toReady run).1
    obtain ⟨block', selected'⟩ := (emits.local local_).selected
    have slot : u.builder.Flows true (u.withSlot ty (env.name decl.name)).builder :=
      selected'.flows_content rfl (u.extends_withSlot ty _).length_le
        (u.builder.content_withSlot ty _)
    have stored := selected.flows_push (.store operand (.value (u.nextSlot ty).ptr)) none
    exact .of_emits (.silent (slot.trans stored) rfl) emits

theorem declarators_report (kind : BindingKind) : ∀ {declarators : List Declarator}
    {s t : BodyState}, s.Local scope →
      declarators.forM (lowerDeclarator env scope kind) s = .ok () t → s.Reports true [] t
  | [], s, t, _, run => by
    cases run
    exact .refl s
  | decl :: rest, s, t, local_, run => by
    obtain ⟨u, first, run⟩ := declarators_cons_ok run
    obtain ⟨names, -, done, after⟩ := (lowerDeclarator_foretold env kind local_ decl).of_ok first
    exact ((lowerDeclarator_ok local_ first).reports local_).trans
      (declarators_report kind (after.local local_ done.1) run)

theorem lowerReturn_reports (local_ : s.Local scope) {value : Option Expr} {span : FileSpan}
    (run : lowerReturn env scope value span s = .ok () t) : s.Reports false [] t := by
  obtain ⟨u, operand, block, selected, -, rfl, returns⟩ := lowerReturn_ok run
  have ended : u.Reports false [] (u.rebuilt (u.builder.closed block (.ret operand))) :=
    .silent (selected.flows_closed rfl) rfl
  exact ended.of_emits (returns.emits local_.toReady)

/-- A construct that is skipped leaves a warning and nothing else. -/
theorem skip_reports {kind : SyntaxKind} {span : FileSpan} (run : skip kind span s = .ok () t) :
    s.Reports true [⟨.unhandledSyntax kind, span⟩] t := by
  obtain rfl := skip_ok run
  exact ⟨rfl, .refl _⟩

/-- The end of a branch enters the block behind the conditional as control arrives there. -/
theorem BodyState.Falls.reached {next : BlockId} (falls : s.Falls next t)
    (open_ : t.builder.function.successors next = []) (v : BlockId) :
    t.builder.function.Reached v ↔
      s.builder.function.Reached v ∨ (s.builder.Live ∧ v = next) := by
  cases falls with
  | ended ended =>
    exact (or_iff_left fun both => Builder.not_live_of_isTerminated ended both.1).symm
  | jumped selected checked => exact selected.reached_jump open_

/-- A conditional reports what its branches report. -/
theorem BodyState.Forks.reports {condition : Expr} {thenBranch : Stmt} {elseBranch : Option Stmt}
    {cond : Operand} {block : BlockId} {v v' w w' : BodyState}
    (forks : s.Forks env scope condition thenBranch elseBranch cond block u v v' w w' t)
    (local_ : s.Local scope)
    (first : ((u.fork block cond).at_ ⟨u.next⟩).Reports completes warnings v)
    (second : (v'.at_ ⟨u.next + 1⟩).Reports completes' warnings' w) :
    s.Reports (completes || completes') (warnings ++ warnings') t := by
  have sound := (forks.emits.local local_).sound
  have thenOpen : v'.builder.function.successors ⟨u.next + 2⟩ = [] :=
    Function.successors_of_content
      (forks.selected.content_else forks.branched.first (by simp [BodyState.next])
        (by simp [BodyState.next]))
  have elseOpen : w'.builder.function.successors ⟨u.next + 2⟩ = [] :=
    Function.successors_of_content forks.branched.content_end
  refine .of_emits ⟨?_, ?_⟩ forks.emits
  · rw [forks.last]
    show w'.context.diagnostics = _
    rw [forks.elseFalls.context, second.diagnostics]
    show v'.context.diagnostics ++ _ = _
    rw [forks.thenFalls.context, first.diagnostics, List.append_assoc]
    rfl
  · rw [forks.last]
    exact forks.branched.flows sound.function first.flows (forks.thenFalls.reached thenOpen)
      second.flows (forks.elseFalls.reached elseOpen)

mutual

/-- A statement leaves its warnings, and control arrives behind it if it can complete. -/
theorem lowerStmt_reports (env : Environment) : ∀ (stmt : Stmt) {scope : ScopeId}
    {s t : BodyState}, s.Local scope → lowerStmt env scope stmt s = .ok () t →
      s.Reports stmt.completes stmt.warnings t
  | .block stmts span, scope, s, t, local_, run => by
    obtain ⟨u, inner, rfl⟩ := block_ok local_.inside run
    obtain ⟨diagnostics, flows⟩ := lowerStmts_reports env stmts local_.entered inner
    exact ⟨diagnostics, flows⟩
  | .expression expr span, scope, s, t, local_, run =>
    (expressionStatement_emits local_.toReady run).reports
  | .ifElse condition thenBranch elseBranch span, scope, s, t, local_, run => by
    obtain ⟨cond, block, u, v, v', w, w', forks⟩ := ifElse_ok local_ run
    exact forks.reports local_
      (lowerStmt_reports env thenBranch forks.thenLocal forks.thenRun)
      (lowerOptional_reports env elseBranch forks.elseLocal forks.elseRun)
  | .ret value span, scope, s, t, local_, run => by
    rw [lowerStmt] at run
    exact lowerReturn_reports local_ run
  | .vars kind declarators span, scope, s, t, local_, run => by
    rw [lowerStmt] at run
    exact declarators_report kind local_ run
  | .whileLoop .., _, _, _, _, run | .breakLoop .., _, _, _, _, run
  | .continueLoop .., _, _, _, _, run | .empty .., _, _, _, _, run => by
    rw [lowerStmt] at run
    exact skip_reports run

theorem lowerOptional_reports (env : Environment) : ∀ (stmt : Option Stmt) {scope : ScopeId}
    {s t : BodyState}, s.Local scope → lowerOptional env scope stmt s = .ok () t →
      s.Reports (Stmt.completesOptional stmt) (Stmt.warningsOptional stmt) t
  | none, scope, s, t, _, run => by
    rw [lowerOptional] at run
    cases run
    exact .refl s
  | some stmt, scope, s, t, local_, run => by
    rw [lowerOptional] at run
    exact lowerStmt_reports env stmt local_ run

theorem lowerStmts_reports (env : Environment) : ∀ (stmts : List Stmt) {scope : ScopeId}
    {s t : BodyState}, s.Local scope → lowerStmts env scope stmts s = .ok () t →
      s.Reports (Stmt.allComplete stmts) (Stmt.allWarnings stmts) t
  | [], scope, s, t, _, run => by
    rw [lowerStmts] at run
    cases run
    exact .refl s
  | stmt :: rest, scope, s, t, local_, run => by
    obtain ⟨u, first, onward⟩ := lowerStmts_cons_cases local_ run
    rw [Stmt.allWarnings]
    apply (lowerStmt_reports env stmt local_ first).trans
    rcases onward with ⟨closes, closed, journal, rfl⟩ | ⟨closes, local', run⟩ <;> rw [closes]
    · -- nothing is lowered behind an end, where control does not arrive either
      exact .silent (Builder.Flows.of_isTerminated closed (Stmt.allComplete rest)) rfl
    · exact lowerStmts_reports env rest local' run

end

/-! ## Bodies and functions -/

theorem emit_context {operation : Builder → Except Ir.BuildError Builder}
    (run : LowerBody.emit_ operation s = .ok () t) : t.context = s.context := by
  rw [LowerBody.emitUnit_run] at run
  split at run <;> cases run
  rfl

/-- There is a warning at the end of a body exactly where a value is due and control arrives. -/
theorem sealBody_diagnostics (placed : s.builder.Placed) {span : FileSpan}
    (live : s.builder.Live ↔ completes = true) (run : sealBody span s = .ok () t) :
    t.context.diagnostics = s.context.diagnostics ++
      if !s.builder.returnTy.isVoid && completes then
        [⟨.missingReturn s.builder.function.name, span⟩] else [] := by
  rw [sealBody, bind_run, LowerBody.builder_run] at run
  cases ended : s.builder.isTerminated with
  | true =>
    have dead : completes = false := by
      rw [← Bool.not_eq_true, ← live]
      exact Builder.not_live_of_isTerminated ended
    obtain ⟨block, data, current, known⟩ := placed
    rw [Builder.isTerminated, current] at ended
    simp only [current, ended, if_true] at run
    cases run
    simp [dead]
  | false =>
    obtain ⟨block, selected⟩ := placed.open ended
    rw [Builder.isTerminated, selected.current] at ended
    simp only [selected.current, ended, Bool.false_eq_true, if_false] at run
    cases void : s.builder.returnTy.isVoid with
    | true =>
      simp only [void, if_true] at run
      simp [emit_context run]
    | false =>
      have inside : block.index < s.builder.function.blocks.length := by
        obtain ⟨-, data, known, -⟩ := selected
        exact Function.lt_of_block? known
      simp only [void, Bool.false_eq_true, if_false, Function.contains_reachable inside,
        ← selected.live_iff, live] at run
      cases completes with
      | true =>
        rw [if_pos rfl, bind_ok] at run
        obtain ⟨_, u, warned, run⟩ := run
        cases warned
        rw [emit_context run]
        rfl
      | false =>
        rw [if_neg Bool.false_ne_true] at run
        rw [emit_context run]
        simp

/-- Control arrives at the start of a body. -/
theorem BodyState.Starts.live {params : List Param} {tys : List Ty}
    (starts : s.Starts scope params tys t) : t.builder.Live := by
  obtain ⟨label, entry⟩ := starts.entry
  have known : t.builder.function.block? ⟨0⟩ = some ⟨label, [], none⟩ := by
    rw [Function.block?, entry]
    rfl
  exact ⟨⟨0⟩, ⟨starts.current, _, known, rfl⟩, Function.reached_entry _⟩

/-- The warnings of a body that is built, with the one at its end. -/
theorem buildBody_diagnostics {decl : FunctionDecl} {ty : FunctionTy} {stmts : List Stmt}
    (declared : s.Declared scope ty) (count : decl.params.length = ty.params.length)
    (run : buildBody env scope decl stmts s = .ok () t) :
    t.context.diagnostics = s.context.diagnostics ++ (Stmt.allWarnings stmts ++
      if !ty.ret.isVoid && Stmt.allComplete stmts then
        [⟨.missingReturn s.builder.function.name, decl.span⟩] else []) := by
  obtain ⟨p, starts, opened⟩ := buildBody_eq env declared count stmts
  rw [opened] at run
  cases body : lowerStmts env s.home stmts p with
  | error failure q =>
    rw [body] at run
    cases run
  | ok a q =>
    rw [body] at run
    obtain ⟨names, -, done, after⟩ :=
      (lowerStmts_foretold env stmts s.home p starts.local_).of_ok body
    have placed : (q.leave s.home).builder.Placed := after.advances.placed starts.local_.placed
    have reports := lowerStmts_reports env stmts starts.local_ body
    have live : (q.leave s.home).builder.Live ↔ Stmt.allComplete stmts = true :=
      reports.flows.live.trans (and_iff_right starts.live)
    have grown := starts.function.trans done.2
    have returns : (q.leave s.home).builder.returnTy = ty.ret := by
      rw [← declared.signature]
      exact grown.returnTy
    have begun : p.context.diagnostics = s.context.diagnostics := by
      rw [starts.context]
      rfl
    have sealed := sealBody_diagnostics placed live run
    rw [returns, show (q.leave s.home).builder.function.name = _ from grown.name] at sealed
    rw [sealed, ← List.append_assoc, ← begun, ← reports.diagnostics]
    rfl

section Contexts

variable {cx cx' : Context}

theorem FunctionDecl.HasSignature.yields {types : TypeMapping} {decl : FunctionDecl}
    {signature : FunctionTy} (has : decl.HasSignature types signature) :
    decl.yields types = !signature.ret.isVoid := by
  have ret := has.ret
  unfold FunctionDecl.yields
  cases absent : decl.returnType with
  | none =>
    rw [absent] at ret
    rw [ret]
    rfl
  | some ty =>
    rw [absent] at ret
    simp only [Option.map_some, ret]

/-- A function that is lowered leaves the warnings of its declaration. -/
theorem lowerFunction_diagnostics (sound : cx.Sound) {decl : FunctionDecl}
    (run : lowerFunction env scope decl cx = .ok () cx') :
    cx'.diagnostics = cx.diagnostics ++
      Member.warnings ⟨cx.scopes.namespacePath scope, decl⟩ env := by
  have outcome : FunctionOutcome env scope decl cx (lowerFunction env scope decl cx) :=
    lowerFunction_outcome sound
  rw [run] at outcome
  unfold Member.warnings
  cases outcome with
  | @external signature linkage header absent =>
    simp only [absent, List.append_nil]
    rfl
  | @installed signature linkage body t header present build passed =>
    have has := signature?_ok.1 header.typed
    have linked : Member.linkage ⟨cx.scopes.namespacePath scope, decl⟩ env = linkage :=
      (mangle_ok.1 header.linked).2.symm
    have built := buildBody_diagnostics
      (sound.begun header.inside decl.name linkage signature) has.params_length build
    simp only [present, has.yields, linked]
    exact built

/-! ## Items and programs -/

mutual

/-- An item that is lowered leaves its warnings. -/
theorem lowerItem_diagnostics (env : Environment) : ∀ (item : Item) {scope : ScopeId}
    {cx cx' : Context}, cx.Sound → cx.scopes.contains scope →
      lowerItem env scope item cx = .ok () cx' →
        cx'.diagnostics = cx.diagnostics ++ item.warnings env (cx.scopes.namespacePath scope)
  | .function decl, scope, cx, cx', sound, _, run => by
    rw [lowerItem] at run
    exact lowerFunction_diagnostics sound run
  | .namespace_ name items span, scope, cx, cx', sound, inside, run => by
    obtain ⟨sound', there, path⟩ := sound.opened inside (.namespaceEntered (env.name name)) name
    have ends := lowerItems_ends env items _ _ sound' there
    rw [lowerItem, namespace_run _ inside name (lowerItems env · items) ends] at run
    split at run <;> cases run
    rename_i inner
    have left := lowerItems_diagnostics env items sound' there inner
    rw [path] at left
    exact left
  | .class_ name span, scope, cx, cx', sound, _, run => by
    rw [lowerItem] at run
    cases run
    rfl
  | .interface name span, scope, cx, cx', sound, _, run => by
    rw [lowerItem] at run
    cases run
    rfl
  | .typeAlias name type span, scope, cx, cx', sound, _, run => by
    rw [lowerItem] at run
    cases run
    rfl

theorem lowerItems_diagnostics (env : Environment) : ∀ (items : List Item) {scope : ScopeId}
    {cx cx' : Context}, cx.Sound → cx.scopes.contains scope →
      lowerItems env scope items cx = .ok () cx' →
        cx'.diagnostics = cx.diagnostics ++
          Item.allWarnings env (cx.scopes.namespacePath scope) items
  | [], scope, cx, cx', _, _, run => by
    rw [lowerItems] at run
    cases run
    exact (List.append_nil _).symm
  | item :: rest, scope, cx, cx', sound, inside, run => by
    rw [lowerItems, bind_ok] at run
    obtain ⟨_, cx'', first, run⟩ := run
    have ends := lowerItem_ends env item scope cx sound inside
    rw [first] at ends
    obtain ⟨fs, adds⟩ := ends
    rw [lowerItems_diagnostics env rest adds.sound (adds.scopes.contains scope inside) run,
      lowerItem_diagnostics env item sound inside first,
      adds.scopes.namespacePath sound.ordered inside, Item.allWarnings, List.append_assoc]

end

/-- Units that are lowered leave the warnings of their items, one unit after the other. -/
theorem lowerUnits_diagnostics (env : Environment) : ∀ (units : List SourceUnit)
    {cx cx' : Context}, cx.Sound → cx.scopes.namespacePath ScopeTable.global = [] →
      lowerUnits env units cx = .ok () cx' →
        cx'.diagnostics = cx.diagnostics ++
          units.flatMap fun unit => Item.allWarnings env [] unit.items
  | [], cx, cx', _, _, run => by
    rw [lowerUnits] at run
    cases run
    exact (List.append_nil _).symm
  | unit :: rest, cx, cx', sound, path, run => by
    rw [lowerUnits, bind_ok] at run
    obtain ⟨_, cx'', first, run⟩ := run
    replace first : lowerItems env ScopeTable.global unit.items
      (cx.log (.unitStarted unit.name unit.items.length)) = .ok () cx'' := first
    have logged : (cx.log (.unitStarted unit.name unit.items.length)).Sound :=
      sound.restored (cx.restored_log _)
    have ends := lowerItems_ends env unit.items ScopeTable.global _ logged logged.root
    rw [first] at ends
    obtain ⟨fs, adds⟩ := ends
    have path' : cx''.scopes.namespacePath ScopeTable.global = [] :=
      (adds.scopes.namespacePath logged.ordered logged.root).trans path
    have left := lowerItems_diagnostics env unit.items logged logged.root first
    rw [show (cx.log _).scopes.namespacePath ScopeTable.global = [] from path] at left
    rw [lowerUnits_diagnostics env rest adds.sound path' run, left, List.flatMap_cons,
      ← List.append_assoc]
    rfl

end Contexts

/-- The warnings of a program that is lowered are those of its tree: in source order, one for
each item and statement that is skipped, and behind the warnings of its body one for each
function behind whose body control can arrive although a value is due there. -/
theorem lowerProgram_diagnostics (env : Environment) (name : String) (units : List SourceUnit)
    (program : LoweredProgram) (run : (lowerProgram env name units).1 = .ok program) :
    program.diagnostics = units.flatMap fun unit => Item.allWarnings env [] unit.items := by
  unfold lowerProgram at run
  split at run <;> cases run
  rename_i cx lowered
  rw [lowerAll, bind_ok] at lowered
  obtain ⟨_, cx', first, lowered⟩ := lowered
  rw [bind_run, get_run] at lowered
  cases verified : cx'.module.verify with
  | error defect =>
    simp only [verified] at lowered
    cases lowered
  | ok u =>
    simp only [verified] at lowered
    cases lowered
    exact lowerUnits_diagnostics env units (Context.sound_initial name) rfl first

/-- A class, and `if (true) return x; ;` and `if (true) return x; else { return x } while (true) ;`
as functions of a namespace. -/
def Sample.warned : SourceUnit where
  file := ⟨0⟩
  name := "sample"
  items := [.class_ ⟨1⟩ .unplaced, .namespace_ ⟨2⟩ [
    .function (function [.ifElse (.bool true .unplaced) (.ret (some x) .unplaced) none .unplaced,
      .empty .unplaced]),
    .function { function [.ifElse (.bool true .unplaced) (.ret (some x) .unplaced)
        (some (.block [.ret (some x) .unplaced] .unplaced)) .unplaced,
      .whileLoop (.bool true .unplaced) (.empty .unplaced) .unplaced] with name := ⟨1⟩ }] .unplaced]

theorem lowerProgram_diagnostics_sample :
    ∃ program, (lowerProgram Sample.standard "m" [Sample.warned]).1 = .ok program ∧
      program.diagnostics = [⟨.unhandledSyntax .classDeclaration, .unplaced⟩,
        ⟨.unhandledSyntax .emptyStatement, .unplaced⟩, ⟨.missingReturn "y__f", .unplaced⟩,
        ⟨.unhandledSyntax .whileStatement, .unplaced⟩] := by
  have passes : (lowerProgram Sample.standard "m" [Sample.warned]).1.toBool = true := by cbv
  cases run : (lowerProgram Sample.standard "m" [Sample.warned]).1 with
  | error failure =>
    rw [run] at passes
    cases passes
  | ok program =>
    exact ⟨program, rfl, (lowerProgram_diagnostics _ _ _ _ run).trans (by cbv)⟩

end SsaLowering
