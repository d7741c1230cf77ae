/-
# SsaLowering.Proofs.Lower.Blocks -- the blocks that a statement opens, and those it leaves alone

An expression is lowered at the end of the block that is selected and leaves it open
(`LowerBody.Straight`).  A statement may end this block and go on in new ones, a conditional
with three that are open at the same time; but all that it opens it ends, except for the one
that it is in at its end, and it touches no other block (`LowerBody.Contained`).  Both are
told of runs from any state, with no assumption about what is in it.
-/
import SsaLowering.Proofs.Ir.Unfolding
import SsaLowering.Proofs.Lower.Opened
import SsaLowering.Proofs.Lower.Shadowing

namespace SsaLowering

set_option autoImplicit false

open Ir (Ty BlockId Operand Builder BuildError)

variable {α β : Type}

/-! ## Ends and moves -/

theorem positionAtEnd_state {s t : BodyState} {block : BlockId} {u : Unit}
    (run : LowerBody.emit_ (·.positionAtEnd block) s = .ok u t) : t = s.at_ block := by
  rw [LowerBody.emitUnit_run] at run
  split at run
  · rename_i done
    obtain ⟨-, rfl⟩ := Builder.positionAtEnd_ok.1 done
    cases run
    rfl
  · cases run

theorem terminate_state {s t : BodyState} {terminator : Ir.Terminator} {start : BlockId} {u : Unit}
    (opened : s.builder.Open start)
    (run : LowerBody.emit_ (·.terminate terminator) s = .ok u t) :
    s.builder.Unfolds start [] t.builder ∧ t.builder.isTerminated = true := by
  obtain ⟨block, selected, -, rfl⟩ := terminate_run_ok.1 run
  obtain rfl := Option.some.inj (opened.current.symm.trans selected.current)
  exact ⟨opened.unfolds_closed terminator, opened.isTerminated_closed terminator⟩

/-! ## Runs -/

namespace LowerBody

/-- Where the run succeeds from an open block, it has filled this block and left it open. -/
def Straight (x : LowerBody α) : Prop :=
  ∀ ⦃s a t start⦄, s.builder.Open start → x s = .ok a t →
    s.builder.Unfolds start [] t.builder ∧ t.builder.Open start

/-- Where the run succeeds from an open block, all blocks that it created have grown out of
this block. -/
def Contained (x : LowerBody α) : Prop :=
  ∀ ⦃s a t start⦄, s.builder.Open start → x s = .ok a t → s.builder.Unfolds start [] t.builder

namespace Straight

theorem contained {x : LowerBody α} (straight : Straight x) : Contained x :=
  fun _ _ _ _ opened run => (straight opened run).1

theorem bind {x : LowerBody α} {f : α → LowerBody β} (first : Straight x)
    (next : ∀ a, Straight (f a)) : Straight (x >>= f) := by
  intro s b t start opened run
  obtain ⟨a, u, ran, rest⟩ := bind_ok.1 run
  obtain ⟨unfolds, opened'⟩ := first opened ran
  obtain ⟨unfolds', last⟩ := next a opened' rest
  exact ⟨unfolds.trans opened'.current unfolds', last⟩

/-- Behind straight code a statement may follow. -/
theorem andThen {x : LowerBody α} {f : α → LowerBody β} (first : Straight x)
    (next : ∀ a, Contained (f a)) : Contained (x >>= f) := by
  intro s b t start opened run
  obtain ⟨a, u, ran, rest⟩ := bind_ok.1 run
  obtain ⟨unfolds, opened'⟩ := first opened ran
  exact unfolds.trans opened'.current (next a opened' rest)

/-- What leaves the builder alone. -/
theorem of_same {x : LowerBody α} (same : ∀ ⦃s a t⦄, x s = .ok a t → t.builder = s.builder) :
    Straight x := by
  intro s a t start opened run
  rw [same run]
  exact ⟨opened.unfolds_self, opened⟩

theorem pure (a : α) : Straight (pure a : LowerBody α) := by
  apply of_same
  intro s b t run
  cases run
  rfl

theorem refuse (cause : LowerError) : Straight (LowerBody.refuse cause : LowerBody α) := by
  intro s a t start _ run
  cases run

theorem outside (step : Lower α) : Straight (LowerBody.outside step) := by
  apply of_same
  intro s a t run
  rw [outside_run] at run
  split at run
  · cases run
    rfl
  · cases run

theorem builder : Straight LowerBody.builder := by
  apply of_same
  intro s b t run
  cases run
  rfl

theorem context : Straight LowerBody.context := by
  apply of_same
  intro s b t run
  cases run
  rfl

/-- An operation that adds code to an open block. -/
theorem emit {operation : Builder → Except BuildError (α × Builder)}
    (fills : ∀ {b c : Builder} {a : α} {start : BlockId}, b.Open start →
      operation b = .ok (a, c) → b.Unfolds start [] c ∧ c.Open start) :
    Straight (LowerBody.emit operation) := by
  intro s a t start opened run
  rw [emit_run] at run
  split at run
  · rename_i done
    cases run
    exact fills opened done
  · cases run

theorem emitUnit {operation : Builder → Except BuildError Builder}
    (fills : ∀ {b c : Builder} {start : BlockId}, b.Open start → operation b = .ok c →
      b.Unfolds start [] c ∧ c.Open start) :
    Straight (LowerBody.emit_ operation) := by
  apply emit
  intro b c a start opened done
  obtain ⟨c', done', same⟩ := except_bind_ok.1 done
  cases same
  exact fills opened done'

theorem operandTy (operand : Operand) : Straight (LowerBody.operandTy operand) := by
  apply of_same
  intro s ty t run
  rw [LowerBody.operandTy, ask_run] at run
  split at run
  · cases run
    rfl
  · cases run

/-- The steps of expressions add code to the open block. -/
theorem closed : Closed fun _ x => Straight x where
  pure := pure
  refuse := refuse
  bind := bind
  context := context
  requireScope := fun _ => outside _
  addConstant := fun _ => outside _
  operandTy := operandTy
  load := fun _ _ => emit fun opened done => opened.emitValue done
  store := fun _ _ => emitUnit fun opened done => opened.store done
  fadd := fun _ _ => emit fun opened done => opened.emitValue done
  call := fun _ _ _ => emit fun opened done => opened.emit done

end Straight

namespace Contained

/-- The end of the open block. -/
theorem terminate (terminator : Ir.Terminator) :
    Contained (LowerBody.emit_ (·.terminate terminator)) :=
  fun _ _ _ _ opened run => (terminate_state opened run).1

theorem check {failed : Prop} [Decidable failed] {cause : LowerError} {rest : PUnit → LowerBody α}
    (goes : Contained (rest ⟨⟩)) :
    Contained (if failed then LowerBody.refuse cause >>= rest else rest ⟨⟩) := by
  split
  · intro s a t start _ run
    cases run
  · exact goes

/-- A scope is entered and left beside the builder. -/
theorem inScope {parent : ScopeId} {work : ScopeId → LowerBody α}
    (contained : ∀ scope, Contained (work scope)) : Contained (LowerBody.inScope parent work) := by
  intro s a t start opened run
  rw [inScope_run] at run
  split at run
  · split at run
    · rename_i ran
      cases run
      have inner := contained _ (s := { s with context := (s.context.enter parent none).2 }) opened ran
      exact inner
    · cases run
  · cases run

end Contained

end LowerBody

open LowerBody (Straight Contained)

/-! ## Variables -/

theorem bindConstant_straight (env : Environment) (scope : ScopeId) (decl : Declarator)
    (init : Option (Operand × Ty)) : Straight (bindConstant env scope decl init) := by
  unfold bindConstant
  rcases init with _ | ⟨operand, ty⟩
  · exact .refuse _
  · have bound := Straight.closed.discard (.outside (Lower.bind scope decl.name (.direct operand)))
    dsimp only
    split
    · refine (Straight.closed.discard ?_).bind fun _ => bound
      exact .emit fun opened done => opened.nameValue done
    · exact bound

theorem bindVariable_straight (env : Environment) (scope : ScopeId) (decl : Declarator)
    (declared : Option Ty) (init : Option (Operand × Ty)) :
    Straight (bindVariable env scope decl declared init) := by
  unfold bindVariable
  dsimp only
  split
  · refine (Straight.emit fun opened done => opened.alloca done).bind fun ptr => ?_
    have bound (ty : Ty) :=
      Straight.closed.discard (.outside (Lower.bind scope decl.name (.slot ⟨ptr, ty⟩)))
    cases init with
    | none => exact bound _
    | some given => exact (Straight.closed.store _ _).bind fun _ => bound _
  · exact .refuse _

theorem lowerDeclarator_straight (env : Environment) (scope : ScopeId) (kind : BindingKind)
    (decl : Declarator) : Straight (lowerDeclarator env scope kind decl) := by
  rw [lowerDeclarator_eq]
  have typed : Straight (declaredTy env decl) := by
    unfold declaredTy
    split
    · exact .pure _
    · split
      · exact .pure _
      · exact .refuse _
  have valued (declared : Option Ty) : Straight (initialValue env scope declared decl) := by
    unfold initialValue
    split
    · exact .pure _
    · exact Straight.closed.map _ (Straight.closed.initializer env scope declared _)
  refine typed.bind fun declared => (valued declared).bind fun init => ?_
  split
  · exact bindVariable_straight env scope decl declared init
  · exact bindConstant_straight env scope decl init

theorem declarators_straight (env : Environment) (scope : ScopeId) (kind : BindingKind) :
    ∀ declarators : List Declarator, Straight (declarators.forM (lowerDeclarator env scope kind))
  | [] => .pure _
  | decl :: rest =>
    (lowerDeclarator_straight env scope kind decl).bind fun _ =>
      declarators_straight env scope kind rest

/-! ## Control flow -/

theorem lowerReturn_contained (env : Environment) (scope : ScopeId) (value : Option Expr)
    (span : FileSpan) : Contained (lowerReturn env scope value span) := by
  refine Straight.builder.andThen fun b => ?_
  cases value with
  | none => exact .check (.terminate _)
  | some expr =>
    refine (Straight.closed.expr env scope expr).andThen fun value => ?_
    refine (Straight.closed.read value).andThen fun found => ?_
    exact (Straight.operandTy found).andThen fun ty => .check (.terminate _)

/-- A branch fills the block that is made for it and is left where something has ended. -/
theorem lowerBranch_unfolds {b : Builder} {start first next : BlockId} {rest : List BlockId}
    {branch : LowerBody Unit} {s t : BodyState} (contained : Contained branch)
    (unfolds : b.Unfolds start (first :: rest) s.builder) (ended : s.builder.isTerminated = true)
    (once : first ∉ rest) (run : lowerBranch first next branch s = .ok () t) :
    b.Unfolds start rest t.builder ∧ t.builder.isTerminated = true := by
  rw [lowerBranch, bind_ok] at run
  obtain ⟨_, _, entered, run⟩ := run
  obtain rfl := positionAtEnd_state entered
  rw [bind_ok] at run
  obtain ⟨_, v, ran, run⟩ := run
  have filled := (unfolds.enter ended once).trans rfl (contained unfolds.open_at ran)
  rw [bind_run, LowerBody.builder_run] at run
  simp only [] at run
  cases unended : v.builder.isTerminated with
  | true =>
    rw [unended] at run
    cases run
    exact ⟨filled, unended⟩
  | false =>
    rw [unended] at run
    obtain ⟨block, opened⟩ := filled.open_current unended
    obtain ⟨last, done⟩ := terminate_state opened run
    exact ⟨filled.trans opened.current last, done⟩

/-- A conditional opens three blocks, fills the first two and goes on in the third. -/
theorem ifElse_contained (env : Environment) (scope : ScopeId) (condition : Expr)
    {thenBranch : Stmt} {elseBranch : Option Stmt}
    (first : Contained (lowerStmt env scope thenBranch))
    (second : Contained (lowerOptional env scope elseBranch)) (span : FileSpan) :
    Contained (lowerStmt env scope (.ifElse condition thenBranch elseBranch span)) := by
  rw [lowerStmt]
  refine (Straight.closed.condition env scope condition).andThen fun cond => ?_
  intro s u t start opened run
  rw [bind_run, appendBlock_run] at run
  simp only [] at run
  rw [bind_run, appendBlock_run] at run
  simp only [] at run
  rw [bind_run, appendBlock_run] at run
  simp only [] at run
  rw [bind_ok] at run
  obtain ⟨_, v, forked, run⟩ := run
  have grown : s.builder.Unfolds start
      [⟨s.next⟩, ⟨(s.grow "then").next⟩, ⟨((s.grow "then").grow "else").next⟩]
      (((s.grow "then").grow "else").grow "endif").builder :=
    ((opened.unfolds_self.appendBlock "then").appendBlock "else").appendBlock "endif"
  simp only [BodyState.next_grow] at forked run grown
  obtain ⟨split, ended⟩ := terminate_state opened.addBlocks forked
  have pending := grown.trans opened.current split
  rw [bind_ok] at run
  obtain ⟨_, v', firstRun, run⟩ := run
  obtain ⟨filled, ended⟩ := lowerBranch_unfolds first pending ended (by simp [Nat.add_assoc]) firstRun
  rw [bind_ok] at run
  obtain ⟨_, w, secondRun, run⟩ := run
  obtain ⟨filled, ended⟩ := lowerBranch_unfolds second filled ended (by simp) secondRun
  obtain rfl := positionAtEnd_state run
  exact filled.enter ended List.not_mem_nil

/-! ## Statements -/

mutual

/-- A statement is lowered into the open block and into blocks that grow out of it. -/
theorem lowerStmt_contained (env : Environment) : ∀ (stmt : Stmt) (scope : ScopeId),
    Contained (lowerStmt env scope stmt)
  | .block stmts _, scope => by
    rw [lowerStmt]
    exact .inScope fun inner => lowerStmts_contained env stmts inner
  | .expression expr span, scope => (Straight.closed.statement env scope expr span).contained
  | .ifElse condition thenBranch elseBranch span, scope =>
    ifElse_contained env scope condition (lowerStmt_contained env thenBranch scope)
      (lowerOptional_contained env elseBranch scope) span
  | .ret value span, scope => by
    rw [lowerStmt]
    exact lowerReturn_contained env scope value span
  | .vars kind declarators _, scope => by
    rw [lowerStmt]
    exact (declarators_straight env scope kind declarators).contained
  | .whileLoop .., _ | .breakLoop .., _ | .continueLoop .., _ | .empty .., _ => by
    rw [lowerStmt]
    exact (Straight.outside _).contained

theorem lowerOptional_contained (env : Environment) : ∀ (stmt : Option Stmt) (scope : ScopeId),
    Contained (lowerOptional env scope stmt)
  | none, _ => by
    rw [lowerOptional]
    exact (Straight.pure _).contained
  | some stmt, scope => by
    rw [lowerOptional]
    exact lowerStmt_contained env stmt scope

theorem lowerStmts_contained (env : Environment) : ∀ (stmts : List Stmt) (scope : ScopeId),
    Contained (lowerStmts env scope stmts)
  | [], _ => by
    rw [lowerStmts]
    exact (Straight.pure _).contained
  | stmt :: rest, scope => by
    intro s u t start opened run
    rw [lowerStmts, bind_run, LowerBody.builder_run] at run
    simp only [opened.not_terminated, Bool.false_eq_true, if_false] at run
    rw [bind_ok] at run
    obtain ⟨_, v, first, run⟩ := run
    have unfolds := lowerStmt_contained env stmt scope opened first
    cases ended : v.builder.isTerminated with
    | true =>
      obtain ⟨journal, rfl⟩ := lowerStmts_closed_ok ended run
      exact unfolds
    | false =>
      obtain ⟨block, opened'⟩ := unfolds.open_current ended
      exact unfolds.trans opened'.current (lowerStmts_contained env rest scope opened' run)

end

/-- Where a statement, or a list of them, is lowered from an open block, each block that it
creates has ended, except for the one that it is in at its end; the block it starts in has
ended too, unless it is still there.  All other blocks are as they were, open or not, but for
slots at the top of the entry block.  And the new blocks are entered from the block it starts
in and from each other, unless a branch led to a block that did not exist, which no builder
makes. -/
theorem statements_unfold (env : Environment) {scope : ScopeId} {s t : BodyState}
    {start : BlockId} (opened : s.builder.Open start)
    (run : (∃ stmt, lowerStmt env scope stmt s = .ok () t) ∨
      ∃ stmts, lowerStmts env scope stmts s = .ok () t) :
    s.builder.Unfolds start [] t.builder ∧
      (s.builder.function.BranchesInside → ∀ id block, s.builder.Creates t.builder id →
        id ∈ t.builder.function.successors block →
          block = start ∨ s.builder.Creates t.builder block) ∧
      ∀ name ty ops, s.builder = ((Ir.Construction.start name ty).run ops).builder →
        s.builder.function.BranchesInside := by
  have unfolds : s.builder.Unfolds start [] t.builder := by
    rcases run with ⟨stmt, run⟩ | ⟨stmts, run⟩
    · exact lowerStmt_contained env stmt scope opened run
    · exact lowerStmts_contained env stmts scope opened run
  refine ⟨unfolds, fun inside _ _ created edge => unfolds.predecessors inside created edge, ?_⟩
  intro name ty ops made
  rw [made]
  exact Ir.Construction.run_branchesInside name ty ops

/-- `if (true) let y = x` starts in the entry block, goes on in the third of its blocks, and
enters this one from the first two of them at most. -/
theorem statements_unfold_sample :
    ∃ scope s t, lowerStmt Sample.standard scope Sample.branching s = .ok () t ∧
      s.builder.Open ⟨0⟩ ∧ s.builder.function.blocks.length = 1 ∧
      t.builder.current = some ⟨3⟩ ∧ s.builder.Unfolds ⟨0⟩ [] t.builder ∧
      s.builder.function.BranchesInside ∧
      ∀ block, (⟨3⟩ : BlockId) ∈ t.builder.function.successors block →
        block = ⟨0⟩ ∨ s.builder.Creates t.builder block := by
  have computed : (Sample.around Sample.branching).map (fun found =>
      (found.2.1.builder.current, found.2.1.builder.function.blocks.length,
        found.2.1.builder.hasTerminator ⟨0⟩, found.2.2.builder.current,
        found.2.2.builder.function.blocks.length)) =
      some (some ⟨0⟩, 1, false, some ⟨3⟩, 4) := by cbv
  obtain ⟨⟨scope, s, t⟩, runs, found⟩ := Option.map_eq_some_iff.1 computed
  simp only [Prod.mk.injEq] at found
  obtain ⟨current, count, unended, last, count'⟩ := found
  have run := (Sample.around_ok runs).2
  have opened : s.builder.Open ⟨0⟩ :=
    Builder.open_of_not_hasTerminator current (by rw [count]; decide) unended
  have inside : s.builder.function.BranchesInside := by
    rintro ⟨index⟩ target edge
    have bound : index < s.builder.function.blocks.length := Ir.Function.lt_of_mem_successors edge
    obtain rfl : index = 0 := by omega
    obtain ⟨-, block, known, open_⟩ := opened
    rw [Ir.Function.successors, known, Option.bind_some, open_] at edge
    cases edge
  obtain ⟨unfolds, entered, -⟩ :=
    statements_unfold Sample.standard opened (.inl ⟨Sample.branching, run⟩)
  have created : s.builder.Creates t.builder ⟨3⟩ := by
    constructor
    · rw [count]
      decide
    · rw [count']
      decide
  exact ⟨scope, s, t, run, opened, count, last, unfolds, inside,
    fun block => entered inside ⟨3⟩ block created⟩

end SsaLowering
