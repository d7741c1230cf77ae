/-
# SsaLowering.Proofs.Lower.Initialisation -- variables are written before they are read

`Stmt.variables` lists the mutable variables of a statement in the order in which they
are lowered; each gets the next slot.  A variable is `Initialised` when it has an initial
value and its statement is not directly a branch of a conditional.  Such a branch opens
no scope: its variable is bound for what follows the conditional too, where the branch,
and the store in it, has not always been.

A body state is tracked (`BodyState.Tracks`) when there is an account of assignment for
its function under which the slots of the variables that are bound to a name are written
at the end of the current block.  Every statement keeps this (`lowerStmt_tracking`).
`Context.Reached.initialised` is what follows for a function that was lowered: on every
walk a read of the slot of an initialised variable comes after a write to it.
-/
import SsaLowering.Proofs.Lower.Acceptance
import SsaLowering.Proofs.Lower.Reads

namespace SsaLowering

set_option autoImplicit false

open Ir (Ty Module Function Builder ValueId BlockId Operand Instruction Terminator BasicBlock)

/-! ## Variables -/

/-- A declarator of a mutable variable, and whether its statement is directly a branch. -/
structure Variable where
  decl : Declarator
  bare : Bool

/-- The variable has an initial value before any other code can name it. -/
def Variable.Initialised (v : Variable) : Prop := v.decl.init.isSome ∧ v.bare = false

mutual

/-- The variables that a statement declares, in order; `bare` says whether the statement is
directly a branch of a conditional. -/
def Stmt.variables (bare : Bool) : Stmt → List Variable
  | .block stmts _ => Stmt.allVariables stmts
  | .ifElse _ thenBranch elseBranch _ =>
    thenBranch.variables true ++ Stmt.variablesOptional elseBranch
  | .vars kind declarators _ => if kind.isMutable then declarators.map (⟨·, bare⟩) else []
  | _ => []

/-- The variables of a branch that may be absent. -/
def Stmt.variablesOptional : Option Stmt → List Variable
  | none => []
  | some stmt => stmt.variables true

/-- The variables of statements, up to the first that always returns. -/
def Stmt.allVariables : List Stmt → List Variable
  | [] => []
  | stmt :: rest => stmt.variables false ++ if stmt.closes then [] else Stmt.allVariables rest

end

namespace BodyState

variable {s t u : BodyState} {scope : ScopeId} {env : Environment} {Q : ValueId → Prop}
  {A A' : BlockId → ValueId → Prop} {cur cur' : BlockId} {bare : Bool}
  {vars vars' : List Variable} {block : BlockId}

/-! ## Tracked states -/

/-- Every variable that is bound to a name, and for whose slot `Q` holds, is written at the
end of the current block. -/
structure Tracks (s : BodyState) (Q : ValueId → Prop) (A : BlockId → ValueId → Prop)
    (cur : BlockId) : Prop where
  account : s.builder.function.Assigns Q A
  current : s.builder.current = some cur
  written : ∀ p, s.Homes p → Q p → s.builder.function.AssignedAt A cur p

/-- A later account says the same of old blocks, and no less of the current one. -/
structure Keeps (s : BodyState) (A : BlockId → ValueId → Prop) (cur : BlockId) (t : BodyState)
    (A' : BlockId → ValueId → Prop) (cur' : BlockId) : Prop where
  old : ∀ v p, v.index < s.next → (A' v p ↔ A v p)
  above : ∀ p, s.builder.function.AssignedAt A cur p → t.builder.function.AssignedAt A' cur' p

theorem Keeps.of_extends (grown : s.builder.function.Extends t.builder.function) :
    s.Keeps A cur t A cur where
  old := fun _ _ _ => Iff.rfl
  above := fun _ assigned => assigned.mono grown

theorem Keeps.trans {A'' : BlockId → ValueId → Prop} {cur'' : BlockId}
    (first : s.Keeps A cur t A' cur') (longer : s.next ≤ t.next)
    (second : t.Keeps A' cur' u A'' cur'') : s.Keeps A cur u A'' cur'' where
  old := fun v p before =>
    (second.old v p (Nat.lt_of_lt_of_le before longer)).trans (first.old v p before)
  above := fun p assigned => second.above p (first.above p assigned)

/-- Where one state is tracked, the other is tracked too, with a later account. -/
def Carries (s : BodyState) (Q : ValueId → Prop) (t : BodyState) : Prop :=
  ∀ A cur, s.Tracks Q A cur → ∃ A' cur', t.Tracks Q A' cur' ∧ s.Keeps A cur t A' cur'

theorem Carries.trans (first : s.Carries Q t) (longer : s.next ≤ t.next)
    (second : t.Carries Q u) : s.Carries Q u := by
  intro A cur tracked
  obtain ⟨A', cur', tracked', keeps⟩ := first A cur tracked
  obtain ⟨A'', cur'', tracked'', keeps'⟩ := second A' cur' tracked'
  exact ⟨A'', cur'', tracked'', keeps.trans longer keeps'⟩

/-- The construct reserved a slot for each of the variables, and a state that is tracked for
initialised variables alone stays tracked.  Where the construct is directly a branch, it has
bound no variable of that kind for what follows. -/
structure Tracking (s : BodyState) (bare : Bool) (vars : List Variable) (t : BodyState) :
    Prop where
  grown : s.builder.function.Extends t.builder.function
  slots : ∃ ids, t.builder.function.slotIds = s.builder.function.slotIds ++ ids ∧
    ids.length = vars.length ∧
    ∀ Q : ValueId → Prop, (∀ p v, (p, v) ∈ ids.zip vars → Q p → v.Initialised) →
      (bare = true → ∀ p, t.Homes p → Q p → s.Homes p) ∧ s.Carries Q t

theorem Tracking.trans (first : s.Tracking bare vars t) (second : t.Tracking bare vars' u) :
    s.Tracking bare (vars ++ vars') u where
  grown := first.grown.trans second.grown
  slots := by
    obtain ⟨ids, slots, count, track⟩ := first.slots
    obtain ⟨ids', slots', count', track'⟩ := second.slots
    refine ⟨ids ++ ids', by rw [slots', slots, List.append_assoc],
      by rw [List.length_append, List.length_append, count, count'], fun Q initialised => ?_⟩
    rw [List.zip_append count] at initialised
    obtain ⟨homes, carries⟩ := track Q fun p v member =>
      initialised p v (List.mem_append_left _ member)
    obtain ⟨homes', carries'⟩ := track' Q fun p v member =>
      initialised p v (List.mem_append_right _ member)
    exact ⟨fun branch p named counts => homes branch p (homes' branch p named counts) counts,
      Carries.trans carries first.grown.length_le carries'⟩

/-- What binds nothing may stand anywhere. -/
theorem Tracking.anywhere (tracking : s.Tracking true vars t) : s.Tracking bare vars t where
  grown := tracking.grown
  slots := by
    obtain ⟨ids, slots, count, track⟩ := tracking.slots
    refine ⟨ids, slots, count, fun Q initialised => ?_⟩
    obtain ⟨homes, tracks⟩ := track Q initialised
    exact ⟨fun _ => homes rfl, tracks⟩

/-- A construct that reserves no slot and stays in the current block. -/
theorem Tracking.of_local (grown : s.builder.function.Extends t.builder.function)
    (slots : t.builder.function.slots = s.builder.function.slots)
    (homes : ∀ p, t.Homes p → s.Homes p) (current : t.builder.current = s.builder.current)
    (account : ∀ Q A cur, s.Tracks Q A cur → t.builder.function.Assigns Q A) :
    s.Tracking true [] t where
  grown := grown
  slots := by
    refine ⟨[], ?_, rfl, fun Q _ => ⟨fun _ p named _ => homes p named, fun A cur tracked => ?_⟩⟩
    · rw [Function.slotIds, slots, List.append_nil, Function.slotIds]
    · exact ⟨A, cur, ⟨account Q A cur tracked, current.trans tracked.current, fun p named counts =>
        (tracked.written p (homes p named) counts).mono grown⟩, .of_extends grown⟩

/-- A construct that leaves the body and the names as they are. -/
theorem Tracking.of_same (builder : t.builder = s.builder)
    (homes : ∀ p, t.Homes p → s.Homes p) : s.Tracking true [] t :=
  .of_local (builder ▸ .refl _) (by rw [builder]) homes (by rw [builder])
    fun _ _ _ tracked => builder ▸ tracked.account

theorem homes_of_lookups
    (same : ∀ other x, t.context.scopes.lookupIn other x = s.context.scopes.lookupIn other x)
    (p : ValueId) (named : t.Homes p) : s.Homes p := by
  obtain ⟨other, x, home, here, rfl⟩ := named
  exact ⟨other, x, home, same other x ▸ here, rfl⟩

/-- A construct that reserves the slot of one variable, and writes to it if the variable has
an initial value. -/
theorem Tracking.of_slot {decl : Declarator} {new : ValueId}
    (grown : s.builder.function.Extends t.builder.function)
    (slots : t.builder.function.slotIds = s.builder.function.slotIds ++ [new])
    (homes : ∀ p, t.Homes p → s.Homes p ∨ p = new)
    (current : t.builder.current = s.builder.current)
    (account : ∀ Q A cur, s.Tracks Q A cur → t.builder.function.Assigns Q A)
    (written : decl.init.isSome → ∀ A cur, s.builder.current = some cur →
      t.builder.function.AssignedAt A cur new) : s.Tracking bare [⟨decl, bare⟩] t where
  grown := grown
  slots := by
    refine ⟨[new], slots, rfl, fun Q initialised => ?_⟩
    have counted (counts : Q new) : Variable.Initialised ⟨decl, bare⟩ :=
      initialised new _ List.mem_cons_self counts
    refine ⟨fun branch p named counts => ?_, fun A cur tracked => ⟨A, cur, ?_, .of_extends grown⟩⟩
    · rcases homes p named with old | rfl
      · exact old
      · cases branch.symm.trans (counted counts).2
    · refine ⟨account Q A cur tracked, current.trans tracked.current, fun p named counts => ?_⟩
      rcases homes p named with old | rfl
      · exact (tracked.written p old counts).mono grown
      · exact written (counted counts).1 A cur tracked.current

/-! ## Steps inside of a block -/

theorem Fetches.assigns (fetches : s.Fetches t) (tracked : s.Tracks Q A cur) :
    t.builder.function.Assigns Q A :=
  fetches.builder.assigns tracked.current tracked.account tracked.written

theorem Fetches.tracking (fetches : s.Fetches t) : s.Tracking true [] t :=
  .of_local fetches.builder.function fetches.builder.slots
    (fun _ named => fetches.homes ▸ named) fetches.builder.current fun _ _ _ => fetches.assigns

theorem homes_bound {name : Symbol} {value : BoundValue} {p : ValueId}
    (named : (s.bound scope name value).Homes p) :
    s.Homes p ∨ ∃ home, value = .slot home ∧ home.ptr = p := by
  obtain ⟨other, x, home, here, rfl⟩ := named
  simp only [BodyState.bound, ScopeTable.lookupIn_assign] at here
  split at here
  · cases here
    exact Or.inr ⟨home, rfl, rfl⟩
  · exact Or.inl ⟨other, x, home, here, rfl⟩

theorem slotIds_withSlot (local_ : s.Local scope) (ty : Ty) (name : String) :
    (s.withSlot ty name).builder.function.slotIds =
      s.builder.function.slotIds ++ [(s.nextSlot ty).ptr] := by
  obtain ⟨entry, known⟩ := local_.entry
  exact Function.slotIds_reserve local_.sound.function.layout known ty _

/-- A slot changes no account. -/
theorem Tracks.withSlot (account : s.builder.function.Assigns Q A) (ty : Ty) (name : String) :
    (s.withSlot ty name).builder.function.Assigns Q A :=
  account.congr (s.builder.content_withSlot ty name)

theorem Declares.tracking {decl : Declarator} {mutability : Bool}
    (declares : s.Declares env scope decl mutability t) (local_ : s.Local scope) :
    s.Tracking bare (if mutability then [⟨decl, bare⟩] else []) t := by
  cases declares with
  | @constant expr operand u b init run grown ok current blocks =>
    have fetches := operand_fetches local_.toReady run
    have content : ∀ id, b.function.content id = u.builder.function.content id := fun id => by
      rw [Function.content, Function.content, Function.block?, Function.block?, blocks]
    refine .anywhere (.of_local (fetches.builder.function.trans grown)
      ((Function.slots_of_blocks blocks).trans fetches.builder.slots) (fun p named => ?_)
      (current.trans fetches.builder.current) fun Q A cur tracked =>
        (fetches.assigns tracked).congr content)
    rcases homes_bound named with old | ⟨home, absurd_, -⟩
    · exact fetches.homes ▸ old
    · cases absurd_
  | @blank ty init sized =>
    refine .of_slot (s.extends_withSlot ty _) (slotIds_withSlot local_ ty _) (fun p named => ?_)
      rfl (fun Q A cur tracked => Tracks.withSlot tracked.account ty _) fun valued => ?_
    · refine (homes_bound named).imp_right fun bound => ?_
      obtain ⟨_, same, here⟩ := bound
      cases same
      exact here.symm
    · rw [init] at valued
      cases valued
  | @stored expr operand u ty block init run sized selected checked =>
    have fetches := operand_fetches local_.toReady run
    have local' := (evaluate_stands local_.toReady run).1.local local_
    have pushed := Builder.extends_push_open selected
      (.store operand (.value (u.nextSlot ty).ptr)) none
    obtain ⟨current, data, known, unended⟩ := selected
    have slots : ((u.withSlot ty (env.name decl.name)).push block
        (.store operand (.value (u.nextSlot ty).ptr)) none).builder.function.slotIds =
          s.builder.function.slotIds ++ [(u.nextSlot ty).ptr] := by
      have same : u.builder.function.slotIds = s.builder.function.slotIds :=
        congrArg (List.filterMap _) fetches.builder.slots
      rw [← same, ← slotIds_withSlot local' ty]
      exact congrArg (List.filterMap _) (Function.slots_push _ _ rfl none)
    refine .of_slot
      ((fetches.builder.function.trans (u.extends_withSlot ty _)).trans pushed) slots
      (fun p named => ?_) fetches.builder.current (fun Q A cur tracked => ?_)
      fun _ A cur here => ?_
    · refine (homes_bound named).imp (fun old => fetches.homes ▸ old) fun bound => ?_
      obtain ⟨_, same, here⟩ := bound
      cases same
      exact here.symm
    · exact (Tracks.withSlot (fetches.assigns tracked) ty _).push known unended rfl none
        (loads_of_other fun _ _ same => by cases same)
    · -- the write is the last instruction of the current block
      cases current.symm.trans (fetches.builder.current.trans here)
      have here := Function.content_push known
        (show (Ir.Action.store operand (.value (u.nextSlot ty).ptr)).isAlloca = false from rfl) none
      obtain ⟨data', known', code, -⟩ := Function.content_eq_some.1 here
      refine Or.inr ⟨data', known', ?_⟩
      rw [code]
      exact ⟨_, List.mem_append_right _ (List.mem_singleton.2 rfl), operand, rfl⟩

theorem declarators_tracking (kind : BindingKind) :
    ∀ {declarators : List Declarator} {s t : BodyState}, s.Local scope →
      declarators.forM (lowerDeclarator env scope kind) s = .ok () t →
        s.Tracking bare (if kind.isMutable then declarators.map (⟨·, bare⟩) else []) t
  | [], s, t, _, run => by
    cases run
    rw [List.map_nil, ite_self]
    exact .anywhere (.of_same rfl fun _ named => named)
  | decl :: rest, s, t, local_, run => by
    obtain ⟨u, first, run⟩ := declarators_cons_ok run
    obtain ⟨names, -, done, after⟩ := (lowerDeclarator_foretold env kind local_ decl).of_ok first
    have declared : s.Tracking bare (if kind.isMutable then [⟨decl, bare⟩] else []) u :=
      (lowerDeclarator_ok local_ first).tracking local_
    have tracking := declared.trans (declarators_tracking kind (after.local local_ done.1) run)
    cases mutability : kind.isMutable <;> rw [mutability] at tracking <;> exact tracking

theorem lowerReturn_tracking (local_ : s.Local scope) {value : Option Expr} {span : FileSpan}
    (run : lowerReturn env scope value span s = .ok () t) : s.Tracking true [] t := by
  obtain ⟨u, operand, block, selected, checked, rfl, returns⟩ := lowerReturn_ok run
  have fetches : s.Fetches u := by
    cases returns with
    | nothing => exact .refl s
    | value run => exact operand_fetches local_.toReady run
  have closed := (selected.advances_closed (.ret operand)).function
  obtain ⟨-, data, known, -⟩ := selected
  refine .of_local (fetches.builder.function.trans closed)
    ((Function.slots_close _ _ _).trans fetches.builder.slots)
    (fun p named => fetches.homes ▸ named) fetches.builder.current fun Q A cur tracked => ?_
  refine (fetches.assigns tracked).close known fun v target => ?_
  simp [Terminator.successors] at target

/-! ## Blocks and conditionals -/

/-- Behind a block the names are those before it. -/
theorem Tracking.leave (tracking : (s.entered scope).Tracking false vars u)
    (builder : t.builder = u.builder)
    (same : ∀ other x, t.context.scopes.lookupIn other x = s.context.scopes.lookupIn other x) :
    s.Tracking true vars t where
  grown := builder ▸ tracking.grown
  slots := by
    obtain ⟨ids, slots, count, track⟩ := tracking.slots
    refine ⟨ids, builder ▸ slots, count, fun Q initialised => ?_⟩
    obtain ⟨-, tracks⟩ := track Q initialised
    refine ⟨fun _ p named _ => homes_of_lookups same p named, fun A cur tracked => ?_⟩
    have entered : (s.entered scope).Tracks Q A cur :=
      ⟨tracked.account, tracked.current, fun p named =>
        tracked.written p (homes_of_lookups (s.lookupIn_entered scope) p named)⟩
    obtain ⟨A', cur', tracked', keeps⟩ := tracks A cur entered
    refine ⟨A', cur', ⟨builder ▸ tracked'.account, builder ▸ tracked'.current, ?_⟩,
      ⟨keeps.old, builder ▸ keeps.above⟩⟩
    intro p named counts
    have before := tracked.written p (homes_of_lookups same p named) counts
    exact builder ▸ keeps.above p before

theorem Falls.slots {next : BlockId} (falls : s.Falls next t) :
    t.builder.function.slotIds = s.builder.function.slotIds := by
  cases falls with
  | ended ended => rfl
  | jumped selected checked => exact congrArg (List.filterMap _) (Function.slots_close _ _ _)

/-- A branch that goes on only goes where no more counts as written than at its end. -/
theorem Falls.assigns {next : BlockId} (falls : s.Falls next t) (tracked : s.Tracks Q A cur)
    (above : ∀ p, A next p → s.builder.function.AssignedAt A cur p) :
    t.builder.function.Assigns Q A := by
  cases falls with
  | ended ended => exact tracked.account
  | @jumped block selected checked =>
    obtain ⟨current, data, known, -⟩ := selected
    cases current.symm.trans tracked.current
    refine tracked.account.close known fun v target => ?_
    obtain rfl : v = next := by simpa [Terminator.successors] using target
    exact above

theorem slotIds_fork (s : BodyState) (block : BlockId) (cond : Operand) :
    (s.fork block cond).builder.function.slotIds = s.builder.function.slotIds := by
  refine congrArg (List.filterMap _) ((Function.slots_close _ _ _).trans ?_)
  exact (Function.slots_addBlock _ _).trans
    ((Function.slots_addBlock _ _).trans (Function.slots_addBlock _ _))

/-- The account `A'` says of old blocks what `A` says, and of the three blocks of a conditional
what is written where `block` forks. -/
structure Forked (s : BodyState) (A : BlockId → ValueId → Prop) (block : BlockId)
    (A' : BlockId → ValueId → Prop) : Prop where
  old : ∀ v p, v.index < s.next → (A' v p ↔ A v p)
  new : ∀ v p, s.next ≤ v.index → v.index < s.next + 3 →
    (A' v p ↔ s.builder.function.AssignedAt A block p)

theorem Forked.joined (s : BodyState) (A : BlockId → ValueId → Prop) (block : BlockId) :
    s.Forked A block (Function.joined A s.next (s.builder.function.AssignedAt A block)) where
  old := fun _ _ before => Function.joined_old before
  new := fun _ _ low _ => Function.joined_new low

theorem Forked.keeps {A'' : BlockId → ValueId → Prop} (forked : s.Forked A block A')
    (keeps : t.Keeps A' cur u A'' cur') (longer : s.next + 3 ≤ t.next) :
    s.Forked A block A'' where
  old := fun v p before =>
    (keeps.old v p (Nat.lt_of_lt_of_le (Nat.lt_add_right 3 before) longer)).trans
      (forked.old v p before)
  new := fun v p low high =>
    (keeps.old v p (Nat.lt_of_lt_of_le high longer)).trans (forked.new v p low high)

/-- A branch starts in one of the blocks of a conditional with what is written at the fork, and
falls to the last of them. -/
theorem Forked.branch {v v' : BodyState} {id : BlockId} (forked : s.Forked A block A')
    (start : BodyState) (account : start.builder.function.Assigns Q A')
    (current : start.builder.current = some id) (low : s.next ≤ id.index)
    (high : id.index < s.next + 3)
    (written : ∀ p, start.Homes p → Q p → s.builder.function.AssignedAt A block p)
    (longer : s.next + 3 ≤ start.next)
    (carries : start.Carries Q v) (falls : v.Falls ⟨s.next + 2⟩ v') :
    ∃ A'', v'.builder.function.Assigns Q A'' ∧ s.Forked A block A'' := by
  have begins : start.Tracks Q A' id :=
    ⟨account, current, fun p named counts =>
      Or.inl ((forked.new id p low high).2 (written p named counts))⟩
  obtain ⟨A'', cur', tracked, keeps⟩ := carries A' id begins
  have forked' : s.Forked A block A'' := forked.keeps keeps longer
  refine ⟨A'', falls.assigns tracked fun p last => ?_, forked'⟩
  have atFork : s.builder.function.AssignedAt A block p :=
    (forked'.new ⟨s.next + 2⟩ p (Nat.le_add_right _ _) (Nat.lt_succ_self _)).1 last
  exact keeps.above p (Or.inl ((forked.new id p low high).2 atFork))

section Forks

variable {condition : Expr} {thenBranch : Stmt} {elseBranch : Option Stmt} {cond : Operand}
  {v v' w w' : BodyState}

/-- A conditional reserves the slots of its branches. -/
theorem Forks.slotIds
    (forks : s.Forks env scope condition thenBranch elseBranch cond block u v v' w w' t)
    (fetches : s.Fetches u) {ids ids' : List ValueId}
    (first : v.builder.function.slotIds =
      ((u.fork block cond).at_ ⟨u.next⟩).builder.function.slotIds ++ ids)
    (second : w.builder.function.slotIds =
      (v'.at_ ⟨u.next + 1⟩).builder.function.slotIds ++ ids') :
    t.builder.function.slotIds = s.builder.function.slotIds ++ (ids ++ ids') := by
  have condition : u.builder.function.slotIds = s.builder.function.slotIds :=
    congrArg (List.filterMap _) fetches.builder.slots
  have forked : ((u.fork block cond).at_ ⟨u.next⟩).builder.function.slotIds =
      s.builder.function.slotIds := (slotIds_fork u block cond).trans condition
  have between : (v'.at_ ⟨u.next + 1⟩).builder.function.slotIds = v.builder.function.slotIds :=
    forks.thenFalls.slots
  calc t.builder.function.slotIds
      = w'.builder.function.slotIds := by rw [forks.last]; rfl
    _ = w.builder.function.slotIds := forks.elseFalls.slots
    _ = s.builder.function.slotIds ++ (ids ++ ids') := by
      rw [second, between, first, forked, List.append_assoc]

/-- What is written at the fork is written at the start of both branches and behind them. -/
theorem Forks.carries
    (forks : s.Forks env scope condition thenBranch elseBranch cond block u v v' w w' t)
    (local_ : s.Local scope) (fetches : s.Fetches u)
    (thenGrown : ((u.fork block cond).at_ ⟨u.next⟩).builder.function.Extends v.builder.function)
    (thenCarries : ((u.fork block cond).at_ ⟨u.next⟩).Carries Q v)
    (elseCarries : (v'.at_ ⟨u.next + 1⟩).Carries Q w)
    (thenHomes : ∀ p, v'.Homes p → Q p → u.Homes p)
    (homes : ∀ p, t.Homes p → Q p → u.Homes p) : s.Carries Q t := by
  intro A cur tracked
  have written (p : ValueId) (named : u.Homes p) (counts : Q p) :
      u.builder.function.AssignedAt A cur p :=
    (tracked.written p (fetches.homes ▸ named) counts).mono fetches.builder.function
  obtain ⟨current, data, known, -⟩ := forks.selected
  obtain rfl : block = cur := Option.some.inj
    (current.symm.trans (fetches.builder.current.trans tracked.current))
  have whole : ((u.fork block cond).at_ ⟨u.next⟩).next = u.next + 3 :=
    u.builder.length_fork block cond
  have longer : u.next + 3 ≤ (v'.at_ ⟨u.next + 1⟩).next := by
    rw [← whole]
    exact (thenGrown.trans forks.thenFalls.advances.function).length_le
  obtain ⟨A₂, thenAccount, forked⟩ := (Forked.joined u A block).branch
    ((u.fork block cond).at_ ⟨u.next⟩)
    ((fetches.assigns tracked).fork (forks.emits.local local_).sound.function known cond) rfl
    (Nat.le_refl _) (Nat.lt_add_of_pos_right (by decide)) written (Nat.le_of_eq whole.symm)
    thenCarries forks.thenFalls
  obtain ⟨A₃, elseAccount, forked'⟩ := forked.branch (v'.at_ ⟨u.next + 1⟩) thenAccount rfl
    (Nat.le_succ _) (Nat.add_lt_add_left (by decide) _)
    (fun p named counts => written p (thenHomes p named counts) counts) longer elseCarries
    forks.elseFalls
  have behind (p : ValueId) :
      A₃ ⟨u.next + 2⟩ p ↔ u.builder.function.AssignedAt A block p :=
    forked'.new _ p (Nat.le_add_right _ _) (Nat.lt_succ_self _)
  rw [forks.last] at homes ⊢
  refine ⟨A₃, ⟨u.next + 2⟩, ⟨elseAccount, rfl, fun p named counts => Or.inl ?_⟩,
    fun v p before => ?_, fun p assigned => Or.inl ?_⟩
  · exact (behind p).2 (written p (homes p named counts) counts)
  · exact forked'.old v p (Nat.lt_of_lt_of_le before fetches.builder.function.length_le)
  · exact (behind p).2 (assigned.mono fetches.builder.function)

/-- Both branches and what follows them start with what is written at the fork. -/
theorem Forks.tracking
    (forks : s.Forks env scope condition thenBranch elseBranch cond block u v v' w w' t)
    (local_ : s.Local scope)
    (thenTracking : ((u.fork block cond).at_ ⟨u.next⟩).Tracking true vars v)
    (elseTracking : (v'.at_ ⟨u.next + 1⟩).Tracking true vars' w) :
    s.Tracking true (vars ++ vars') t where
  grown := by
    rw [forks.last]
    exact forks.emits.builder.function.trans forks.branched.extends
  slots := by
    have fetches := operand_fetches local_.toReady forks.condition
    obtain ⟨ids, slots, count, track⟩ := thenTracking.slots
    obtain ⟨ids', slots', count', track'⟩ := elseTracking.slots
    refine ⟨ids ++ ids', forks.slotIds fetches slots slots',
      by rw [List.length_append, List.length_append, count, count'], fun Q initialised => ?_⟩
    rw [List.zip_append count] at initialised
    obtain ⟨homes, tracks⟩ := track Q fun p x member =>
      initialised p x (List.mem_append_left _ member)
    obtain ⟨homes', tracks'⟩ := track' Q fun p x member =>
      initialised p x (List.mem_append_right _ member)
    -- nothing that counts was bound since the fork
    have thenHomes (p : ValueId) (named : v'.Homes p) (counts : Q p) : u.Homes p :=
      homes rfl p (homes_congr (congrArg (·.scopes) forks.thenFalls.context) ▸ named) counts
    have behind (p : ValueId) (named : t.Homes p) (counts : Q p) : u.Homes p := by
      rw [forks.last] at named
      exact thenHomes p (homes' rfl p
        (homes_congr (congrArg (·.scopes) forks.elseFalls.context) ▸ named) counts) counts
    exact ⟨fun _ p named counts => fetches.homes ▸ behind p named counts,
      forks.carries local_ fetches thenTracking.grown tracks tracks' thenHomes behind⟩

end Forks

end BodyState

/-! ## Statements -/

section Statements

variable {scope : ScopeId}

open BodyState (Tracking)

theorem skip_tracking {s t : BodyState} {kind : SyntaxKind} {span : FileSpan} {bare : Bool}
    (run : skip kind span s = .ok () t) : s.Tracking bare [] t := by
  obtain rfl := skip_ok run
  exact .anywhere (.of_same rfl fun _ named => named)

mutual

/-- Statements reserve the slots of their variables, and keep a state tracked. -/
theorem lowerStmt_tracking (env : Environment) : ∀ (stmt : Stmt) (bare : Bool) {scope : ScopeId}
    {s t : BodyState}, s.Local scope → lowerStmt env scope stmt s = .ok () t →
      s.Tracking bare (stmt.variables bare) t
  | .block stmts span, bare, scope, s, t, local_, run => by
    obtain ⟨u, inner, rfl⟩ := block_ok local_.inside run
    have same := (block_spares local_ inner).lookups
    rw [Stmt.variables]
    exact .anywhere (.leave (lowerStmts_tracking env stmts local_.entered inner) rfl same)
  | .expression expr span, bare, scope, s, t, local_, run => by
    rw [Stmt.variables]
    · exact .anywhere (expressionStatement_fetches local_.toReady run).tracking
    all_goals simp
  | .ifElse condition thenBranch elseBranch span, bare, scope, s, t, local_, run => by
    obtain ⟨cond, block, u, v, v', w, w', forks⟩ := ifElse_ok local_ run
    rw [Stmt.variables]
    exact .anywhere (forks.tracking local_
      (lowerStmt_tracking env thenBranch true forks.thenLocal forks.thenRun)
      (lowerOptional_tracking env elseBranch forks.elseLocal forks.elseRun))
  | .ret value span, bare, scope, s, t, local_, run => by
    rw [lowerStmt] at run
    rw [Stmt.variables]
    · exact .anywhere (BodyState.lowerReturn_tracking local_ run)
    all_goals simp
  | .vars kind declarators span, bare, scope, s, t, local_, run => by
    rw [lowerStmt] at run
    rw [Stmt.variables]
    exact BodyState.declarators_tracking kind local_ run
  | .whileLoop .., _, _, _, _, _, run | .breakLoop .., _, _, _, _, _, run
  | .continueLoop .., _, _, _, _, _, run | .empty .., _, _, _, _, _, run => by
    rw [lowerStmt] at run
    exact skip_tracking run

theorem lowerOptional_tracking (env : Environment) : ∀ (stmt : Option Stmt) {scope : ScopeId}
    {s t : BodyState}, s.Local scope → lowerOptional env scope stmt s = .ok () t →
      s.Tracking true (Stmt.variablesOptional stmt) t
  | none, scope, s, t, local_, run => by
    rw [lowerOptional] at run
    cases run
    exact .of_same rfl fun _ named => named
  | some stmt, scope, s, t, local_, run => by
    rw [lowerOptional] at run
    exact lowerStmt_tracking env stmt true local_ run

theorem lowerStmts_tracking (env : Environment) : ∀ (stmts : List Stmt) {scope : ScopeId}
    {s t : BodyState}, s.Local scope → lowerStmts env scope stmts s = .ok () t →
      s.Tracking false (Stmt.allVariables stmts) t
  | [], scope, s, t, local_, run => by
    rw [lowerStmts] at run
    cases run
    exact .anywhere (.of_same rfl fun _ named => named)
  | stmt :: rest, scope, s, t, local_, run => by
    obtain ⟨u, first, onward⟩ := lowerStmts_cons_cases local_ run
    rw [Stmt.allVariables]
    apply (lowerStmt_tracking env stmt false local_ first).trans
    rcases onward with ⟨closes, -, journal, rfl⟩ | ⟨closes, local', run⟩ <;> rw [closes]
    · exact .anywhere (.of_same rfl fun _ named => named)
    · exact lowerStmts_tracking env rest local' run

end

end Statements

/-! ## Whole bodies -/

section Bodies

variable {s t : BodyState} {scope : ScopeId} {env : Environment}

/-- A body starts without slots, and binds no variable. -/
theorem BodyState.Starts.tracks {params : List Param} {tys : List Ty}
    (starts : s.Starts scope params tys t) (fresh : ∀ id, ¬ s.Bound id) (Q : ValueId → Prop) :
    t.Tracks Q (fun _ _ => False) ⟨0⟩ where
  account := by
    obtain ⟨label, entry⟩ := starts.entry
    exact .of_entry entry
  current := starts.current
  written := fun p ⟨other, x, home, here, _⟩ => by
    rcases starts.lookupIn here with before | ⟨id, -, same⟩
    · exact absurd ⟨other, x, _, before, rfl⟩ (fresh home.ptr)
    · cases same

/-- The end of a body reads nothing and leads nowhere. -/
theorem BodyState.Sealed.assigns {span : FileSpan} {Q : ValueId → Prop}
    {A : BlockId → ValueId → Prop} (sealed : s.Sealed span t)
    (account : s.builder.function.Assigns Q A) : t.builder.function.Assigns Q A := by
  cases sealed with
  | ended ended => exact account
  | fell selected context =>
    obtain ⟨-, data, known, -⟩ := selected
    refine account.close known fun v target => ?_
    unfold Builder.fallOff at target
    split at target <;> simp [Terminator.successors] at target

theorem BodyState.Sealed.slots {span : FileSpan} (sealed : s.Sealed span t) :
    t.builder.function.slotIds = s.builder.function.slotIds := by
  cases sealed with
  | ended ended => rfl
  | fell selected context => exact congrArg (List.filterMap _) (Function.slots_close _ _ _)

/-- A finished body has a slot for each of its variables, and an account of assignment for
those that are initialised. -/
theorem buildBody_assigns {decl : FunctionDecl} {ty : Ir.FunctionTy} {stmts : List Stmt}
    (declared : s.Declared scope ty) (count : decl.params.length = ty.params.length)
    (fresh : ∀ id, ¬ s.Bound id) (run : buildBody env scope decl stmts s = .ok () t) :
    t.builder.function.slotIds.length = (Stmt.allVariables stmts).length ∧
      ∀ Q : ValueId → Prop,
        (∀ p v, (p, v) ∈ t.builder.function.slotIds.zip (Stmt.allVariables stmts) → Q p →
          v.Initialised) → ∃ A, t.builder.function.Assigns Q A := by
  obtain ⟨p, q, starts, body, sealed⟩ := buildBody_ok declared count run
  obtain ⟨ids, slots, counted, track⟩ := (lowerStmts_tracking env stmts starts.local_ body).slots
  have blank : p.builder.function.slotIds = [] := by
    obtain ⟨label, entry⟩ := starts.entry
    rw [Function.slotIds, Function.slots, Function.instructionsOf, Function.block?, entry]
    rfl
  have all : t.builder.function.slotIds = ids := by
    rw [sealed.slots, ← List.nil_append ids, ← blank]
    exact slots
  rw [all]
  refine ⟨counted, fun Q initialised => ?_⟩
  obtain ⟨A, cur, tracked, -⟩ := (track Q initialised).2 _ _ (starts.tracks fresh Q)
  exact ⟨A, sealed.assigns tracked.account⟩

end Bodies

/-- In a function that is lowered every variable of the body has a slot, in order.  On every
walk from the entry, a read of the slot of an initialised variable comes after a write. -/
theorem Context.Reached.initialised {cx cx' : Context} (reached : cx.Reached) (env : Environment)
    (scope : ScopeId) (decl : FunctionDecl) {body : Body} (present : decl.body = some body)
    (run : lowerFunction env scope decl cx = .ok () cx') :
    ∃ f, cx'.module.functions = cx.module.functions ++ [f] ∧
      f.slotIds.length = (Stmt.allVariables body.stmts).length ∧
      ∀ (k : Nat) (p : ValueId) (v : Variable), f.slotIds[k]? = some p →
        (Stmt.allVariables body.stmts)[k]? = some v → v.Initialised → f.WrittenBeforeRead p := by
  have sound := reached.sound
  have outcome : FunctionOutcome env scope decl cx (lowerFunction env scope decl cx) :=
    lowerFunction_outcome sound
  rw [run] at outcome
  cases outcome with
  | external header absent =>
    rw [absent] at present
    cases present
  | @installed signature linkage body' t header present' build passed =>
    obtain rfl : body' = body := Option.some.inj (present'.symm.trans present)
    obtain ⟨-, -, built⟩ := building_ok sound header build
    have declared := sound.begun header.inside decl.name linkage signature
    obtain ⟨count, accounts⟩ := buildBody_assigns declared
      (signature?_ok.1 header.typed).params_length
      (fun id => sound.not_bound decl.name _ id) build
    refine ⟨t.builder.function, rfl, count, fun k p v slot variable_ initialised => ?_⟩
    have laid := built.function.layout
    -- no other variable has this slot
    obtain ⟨A, account⟩ := accounts (· = p) fun q w member same => by
      subst same
      obtain ⟨i, pair⟩ := List.mem_iff_getElem?.1 member
      rw [List.getElem?_zip_eq_some] at pair
      obtain ⟨bound, here⟩ := List.getElem?_eq_some_iff.1 slot
      obtain ⟨bound', here'⟩ := List.getElem?_eq_some_iff.1 pair.1
      obtain rfl : i = k :=
        (Function.slotIds_nodup laid).getElem_inj_iff.1 (here'.trans here.symm)
      cases pair.2.symm.trans variable_
      exact initialised
    exact account.writtenBeforeRead laid rfl

/-- `let y = x; return y` -/
def Sample.copying : FunctionDecl :=
  function [declare .let_ x, .ret (some y) .unplaced]

theorem Context.Reached.initialised_sample :
    (Context.initial "m").Reached ∧
      Variable.Initialised ⟨⟨⟨2⟩, none, some Sample.x, .unplaced⟩, false⟩ ∧
      ∃ f cx', lowerFunction Sample.standard ScopeTable.global Sample.copying (.initial "m") =
          .ok () cx' ∧ cx'.module.functions = [f] ∧ f.slotIds = [⟨1⟩] ∧
        f.WrittenBeforeRead ⟨1⟩ := by
  have reached : (Context.initial "m").Reached := ⟨"m", .refl⟩
  have initial : Variable.Initialised ⟨⟨⟨2⟩, none, some Sample.x, .unplaced⟩, false⟩ := ⟨rfl, rfl⟩
  refine ⟨reached, initial, ?_⟩
  have passes : ((lowerFunction Sample.standard ScopeTable.global Sample.copying).finished?
      (.initial "m")).map (fun cx' => cx'.module.functions.map (·.slotIds)) =
        some [[⟨1⟩]] := by cbv
  obtain ⟨cx', finished, slotted⟩ := Option.map_eq_some_iff.1 passes
  have run := Lower.ok_of_finished finished
  obtain ⟨f, added, -, written⟩ :=
    reached.initialised Sample.standard ScopeTable.global Sample.copying rfl run
  rw [added] at slotted
  have slots : f.slotIds = [⟨1⟩] := (List.cons.inj slotted).1
  exact ⟨f, cx', run, added, slots, written 0 ⟨1⟩ _ (by rw [slots]; rfl) rfl initial⟩

/-- `if (false) let y = x; return y` -/
def Sample.leaking : FunctionDecl :=
  function [.ifElse (.bool false .unplaced) (declare .let_ x) none .unplaced,
    .ret (some y) .unplaced]

/-- What becomes of it. -/
def Sample.leaked : Function where
  name := "f"
  ty := ⟨[.double], .double⟩
  params := [⟨0⟩]
  values := [⟨some "x", .double, .param 0⟩, ⟨some "y", .ptr, .inst ⟨0⟩⟩,
    ⟨none, .double, .inst ⟨3⟩⟩]
  blocks := [
    ⟨"entry", [⟨some ⟨1⟩, .alloca .double⟩], some (.condBr (.constant (.bool false)) ⟨1⟩ ⟨2⟩)⟩,
    ⟨"then", [⟨none, .store (.value ⟨0⟩) (.value ⟨1⟩)⟩], some (.br ⟨3⟩)⟩,
    ⟨"else", [], some (.br ⟨3⟩)⟩,
    ⟨"endif", [⟨some ⟨2⟩, .load .double (.value ⟨1⟩)⟩], some (.ret (some (.value ⟨2⟩)))⟩]

/-- A variable with an initial value is bound behind the branch that declares it, and it is
read there although nothing has been written to its slot. -/
theorem Context.Reached.leaking_unwritten :
    (Context.initial "m").Reached ∧
      ∃ f cx', lowerFunction Sample.standard ScopeTable.global Sample.leaking (.initial "m") =
          .ok () cx' ∧ cx'.module.functions = [f] ∧
        ∃ body p v, Sample.leaking.body = some body ∧ f.slotIds = [p] ∧
          Stmt.allVariables body.stmts = [v] ∧ v.decl.init.isSome ∧ ¬ f.WrittenBeforeRead p := by
  have reached : (Context.initial "m").Reached := ⟨"m", .refl⟩
  have passes : ((lowerFunction Sample.standard ScopeTable.global Sample.leaking).finished?
      (.initial "m")).map (·.module.functions) = some [Sample.leaked] := by cbv
  obtain ⟨cx', finished, lowers⟩ := Option.map_eq_some_iff.1 passes
  have run := Lower.ok_of_finished finished
  refine ⟨reached, _, cx', run, lowers, _, ⟨1⟩,
    ⟨⟨⟨2⟩, none, some Sample.x, .unplaced⟩, true⟩, rfl, rfl, by cbv, rfl, fun written => ?_⟩
  -- the way past the branch meets the slot and the read, and no write
  have past : Sample.leaked.Walk [⟨3⟩, ⟨2⟩, ⟨0⟩] ⟨3⟩ :=
    .step (.step .entry (by decide)) (by decide)
  obtain ⟨source, met, value, stores⟩ :=
    written _ _ 0 ⟨some ⟨2⟩, .load .double (.value ⟨1⟩)⟩ past rfl ⟨.double, rfl⟩
  have before : Sample.leaked.executed [⟨2⟩, ⟨0⟩] ⟨3⟩ 0 = [⟨some ⟨1⟩, .alloca .double⟩] := rfl
  rw [before, List.mem_singleton] at met
  rw [met] at stores
  cases stores

end SsaLowering
