/-
# SsaLowering.Proofs.Checked.Steps -- steps of lowering that may slip

A `Checked` run is one of lowering with one more way to stop: an access that has no answer.
A step of lowering that makes no such access is taken over as it is (`plain`).  The others
are made here from their accesses: looking a name up, leaving a scope, taking back a binding,
finding a free name, and whatever writes into a block.  They work in place, so a value is
entered before its instruction has found its block.
-/
import SsaLowering.Program
import SsaLowering.Proofs.Checked.Access
import SsaLowering.Proofs.Lower.Opened

namespace SsaLowering

set_option autoImplicit false

open Ir (Ty BlockId ValueId Operand Builder BuildError BasicBlock Action Terminator FunctionTy)

/-- Why a checked run ends without a result. -/
inductive Stop where
  | refused (cause : LowerError)
  | slip (slip : Slip)
deriving Inhabited

/-- The same end, where a use of a handle that was never issued counts as a slip. -/
def Stop.of : Failure LowerError → Stop
  | .refused cause => .refused cause
  | .fault fault => .slip (.handle fault)

/-- Steps that may slip. -/
abbrev Checked (σ : Type) := EStateM Stop σ

namespace Checked

section

variable {σ α : Type}

def refuse (cause : LowerError) : Checked σ α := throw (.refused cause)

/-- A step of lowering as it is. -/
def plain (step : EStateM (Failure LowerError) σ α) : Checked σ α := fun s =>
  match step s with
  | .ok a t => .ok a t
  | .error failure t => .error (.of failure) t

/-- The answer of an access. -/
def answer : Except Slip α → Checked σ α
  | .ok a => pure a
  | .error slip => throw (.slip slip)

end

/-! ## Scopes -/

/-- The binding of a name that is visible in a scope. -/
def resolve (scope : ScopeId) (name : Symbol) : Checked BodyState (Option BoundValue) := do
  let scopes := (← get).context.scopes
  answer (scopes.resolveUp name scopes.frames.length scope)

/-- Forget the bindings of a scope. -/
def leave (scope : ScopeId) : Checked BodyState Unit := do
  discard <| answer ((← get).context.scopes.frame scope)
  modify (·.leave scope)

/-- Work in a new scope inside `parent`, whose bindings end with the work, unless it slips. -/
def inScope {α : Type} (parent : ScopeId) (work : ScopeId → Checked BodyState α) :
    Checked BodyState α := do
  let scope ← plain (LowerBody.outside (Lower.enter parent none))
  fun s =>
    match work scope s with
    | .ok a t => (do leave scope; return a : Checked BodyState α) t
    | .error (.refused cause) t => (do leave scope; refuse cause : Checked BodyState α) t
    | .error (.slip slip) t => .error (.slip slip) t

/-- Undo a `bind`, given what it replaced. -/
def restore (scope : ScopeId) (name : Symbol) (previous : Option BoundValue) :
    Checked Context Unit := do
  discard <| answer ((← get).scopes.frame scope)
  modify fun cx => { cx with scopes := cx.scopes.restore scope name previous }

/-! ## Builders -/

/-- A question to the builder that may be refused. -/
def ask {α : Type} (question : Builder → Except BuildError α) : Checked BodyState α :=
  plain (LowerBody.ask question)

/-- Change a block, which has to be there. -/
def changeBlock (block : BlockId) (change : BasicBlock → BasicBlock) : Checked BodyState Unit := do
  if ((← get).builder.function.block? block).isSome then
    modify fun s => s.rebuilt (s.builder.modifyBlock block change)
  else throw (.slip (.missingBlock block))

/-- A new entry of the value table. -/
def newValue (ty : Ty) (block : BlockId) : Checked BodyState ValueId :=
  modifyGet fun s => ((s.builder.newValue ty block).1, s.rebuilt (s.builder.newValue ty block).2)

/-- Append an instruction to the selected block. -/
def emit (action : Action) (signature : Option FunctionTy) : Checked BodyState (Option ValueId) := do
  let block ← ask (·.openBlock)
  let result ← match ← ask (·.function.checkAction signature action) with
    | none => pure none
    | some ty => some <$> newValue ty block
  changeBlock block (·.append ⟨result, action⟩)
  return result

/-- Append an instruction that has to define a value. -/
def emitValue (action : Action) : Checked BodyState ValueId := do
  match ← emit action none with
  | some value => return value
  | none => refuse (.build (.invalidType action.opcode .void))

def store (value ptr : Operand) : Checked BodyState Unit := discard <| emit (.store value ptr) none

/-- End the selected block. -/
def terminate (terminator : Terminator) : Checked BodyState Unit := do
  let block ← ask (·.openBlock)
  ask (·.function.checkTerminator terminator)
  changeBlock block fun data => { data with terminator := some terminator }

/-- Append an empty block.  Its suffix is counted up to the number of blocks. -/
def appendBlock (name : String) : Checked BodyState BlockId := do
  let b := (← get).builder
  let (label, names) ← answer (b.blockNames.freshBelow (b.function.blocks.length + 1) name)
  modify (·.rebuilt { b with function := b.function.addBlock label, blockNames := names })
  return ⟨b.function.blocks.length⟩

/-- Name an unnamed value.  Its suffix is counted up to the number of values. -/
def nameValue (value : ValueId) (name : String) : Checked BodyState Bool := do
  let b := (← get).builder
  match b.function.value? value with
  | none => refuse (.build (.unknownValue value))
  | some data =>
    if data.name.isSome then return false
    else
      let (chosen, names) ← answer (b.valueNames.freshBelow b.function.values.length name)
      modify (·.rebuilt { b with function := b.function.rename value chosen, valueNames := names })
      return true

/-- Reserve a stack slot at the top of the entry block. -/
def alloca (ty : Ty) (name : String) : Checked BodyState ValueId := do
  match (← get).builder.entry? with
  | none => refuse (.build .noInsertionPoint)
  | some entry =>
    let _ ← ask (·.function.checkAction none (.alloca ty))
    let value ← newValue .ptr entry
    let _ ← nameValue value name
    changeBlock entry (·.insertSlot ⟨some value, .alloca ty⟩)
    return value

end Checked

/-! ## The same run -/

/-- What is to hold of the states of a run, and the scopes in a state. -/
structure Watch (σ : Type) where
  safe : σ → Prop
  scopes : σ → ScopeTable

namespace Watch

variable {σ α β : Type}

/-- The given scopes are in the table. -/
def Has (w : Watch σ) (s : σ) (within : List ScopeId) : Prop :=
  ∀ scope ∈ within, (w.scopes s).contains scope

/-- What has become of a safe state: it is safe, and no scope was lost. -/
structure Reaches (w : Watch σ) (s t : σ) : Prop where
  safe : w.safe t
  extends_ : (w.scopes s).Extends (w.scopes t)

/-- A run of lowering from `s` ends with a result, whose scopes are in the table, or it is
refused; no handle was used that was never issued. -/
inductive Settles (w : Watch σ) (s : σ) (leads : α → List ScopeId) :
    EStateM.Result (Failure LowerError) σ α → Prop
  | ok {a : α} {t : σ} (reaches : w.Reaches s t) (has : w.Has t (leads a)) :
      Settles w s leads (.ok a t)
  | refused {cause : LowerError} {t : σ} (reaches : w.Reaches s t) :
      Settles w s leads (.error (.refused cause) t)

/-- From a safe state with the scopes in `within` the checked run is the one of lowering. -/
def Agrees (w : Watch σ) (within : List ScopeId) (leads : α → List ScopeId)
    (x : Checked σ α) (y : EStateM (Failure LowerError) σ α) : Prop :=
  ∀ s, w.safe s → w.Has s within → x s = Checked.plain y s ∧ w.Settles s leads (y s)

/-- A result that leads to no scope. -/
def nowhere : α → List ScopeId := fun _ => []

variable {w : Watch σ} {s t u : σ} {within : List ScopeId}

theorem Reaches.refl (safe : w.safe s) : w.Reaches s s := ⟨safe, .refl _⟩

theorem Reaches.trans (first : w.Reaches s t) (second : w.Reaches t u) : w.Reaches s u :=
  ⟨second.safe, first.extends_.trans second.extends_⟩

theorem Reaches.has (reaches : w.Reaches s t) (has : w.Has s within) : w.Has t within :=
  fun scope member => reaches.extends_.contains scope (has scope member)

theorem has_nowhere (w : Watch σ) (s : σ) (a : α) : w.Has s (nowhere a) :=
  fun _ absent => absurd absent List.not_mem_nil

namespace Agrees

variable {leads : α → List ScopeId} {leads' : β → List ScopeId}

theorem pure (a : α) : w.Agrees within nowhere (pure a) (pure a) :=
  fun s safe _ => ⟨rfl, .ok (.refl safe) (w.has_nowhere s a)⟩

theorem refuse (cause : LowerError) :
    w.Agrees within leads (Checked.refuse cause) (throw (.refused cause)) :=
  fun _ safe _ => ⟨rfl, .refused (.refl safe)⟩

theorem bind {x : Checked σ α} {y : EStateM (Failure LowerError) σ α} {f : α → Checked σ β}
    {g : α → EStateM (Failure LowerError) σ β} (first : w.Agrees within leads x y)
    (next : ∀ a, w.Agrees (leads a ++ within) leads' (f a) (g a)) :
    w.Agrees within leads' (x >>= f) (y >>= g) := by
  intro s safe has
  obtain ⟨same, settles⟩ := first s safe has
  rw [bind_run, same, Checked.plain, Checked.plain, bind_run]
  generalize y s = outcome at settles
  cases settles with
  | refused reaches => exact ⟨rfl, .refused reaches⟩
  | @ok a t reaches has' =>
    obtain ⟨same', settles'⟩ := next a t reaches.safe
      fun scope member => (List.mem_append.1 member).elim (has' scope) (reaches.has has scope)
    refine ⟨same', ?_⟩
    show w.Settles s leads' (g a t)
    generalize g a t = outcome at settles'
    cases settles' with
    | ok reaches' has'' => exact .ok (reaches.trans reaches') has''
    | refused reaches' => exact .refused (reaches.trans reaches')

/-- Behind a step whose result leads to no scope. -/
theorem andThen {x : Checked σ α} {y : EStateM (Failure LowerError) σ α} {f : α → Checked σ β}
    {g : α → EStateM (Failure LowerError) σ β} (first : w.Agrees within nowhere x y)
    (next : ∀ a, w.Agrees within leads' (f a) (g a)) : w.Agrees within leads' (x >>= f) (y >>= g) :=
  first.bind next

/-- A step that is taken over as it is. -/
theorem of_settles {y : EStateM (Failure LowerError) σ α}
    (settles : ∀ s, w.safe s → w.Has s within → w.Settles s leads (y s)) :
    w.Agrees within leads (Checked.plain y) y :=
  fun s safe has => ⟨rfl, settles s safe has⟩

/-- A run that is, from each safe state, a step taken over as it is. -/
theorem of_eq {x : Checked σ α} {y : EStateM (Failure LowerError) σ α}
    (same : ∀ s, w.safe s → x s = Checked.plain y s)
    (agrees : w.Agrees within leads (Checked.plain y) y) : w.Agrees within leads x y :=
  fun s safe has => ⟨same s safe, (agrees s safe has).2⟩

/-- Steps that are taken over in a row. -/
theorem steps {x : EStateM (Failure LowerError) σ α} {f : α → EStateM (Failure LowerError) σ β}
    (first : w.Agrees within leads (Checked.plain x) x)
    (next : ∀ a, w.Agrees (leads a ++ within) leads' (Checked.plain (f a)) (f a)) :
    w.Agrees within leads' (Checked.plain (x >>= f)) (x >>= f) := by
  have apart : Checked.plain (x >>= f) = Checked.plain x >>= fun a => Checked.plain (f a) := by
    funext s
    rw [bind_run, Checked.plain, Checked.plain, bind_run]
    cases x s <;> rfl
  rw [apart]
  exact first.bind next

/-- The result is dropped, and with it what it leads to. -/
theorem discard {x : Checked σ α} {y : EStateM (Failure LowerError) σ α}
    (agrees : w.Agrees within leads x y) :
    w.Agrees within nowhere (Functor.discard x) (Functor.discard y) := by
  intro s safe has
  obtain ⟨same, settles⟩ := agrees s safe has
  have dropped : Checked.plain (Functor.discard y) s = Functor.discard (Checked.plain y) s := by
    show Checked.plain (EStateM.map _ y) s = EStateM.map _ (Checked.plain y) s
    rw [EStateM.map, Checked.plain, EStateM.map, Checked.plain]
    cases y s <;> rfl
  rw [dropped]
  constructor
  · show EStateM.map _ x s = EStateM.map _ (Checked.plain y) s
    rw [EStateM.map, EStateM.map, same]
  · show w.Settles s nowhere (EStateM.map _ y s)
    rw [EStateM.map]
    generalize y s = outcome at settles
    cases settles with
    | ok reaches _ => exact .ok reaches (w.has_nowhere _ _)
    | refused reaches => exact .refused reaches

theorem map {x : Checked σ α} {y : EStateM (Failure LowerError) σ α} (f : α → β)
    (agrees : w.Agrees within nowhere x y) : w.Agrees within nowhere (f <$> x) (f <$> y) := by
  have same {ε : Type} (z : EStateM ε σ α) : f <$> z = z >>= fun a => Pure.pure (f a) := by
    funext s
    exact map_run f z s
  rw [same, same]
  exact agrees.andThen fun a => .pure (f a)

/-- A check that refuses, before the rest of the work. -/
theorem check {failed : Prop} [Decidable failed] {cause : LowerError}
    {rest : PUnit → Checked σ α} {rest' : PUnit → EStateM (Failure LowerError) σ α}
    (goes : w.Agrees within leads (rest ⟨⟩) (rest' ⟨⟩)) :
    w.Agrees within leads (if failed then Checked.refuse cause >>= rest else rest ⟨⟩)
      (if failed then throw (.refused cause) >>= rest' else rest' ⟨⟩) := by
  split
  · have refused : w.Agrees within nowhere (Checked.refuse cause : Checked σ PUnit)
      (throw (.refused cause)) := refuse cause
    refine refused.andThen fun u => ?_
    cases u
    exact goes
  · exact goes

/-- The same within one step that is taken over. -/
theorem checkSteps {failed : Prop} [Decidable failed] {cause : LowerError}
    {rest : PUnit → EStateM (Failure LowerError) σ α}
    (goes : w.Agrees within leads (Checked.plain (rest ⟨⟩)) (rest ⟨⟩)) :
    w.Agrees within leads
      (Checked.plain (if failed then throw (.refused cause) >>= rest else rest ⟨⟩))
      (if failed then throw (.refused cause) >>= rest else rest ⟨⟩) := by
  split
  · have refused : w.Agrees within nowhere (Checked.refuse cause : Checked σ PUnit)
      (throw (.refused cause)) := refuse cause
    refine refused.steps fun u => ?_
    cases u
    exact goes
  · exact goes

end Agrees

end Watch

end SsaLowering
