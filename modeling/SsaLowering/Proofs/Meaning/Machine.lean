/-
# SsaLowering.Proofs.Meaning.Machine -- what a function of the IR does

A `Machine` runs the blocks of one function: values are kept in registers, every
alloca has a cell, a string is read through the global that holds its bytes, and
addition and calls are those of the `World`.  `Machine.step` is one instruction or
one end of a block, and `Function.Ends` says how a whole run ends.
-/
import SsaLowering.Ir.Module
import SsaLowering.Proofs.Meaning.Source

namespace SsaLowering.Ir

set_option autoImplicit false

/-- The value of a constant.  A string is an aggregate of the address and the number of
its bytes. -/
def Constant.read (m : Module) : Constant → Option Value
  | .bool value => some (.bool value)
  | .double value => some (.number value)
  | .struct _ [.global id, .int _ count] =>
    (m.global? id).map fun data => .string (data.bytes.take count.toNat)
  | _ => none

/-- A function on its way through a block. -/
structure Machine where
  block : BlockId
  rest : List Instruction
  registers : ValueId → Option Value
  cells : ValueId → Option Value
  trace : List Call

/-- How a run ends. -/
inductive Exit where
  | returned (value : Option Value)
  | unreachable
deriving DecidableEq, Inhabited

namespace Machine

variable (m : Module)

def read (c : Machine) : Operand → Option Value
  | .value id => c.registers id
  | .constant constant => constant.read m
  | .function id => some (.function id)

/-- The result of an instruction, if it has one. -/
def define (c : Machine) (result : Option ValueId) (value : Value) : Machine :=
  match result with
  | none => c
  | some id => { c with registers := fun x => if x = id then some value else c.registers x }

/-- A value in a cell. -/
def write (c : Machine) (cell : ValueId) (value : Value) : Machine :=
  { c with cells := fun x => if x = cell then some value else c.cells x }

/-- The cell that an operand is the address of, if it has been reserved. -/
def cell? (c : Machine) (ptr : Operand) : Option ValueId :=
  ptr.value?.bind fun id => (c.cells id).map fun _ => id

variable (world : World)

/-- What an instruction does. -/
def act (c : Machine) (inst : Instruction) : Option Machine :=
  match inst.action with
  | .alloca _ => inst.result.map fun cell => c.write cell .unset
  | .load _ ptr => do
    let cell ← c.cell? ptr
    let value ← c.cells cell
    some (c.define inst.result value)
  | .store value ptr => do
    let stored ← c.read m value
    let cell ← c.cell? ptr
    some (c.write cell stored)
  | .fadd lhs rhs => do
    let left ← c.read m lhs
    let right ← c.read m rhs
    some (c.define inst.result (world.add left right))
  | .call callee args => do
    let values ← args.mapM (c.read m)
    let trace := c.trace ++ [⟨callee, values⟩]
    some ({ c with trace }.define inst.result (world.answer trace))

/-- Go on at the start of a block. -/
def enter (f : Function) (c : Machine) (target : BlockId) : Option Machine :=
  (f.block? target).map fun data => { c with block := target, rest := data.instructions }

/-- What the end of a block does. -/
def leave (f : Function) (c : Machine) : Terminator → Option (Machine ⊕ Exit)
  | .br target => (c.enter f target).map .inl
  | .condBr cond thenBlock elseBlock => do
    let value ← c.read m cond
    (c.enter f (if value.isTrue then thenBlock else elseBlock)).map .inl
  | .ret none => some (.inr (.returned none))
  | .ret (some operand) => (c.read m operand).map fun value => .inr (.returned (some value))
  | .unreachable => some (.inr .unreachable)

/-- One instruction, or the end of the block; `none` where a run is stuck. -/
def step (f : Function) (c : Machine) : Option (Machine ⊕ Exit) :=
  match c.rest with
  | inst :: rest => (c.act m world inst).map fun c => .inl { c with rest }
  | [] => (f.block? c.block).bind fun data => data.terminator.bind (c.leave m f)

/-- Steps in a row. -/
def Reaches (f : Function) : Machine → Machine → Prop :=
  Relation.ReflTransGen fun c d => c.step m world f = some (.inl d)

/-- The start of a function, with values in the registers of its parameters. -/
def start? (f : Function) (args : List Value) : Option Machine :=
  (f.block? ⟨0⟩).map fun data =>
    ⟨⟨0⟩, data.instructions, fun id => (f.params.zip args).lookup id, fun _ => none, []⟩

end Machine

/-- The function runs from its entry to an exit, and makes the calls of the trace. -/
def Function.Ends (m : Module) (world : World) (f : Function) (args : List Value) (exit : Exit)
    (trace : List Call) : Prop :=
  ∃ start last, Machine.start? f args = some start ∧ Machine.Reaches m world f start last ∧
    last.step m world f = some (.inr exit) ∧ last.trace = trace

/-! ## Runs -/

section Runs

variable {m : Module} {world : World} {f : Function} {c d e : Machine}

namespace Machine

/-- Of two runs from one start one goes on from the end of the other. -/
theorem Reaches.comparable (first : Reaches m world f c d) (second : Reaches m world f c e) :
    Reaches m world f d e ∨ Reaches m world f e d :=
  Relation.ReflTransGen.total_of_right_unique
    (fun _ _ _ one other => Sum.inl.inj (Option.some.inj (one.symm.trans other))) first second

/-- Behind an exit nothing is reached. -/
theorem Reaches.of_exit {exit : Exit} (ends : c.step m world f = some (.inr exit))
    (reaches : Reaches m world f c d) : d = c := by
  cases reaches.cases_head with
  | inl same => exact same.symm
  | inr more =>
    obtain ⟨next, steps, -⟩ := more
    cases ends.symm.trans steps

end Machine

/-- A function ends in one way at most. -/
theorem Function.Ends.unique {args : List Value} {exit exit' : Exit} {trace trace' : List Call}
    (ends : f.Ends m world args exit trace) (ends' : f.Ends m world args exit' trace') :
    exit' = exit ∧ trace' = trace := by
  obtain ⟨start, last, begun, reaches, leaves, rfl⟩ := ends
  obtain ⟨start', last', begun', reaches', leaves', rfl⟩ := ends'
  cases begun.symm.trans begun'
  obtain rfl : last' = last := by
    rcases reaches.comparable reaches' with on | on
    · exact on.of_exit leaves
    · exact (on.of_exit leaves').symm
  cases leaves.symm.trans leaves'
  exact ⟨rfl, rfl⟩

namespace Machine

/-- An instruction changes no register but the one of its result, and stays in its block. -/
theorem act_frame {inst : Instruction} (acts : c.act m world inst = some d) :
    d.block = c.block ∧ ∀ id, inst.result ≠ some id → d.registers id = c.registers id := by
  have defined (c : Machine) (value : Value) : (c.define inst.result value).block = c.block ∧
      ∀ id, inst.result ≠ some id → (c.define inst.result value).registers id = c.registers id := by
    cases result : inst.result with
    | none => exact ⟨rfl, fun _ _ => rfl⟩
    | some known => exact ⟨rfl, fun id other => if_neg fun same => other (congrArg some same.symm)⟩
  unfold act at acts
  split at acts
  · obtain ⟨cell, -, rfl⟩ := Option.map_eq_some_iff.1 acts
    exact ⟨rfl, fun _ _ => rfl⟩
  · simp only [bind, Option.bind_eq_some_iff] at acts
    obtain ⟨cell, -, value, -, same⟩ := acts
    cases same
    exact defined c value
  · simp only [bind, Option.bind_eq_some_iff] at acts
    obtain ⟨stored, -, cell, -, same⟩ := acts
    cases same
    exact ⟨rfl, fun _ _ => rfl⟩
  · simp only [bind, Option.bind_eq_some_iff] at acts
    obtain ⟨left, -, right, -, same⟩ := acts
    cases same
    exact defined c _
  · simp only [bind, Option.bind_eq_some_iff] at acts
    obtain ⟨values, -, same⟩ := acts
    cases same
    exact defined _ _

end Machine

end Runs

end SsaLowering.Ir
