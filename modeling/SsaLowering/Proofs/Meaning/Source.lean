/-
# SsaLowering.Proofs.Meaning.Source -- what a source program does

The source tree is run directly.  Names live in nested frames: parameters and
constants hold values, `let` and `var` hold cells of a memory that is changed by
assignment.  Operands and arguments go from left to right.  Addition is an operation
that is left open, and every call is appended to a trace and answered by an oracle
that sees the whole trace (`World`).  A program that has no meaning here gives
`none`: nothing in this module asks what lowering does.
-/
import Mathlib
import SsaLowering.Ir.Operand
import SsaLowering.Syntax.Tree

namespace SsaLowering

set_option autoImplicit false

open Ir (FuncId)

/-! ## Values and the world around -/

/-- What programs compute with. -/
inductive Value where
  | bool (value : Bool)
  | number (value : Double)
  | string (bytes : List UInt8)
  | function (id : FuncId)
  /-- What a variable holds before anything was stored in it. -/
  | unset
  /-- Whatever else a call may be answered with. -/
  | foreign (tag : Nat)
deriving DecidableEq, Inhabited

/-- Which branch a condition takes. -/
def Value.isTrue : Value → Bool
  | .bool value => value
  | _ => false

/-- A call of a function. -/
structure Call where
  callee : FuncId
  args : List Value
deriving DecidableEq, Inhabited

/-- What a program does not decide itself. -/
structure World where
  /-- The sum of two values. -/
  add : Value → Value → Value
  /-- The answer to the last of the calls that were made. -/
  answer : List Call → Value

/-- The cells of the variables and the calls so far. -/
structure Memory where
  cells : List Value
  trace : List Call
deriving DecidableEq, Inhabited

namespace Memory

def empty : Memory := ⟨[], []⟩

/-- A new cell, which is the last one. -/
def allocate (memory : Memory) (value : Value) : Memory :=
  { memory with cells := memory.cells ++ [value] }

def store (memory : Memory) (cell : Nat) (value : Value) : Memory :=
  { memory with cells := memory.cells.set cell value }

/-- A call is recorded and answered. -/
def call (memory : Memory) (world : World) (callee : FuncId) (args : List Value) :
    Value × Memory :=
  let trace := memory.trace ++ [⟨callee, args⟩]
  (world.answer trace, { memory with trace })

end Memory

/-! ## Names -/

/-- What a name stands for while a program runs. -/
inductive Meaning where
  | value (value : Value)
  | cell (index : Nat)
  | namespace_ (members : Symbol → Option Value)

/-- Nested frames, the innermost first, inside of the names that are there from the start. -/
structure Frames where
  inner : List (List (Symbol × Meaning))
  outer : Symbol → Option Meaning

namespace Frames

/-- The innermost meaning of a name. -/
def lookup (frames : Frames) (name : Symbol) : Option Meaning :=
  (frames.inner.findSome? (List.lookup name)).or (frames.outer name)

/-- A new innermost frame. -/
def push (frames : Frames) : Frames := { frames with inner := [] :: frames.inner }

/-- A name in the innermost frame. -/
def bind (frames : Frames) (name : Symbol) (meaning : Meaning) : Frames :=
  match frames.inner with
  | [] => { frames with inner := [[(name, meaning)]] }
  | frame :: rest => { frames with inner := ((name, meaning) :: frame) :: rest }

/-- The parameters with their values. -/
def bindParams (frames : Frames) : List Param → List Value → Frames
  | param :: params, value :: values =>
    (frames.bind param.name (.value value)).bindParams params values
  | _, _ => frames

@[simp]
theorem lookup_push (frames : Frames) (name : Symbol) :
    frames.push.lookup name = frames.lookup name := by
  unfold lookup push
  rw [List.findSome?_cons]
  rfl

theorem lookup_bind (frames : Frames) (name x : Symbol) (meaning : Meaning) :
    (frames.bind name meaning).lookup x = if x = name then some meaning else frames.lookup x := by
  unfold lookup bind
  by_cases here : x = name
  · subst here
    split <;> simp
  · have other : (x == name) = false := by simpa using here
    split
    · rename_i none_
      simp [List.lookup, other, here, none_]
    · rename_i frame rest some_
      simp [List.findSome?_cons, List.lookup, other, here, some_]

/-- The value that a bare name is read as. -/
def read? (frames : Frames) (memory : Memory) (name : Symbol) : Option Value :=
  match frames.lookup name with
  | some (.value value) => some value
  | some (.cell index) => memory.cells[index]?
  | _ => none

/-- A member of the namespace that a bare name stands for. -/
def member? (frames : Frames) (object : Expr) (property : Symbol) : Option Value :=
  match object with
  | .identifier name _ =>
    match frames.lookup name with
    | some (.namespace_ members) => members property
    | _ => none
  | _ => none

/-- The cell that an assignment writes to. -/
def target? (frames : Frames) (target : Expr) : Option Nat :=
  match target with
  | .identifier name _ =>
    match frames.lookup name with
    | some (.cell index) => some index
    | _ => none
  | _ => none

end Frames

/-! ## Expressions -/

mutual

/-- The value of an expression, and the memory behind it. -/
def Expr.eval (world : World) (frames : Frames) : Expr → Memory → Option (Value × Memory)
  | .identifier name _, memory => (frames.read? memory name).map (·, memory)
  | .member object property _, memory => (frames.member? object property).map (·, memory)
  | .call callee args _, memory => do
    let (target, memory) ← callee.eval world frames memory
    let (values, memory) ← Expr.evals world frames args memory
    match target with
    | .function id => some (memory.call world id values)
    | _ => none
  | .binary .assign lhs rhs _, memory => do
    let cell ← frames.target? lhs
    let (value, memory) ← rhs.eval world frames memory
    some (value, memory.store cell value)
  | .binary .add lhs rhs _, memory => do
    let (left, memory) ← lhs.eval world frames memory
    let (right, memory) ← rhs.eval world frames memory
    some (world.add left right, memory)
  | .bool value _, memory => some (.bool value, memory)
  | .number value _, memory => some (.number value, memory)
  | .string value _, memory => some (.string value.toUTF8.toList, memory)
  | _, _ => none

/-- The values of arguments, from left to right. -/
def Expr.evals (world : World) (frames : Frames) :
    List Expr → Memory → Option (List Value × Memory)
  | [], memory => some ([], memory)
  | arg :: args, memory => do
    let (value, memory) ← arg.eval world frames memory
    let (values, memory) ← Expr.evals world frames args memory
    some (value :: values, memory)

end

/-! ## Statements -/

/-- How a statement ends: it goes on, or the function returns. -/
inductive Flow where
  | normal (frames : Frames) (memory : Memory)
  | returned (value : Option Value) (memory : Memory)

namespace Flow

/-- What is behind a construct with names of its own. -/
def within (frames : Frames) : Flow → Flow
  | normal _ memory => normal frames memory
  | returned value memory => returned value memory

def memory : Flow → Memory
  | normal _ memory => memory
  | returned _ memory => memory

end Flow

/-- The initial value of a variable, which is unset without an initializer. -/
def Declarator.evalInit (world : World) (frames : Frames) (decl : Declarator) (memory : Memory) :
    Option (Value × Memory) :=
  match decl.init with
  | none => some (.unset, memory)
  | some init => init.eval world frames memory

/-- A variable, whose name is bound after its initial value is known. -/
def Declarator.eval (world : World) (kind : BindingKind) (frames : Frames) (decl : Declarator)
    (memory : Memory) : Option (Frames × Memory) := do
  let (value, memory) ← decl.evalInit world frames memory
  if kind.isMutable then
    some (frames.bind decl.name (.cell memory.cells.length), memory.allocate value)
  else some (frames.bind decl.name (.value value), memory)

/-- Variables in order. -/
def Declarator.evals (world : World) (kind : BindingKind) :
    List Declarator → Frames → Memory → Option Flow
  | [], frames, memory => some (.normal frames memory)
  | decl :: rest, frames, memory => do
    let (frames, memory) ← decl.eval world kind frames memory
    Declarator.evals world kind rest frames memory

mutual

/-- The run of a statement. -/
def Stmt.eval (world : World) (frames : Frames) : Stmt → Memory → Option Flow
  | .block stmts _, memory => (Stmt.evals world frames.push stmts memory).map (Flow.within frames)
  | .expression expr _, memory => do
    let (_, memory) ← expr.eval world frames memory
    some (.normal frames memory)
  | .ifElse condition thenBranch elseBranch _, memory => do
    let (value, memory) ← condition.eval world frames memory
    let flow ←
      if value.isTrue then thenBranch.eval world frames memory
      else Stmt.evalOptional world frames elseBranch memory
    some (flow.within frames)
  | .ret none _, memory => some (.returned none memory)
  | .ret (some expr) _, memory => do
    let (value, memory) ← expr.eval world frames memory
    some (.returned (some value) memory)
  | .vars kind declarators _, memory => Declarator.evals world kind declarators frames memory
  | _, _ => none

def Stmt.evalOptional (world : World) (frames : Frames) : Option Stmt → Memory → Option Flow
  | none, memory => some (.normal frames memory)
  | some stmt, memory => stmt.eval world frames memory

/-- Statements in order, up to the first that returns. -/
def Stmt.evals (world : World) (frames : Frames) : List Stmt → Memory → Option Flow
  | [], memory => some (.normal frames memory)
  | stmt :: rest, memory => do
    match ← stmt.eval world frames memory with
    | .normal frames memory => Stmt.evals world frames rest memory
    | .returned value memory => some (.returned value memory)

end

/-- The run of a body with values for its parameters, among the names around it. -/
def FunctionDecl.eval (world : World) (outer : Symbol → Option Meaning) (decl : FunctionDecl)
    (stmts : List Stmt) (args : List Value) : Option Flow :=
  Stmt.evals world ((Frames.mk [[]] outer).bindParams decl.params args) stmts .empty

end SsaLowering
