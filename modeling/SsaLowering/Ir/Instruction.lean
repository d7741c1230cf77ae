/-
# SsaLowering.Ir.Instruction -- instructions and block terminators

An `Instruction` is an `Action` with the value it defines, if it defines one.  A
`Terminator` ends a block and says where control goes next.
-/
import SsaLowering.Ir.Operand

namespace SsaLowering.Ir

set_option autoImplicit false

/-- What an instruction does. -/
inductive Action where
  /-- Reserve a stack slot; the result is its address. -/
  | alloca (ty : Ty)
  /-- Read a value of type `ty` from an address. -/
  | load (ty : Ty) (ptr : Operand)
  /-- Write a value to an address. -/
  | store (value ptr : Operand)
  /-- Add two doubles. -/
  | fadd (lhs rhs : Operand)
  /-- Call a function of the module. -/
  | call (callee : FuncId) (args : List Operand)
deriving Inhabited

namespace Action

/-- The operands that the instruction reads, in order. -/
def operands : Action → List Operand
  | alloca _ => []
  | load _ ptr => [ptr]
  | store value ptr => [value, ptr]
  | fadd lhs rhs => [lhs, rhs]
  | call _ args => args

/-- The mnemonic. -/
def opcode : Action → String
  | alloca .. => "alloca"
  | load .. => "load"
  | store .. => "store"
  | fadd .. => "fadd"
  | call .. => "call"

def isAlloca : Action → Bool
  | alloca _ => true
  | _ => false

end Action

/-- An action and the value it defines; stores and void calls define none. -/
structure Instruction where
  result : Option ValueId
  action : Action
deriving Inhabited

/-- How control leaves a block. -/
inductive Terminator where
  | br (target : BlockId)
  | condBr (cond : Operand) (thenBlock elseBlock : BlockId)
  | ret (value : Option Operand)
  | unreachable
deriving Inhabited

namespace Terminator

/-- The blocks in which control may continue. -/
def successors : Terminator → List BlockId
  | br target => [target]
  | condBr _ thenBlock elseBlock => [thenBlock, elseBlock]
  | ret _ => []
  | unreachable => []

/-- The operands that the terminator reads. -/
def operands : Terminator → List Operand
  | condBr cond _ _ => [cond]
  | ret (some value) => [value]
  | _ => []

end Terminator

end SsaLowering.Ir
