/-
# SsaLowering.Ir.Function -- functions, basic blocks and the value table

A `Function` owns one table of values, the parameters first, and a list of
blocks of which the first is the entry.  Without blocks it is a declaration.
-/
import SsaLowering.Ir.Instruction

namespace SsaLowering.Ir

set_option autoImplicit false

/-- Where a value comes from. -/
inductive Origin where
  | param (index : Nat)
  | inst (block : BlockId)
deriving DecidableEq, Inhabited

/-- An entry of the value table. -/
structure ValueData where
  name : Option String
  ty : Ty
  origin : Origin
deriving DecidableEq, Inhabited

/-- A straight line of instructions; `terminator` is absent while the block is open. -/
structure BasicBlock where
  name : String
  instructions : List Instruction
  terminator : Option Terminator
deriving Inhabited

/-- A function of a module, visible outside under its name. -/
structure Function where
  name : String
  ty : FunctionTy
  params : List ValueId
  values : List ValueData
  blocks : List BasicBlock
deriving Inhabited

namespace Function

/-- A function without a body and with one value for each parameter. -/
def declare (name : String) (ty : FunctionTy) : Function where
  name := name
  ty := ty
  params := (List.range ty.params.length).map ValueId.mk
  values := ty.params.mapIdx fun index param => ⟨none, param, .param index⟩
  blocks := []

def returnTy (f : Function) : Ty := f.ty.ret

/-- Whether the function has no body. -/
def isDeclaration (f : Function) : Bool := f.blocks.isEmpty

def value? (f : Function) (id : ValueId) : Option ValueData := f.values[id.index]?

def block? (f : Function) (id : BlockId) : Option BasicBlock := f.blocks[id.index]?

/-- The first block with the given label. -/
def blockNamed? (f : Function) (label : String) : Option BlockId :=
  (f.blocks.findIdx? (·.name == label)).map BlockId.mk

/-- The entry block of a function with a body. -/
def entry? (f : Function) : Option BlockId := if f.isDeclaration then none else some ⟨0⟩

/-- Every instruction, in block order. -/
def instructions (f : Function) : List Instruction := f.blocks.flatMap (·.instructions)

/-- The type of an operand; a value outside the table has none. -/
def operandTy? (f : Function) : Operand → Option Ty
  | .value id => (f.value? id).map (·.ty)
  | .constant c => some c.ty
  | .function _ => some .ptr

/-- The type stored in the slot that `ptr` is the address of, when `ptr` names
the result of an alloca. -/
def slotTy? (f : Function) (ptr : Operand) : Option Ty := do
  let id ← ptr.value?
  f.blocks.findSome? fun block =>
    block.instructions.findSome? fun inst =>
      match inst.action with
      | .alloca ty => if inst.result = some id then some ty else none
      | _ => none

/-- The blocks to which control may go from `block`; an open block has none. -/
def successors (f : Function) (block : BlockId) : List BlockId :=
  match (f.block? block).bind (·.terminator) with
  | some terminator => terminator.successors
  | none => []

end Function

end SsaLowering.Ir
