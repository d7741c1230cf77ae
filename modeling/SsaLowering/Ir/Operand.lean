/-
# SsaLowering.Ir.Operand -- handles, constants and operands

Values, blocks, functions and globals are addressed by their position in the
table that owns them.  An `Operand` is what an instruction reads: a value of the
same function, a constant, or the address of a function of the module.
-/
import SsaLowering.Double
import SsaLowering.Ir.Ty

namespace SsaLowering.Ir

set_option autoImplicit false

/-- A value inside one function. -/
structure ValueId where
  index : Nat
deriving DecidableEq, Inhabited

/-- A basic block inside one function. -/
structure BlockId where
  index : Nat
deriving DecidableEq, Inhabited

/-- A function inside a module. -/
structure FuncId where
  index : Nat
deriving DecidableEq, Inhabited

/-- A piece of constant data inside a module. -/
structure GlobalId where
  index : Nat
deriving DecidableEq, Inhabited

def ValueId.text (id : ValueId) : String := s!"%{id.index}"

def BlockId.text (id : BlockId) : String := s!"bb{id.index}"

def FuncId.text (id : FuncId) : String := s!"fn#{id.index}"

def GlobalId.text (id : GlobalId) : String := s!"global#{id.index}"

/-- Compile-time constants. -/
inductive Constant where
  | bool (value : Bool)
  | int (bits : Nat) (value : Int)
  | double (value : Double)
  | struct (ty : StructTy) (fields : List Constant)
  | global (id : GlobalId)
  | undef (ty : Ty)
deriving Inhabited

/-- The type of a constant.  An aggregate has the type it was written with,
whatever its fields are. -/
def Constant.ty : Constant → Ty
  | .bool _ => .bool
  | .int bits _ => .int bits
  | .double _ => .double
  | .struct ty _ => ty.ty
  | .global _ => .ptr
  | .undef ty => ty

/-- Anything an instruction can read. -/
inductive Operand where
  | value (id : ValueId)
  | constant (constant : Constant)
  | function (id : FuncId)
deriving Inhabited

namespace Operand

/-- The value that the operand names, if it names one. -/
def value? : Operand → Option ValueId
  | .value id => some id
  | _ => none

def constant? : Operand → Option Constant
  | .constant c => some c
  | _ => none

end Operand

end SsaLowering.Ir
