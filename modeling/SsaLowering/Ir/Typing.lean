/-
# SsaLowering.Ir.Typing -- typing rules of instructions and terminators

`Function.checkAction` gives the type of the value an action defines inside a
function, and `Function.checkTerminator` checks the end of a block.  The builder
asks before it emits and the verifier asks again when the function is finished.
A call is checked against a signature that the asker supplies.
-/
import SsaLowering.Ir.Error
import SsaLowering.Ir.Function

namespace SsaLowering.Ir

set_option autoImplicit false

namespace Function

/-- The type of an operand. -/
def operandTy (f : Function) : Operand → Except BuildError Ty
  | .value id =>
    match f.value? id with
    | some data => .ok data.ty
    | none => .error (.unknownValue id)
  | .constant c => .ok c.ty
  | .function _ => .ok .ptr

/-- The operand has exactly the expected type. -/
def expectTy (f : Function) (operand : Operand) (expected : Ty) (context : String) :
    Except BuildError Unit := do
  let found ← f.operandTy operand
  if found = expected then .ok () else .error (.typeMismatch context expected found)

/-- The type can be stored. -/
def expectSized (ty : Ty) (context : String) : Except BuildError Unit :=
  if ty.isSized then .ok () else .error (.invalidType context ty)

/-- An access at type `ty` through an address: where the address is that of a
slot, the slot holds that very type. -/
def expectSlot (f : Function) (ptr : Operand) (ty : Ty) (context : String) :
    Except BuildError Unit :=
  match f.slotTy? ptr with
  | some slot => if slot = ty then .ok () else .error (.typeMismatch context slot ty)
  | none => .ok ()

/-- Arguments against parameter types, in order. -/
def expectArgs (f : Function) : List Operand → List Ty → Except BuildError Unit
  | arg :: args, param :: params => do
    f.expectTy arg param "call argument"
    f.expectArgs args params
  | _, _ => .ok ()

/-- The type of the value that an action defines, if it defines one. -/
def checkAction (f : Function) (signature : Option FunctionTy) :
    Action → Except BuildError (Option Ty)
  | .alloca ty => do
    expectSized ty "alloca"
    return some .ptr
  | .load ty ptr => do
    expectSized ty "load"
    f.expectTy ptr .ptr "load address"
    f.expectSlot ptr ty "load"
    return some ty
  | .store value ptr => do
    f.expectTy ptr .ptr "store address"
    let stored ← f.operandTy value
    expectSized stored "store"
    f.expectSlot ptr stored "store"
    return none
  | .fadd lhs rhs => do
    f.expectTy lhs .double "fadd"
    f.expectTy rhs .double "fadd"
    return some .double
  | .call callee args => do
    let some signature := signature | throw (.unknownFunction callee)
    if args.length ≠ signature.params.length then
      throw (.argumentCount callee signature.params.length args.length)
    f.expectArgs args signature.params
    return if signature.ret.isVoid then none else some signature.ret

/-- Every target exists, and the operand has the type that the terminator needs. -/
def checkTerminator (f : Function) (terminator : Terminator) : Except BuildError Unit := do
  match terminator.successors.find? fun target => (f.block? target).isNone with
  | some target => throw (.unknownBlock target)
  | none =>
    match terminator with
    | .condBr cond _ _ => f.expectTy cond .bool "branch condition"
    | .ret none =>
      if f.returnTy.isVoid then return () else throw (.typeMismatch "ret" f.returnTy .void)
    | .ret (some value) => f.expectTy value f.returnTy "ret"
    | .br _ => return ()
    | .unreachable => return ()

end Function

end SsaLowering.Ir
