/-
# SsaLowering.Ir.Module -- functions and constant data under one roof

A `Module` is a list of functions, an index from linkage names to functions, and
a list of globals.  A function is declared first, without a body, and defined
later; the last declaration can be taken back while it has no body, and then its
name is free again.  A refused operation gives no new module.
-/
import SsaLowering.Ir.Error
import SsaLowering.Ir.Function

namespace SsaLowering.Ir

set_option autoImplicit false

/-- Constant bytes with a private name. -/
structure Global where
  name : String
  bytes : List UInt8
  readOnly : Bool
deriving DecidableEq, Inhabited

/-- The type of the data: an array of as many bytes as there are. -/
def Global.ty (g : Global) : Ty := .array .byte g.bytes.length

/-- Functions under their linkage names, with their constant data. -/
structure Module where
  name : String
  functions : List Function
  names : List (String × FuncId)
  globals : List Global
deriving Inhabited

namespace Module

def empty (name : String) : Module := ⟨name, [], [], []⟩

def function? (m : Module) (id : FuncId) : Option Function := m.functions[id.index]?

/-- The function with the given linkage name. -/
def functionNamed? (m : Module) (name : String) : Option FuncId := m.names.lookup name

def global? (m : Module) (id : GlobalId) : Option Global := m.globals[id.index]?

/-- The signature of a function. -/
def signature? (m : Module) (id : FuncId) : Option FunctionTy := (m.function? id).map (·.ty)

/-! ## Functions -/

/-- Add a function without a body under a name that has to be free. -/
def declare (m : Module) (name : String) (ty : FunctionTy) :
    Except BuildError (FuncId × Module) :=
  if (m.functionNamed? name).isSome then .error (.duplicateSymbol name)
  else
    let id : FuncId := ⟨m.functions.length⟩
    .ok (id,
      { m with
        functions := m.functions ++ [Function.declare name ty]
        names := m.names ++ [(name, id)] })

/-- Give a declared function its body, which has to carry the declared name and
signature. -/
def define (m : Module) (id : FuncId) (body : Function) : Except BuildError Module :=
  match m.function? id with
  | none => .error (.unknownFunction id)
  | some declared =>
    if !declared.isDeclaration then .error (.alreadyDefined declared.name)
    else if declared.name ≠ body.name ∨ declared.ty ≠ body.ty then
      .error (.declarationMismatch declared.name body.name)
    else .ok { m with functions := m.functions.set id.index body }

/-- Take back the last declaration; the name becomes free. -/
def retract (m : Module) (id : FuncId) : Except BuildError (Function × Module) :=
  match m.function? id with
  | none => .error (.unknownFunction id)
  | some f =>
    if id.index + 1 ≠ m.functions.length then .error (.unknownFunction id)
    else if !f.isDeclaration then .error (.alreadyDefined f.name)
    else
      .ok (f,
        { m with
          functions := m.functions.dropLast
          names := m.names.filter (·.1 ≠ f.name) })

/-! ## Constant data -/

/-- The name of the global at `index`. -/
def globalName (index : Nat) : String := if index = 0 then ".str" else s!".str.{index}"

/-- Add read-only bytes. -/
def addConstant (m : Module) (bytes : List UInt8) : GlobalId × Module :=
  let index := m.globals.length
  (⟨index⟩, { m with globals := m.globals ++ [⟨globalName index, bytes, true⟩] })

/-- Drop every global after the first `count`. -/
def truncateGlobals (m : Module) (count : Nat) : Module :=
  { m with globals := m.globals.take count }

end Module

end SsaLowering.Ir
