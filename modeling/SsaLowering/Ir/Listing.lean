/-
# SsaLowering.Ir.Listing -- the text of a module

A listing names the module, declares every named struct in use, defines the
constant data and then writes the functions in declaration order.  A value is
written by its name, or by its number when it has none; a type is written before
every operand that the reader could not type without it.
-/
import SsaLowering.Ir.Module
import SsaLowering.Text.ByteLiteral

namespace SsaLowering.Ir

set_option autoImplicit false

def commaSeparated (texts : List String) : String := ", ".intercalate texts

/-! ## Named structs -/

namespace Ty

mutual

/-- The named structs in a type, inner ones before the struct that holds them. -/
def namedStructs : Ty → List StructTy
  | .struct name fields =>
    namedStructsAll fields ++ if name.isSome then [⟨name, fields⟩] else []
  | .array element _ => namedStructs element
  | .function params ret => namedStructsAll params ++ namedStructs ret
  | .void | .bool | .int _ | .double | .ptr => []

/-- The named structs in several types. -/
def namedStructsAll : List Ty → List StructTy
  | [] => []
  | ty :: rest => namedStructs ty ++ namedStructsAll rest

end

end Ty

/-- The types that an instruction brings into a listing. -/
def Instruction.types (inst : Instruction) : List Ty :=
  let own := match inst.action with
    | .alloca ty => [ty]
    | .load ty _ => [ty]
    | _ => []
  own ++ (inst.action.operands.filterMap Operand.constant?).map Constant.ty

/-- The types that a function brings into a listing. -/
def Function.types (f : Function) : List Ty :=
  f.ty.params ++ [f.ty.ret] ++ f.values.map (·.ty) ++ f.instructions.flatMap Instruction.types

/-- Keep the first struct of each name. -/
def firstOfName (structs : List StructTy) : List StructTy :=
  (structs.foldl
    (fun kept struct => if kept.any (·.name == struct.name) then kept else struct :: kept)
    []).reverse

/-- The structs that a listing declares, in order. -/
def Module.namedStructs (m : Module) : List StructTy :=
  firstOfName (Ty.namedStructsAll (m.functions.flatMap Function.types))

/-! ## Operands -/

namespace Function

/-- A value by its name or its number. -/
def valueText (f : Function) (id : ValueId) : String :=
  match (f.value? id).bind (·.name) with
  | some name => "%" ++ name
  | none => id.text

def labelText (f : Function) (id : BlockId) : String :=
  match f.block? id with
  | some block => "%" ++ block.name
  | none => "%" ++ id.text

end Function

namespace Module

def functionText (m : Module) (id : FuncId) : String :=
  match m.function? id with
  | some f => "@" ++ f.name
  | none => "@" ++ id.text

def globalText (m : Module) (id : GlobalId) : String :=
  match m.global? id with
  | some g => "@" ++ g.name
  | none => "@" ++ id.text

mutual

/-- The text of a constant without its type; the fields of an aggregate have theirs. -/
def constantText (m : Module) : Constant → String
  | .bool value => if value then "true" else "false"
  | .int _ value => toString value
  | .double value => value.text
  | .struct _ fields => "\x7b " ++ commaSeparated (fieldTexts m fields) ++ " \x7d"
  | .global id => m.globalText id
  | .undef _ => "undef"

def fieldTexts (m : Module) : List Constant → List String
  | [] => []
  | field :: rest => (field.ty.text ++ " " ++ constantText m field) :: fieldTexts m rest

end

def operandText (m : Module) (f : Function) : Operand → String
  | .value id => f.valueText id
  | .constant c => m.constantText c
  | .function id => m.functionText id

/-- An operand after its type. -/
def typedText (m : Module) (f : Function) (operand : Operand) : String :=
  ((f.operandTy? operand).map Ty.text).getD "?" ++ " " ++ m.operandText f operand

/-! ## Lines -/

def actionText (m : Module) (f : Function) : Action → String
  | .alloca ty => "alloca " ++ ty.text
  | .load ty ptr => "load " ++ ty.text ++ ", " ++ m.typedText f ptr
  | .store value ptr => "store " ++ m.typedText f value ++ ", " ++ m.typedText f ptr
  | .fadd lhs rhs => "fadd " ++ m.typedText f lhs ++ ", " ++ m.operandText f rhs
  | .call callee args =>
    let ret := ((m.signature? callee).map (·.ret.text)).getD "?"
    "call " ++ ret ++ " " ++ m.functionText callee ++ "(" ++
      commaSeparated (args.map (m.typedText f)) ++ ")"

def instructionText (m : Module) (f : Function) (inst : Instruction) : String :=
  match inst.result with
  | some value => f.valueText value ++ " = " ++ m.actionText f inst.action
  | none => m.actionText f inst.action

def terminatorText (m : Module) (f : Function) : Terminator → String
  | .br target => "br label " ++ f.labelText target
  | .condBr cond thenBlock elseBlock =>
    "br " ++ m.typedText f cond ++ ", label " ++ f.labelText thenBlock ++
      ", label " ++ f.labelText elseBlock
  | .ret (some value) => "ret " ++ m.typedText f value
  | .ret none => "ret void"
  | .unreachable => "unreachable"

/-- The lines of one block: its label, then everything in it, indented. -/
def blockLines (m : Module) (f : Function) (block : BasicBlock) : List String :=
  (block.name ++ ":") ::
    ((block.instructions.map (m.instructionText f) ++
      (block.terminator.map (m.terminatorText f)).toList).map ("  " ++ ·))

/-- Groups of lines with an empty line between them. -/
def separated : List (List String) → List String
  | [] => []
  | first :: rest => first ++ (rest.map ("" :: ·)).flatten

/-- The lines of one function. -/
def functionLines (m : Module) (f : Function) : List String :=
  let head := f.returnTy.text ++ " @" ++ f.name
  if f.isDeclaration then
    ["declare " ++ head ++ "(" ++ commaSeparated (f.ty.params.map Ty.text) ++ ")"]
  else
    let params := (f.params.zip f.ty.params).map fun (value, ty) =>
      ty.text ++ " " ++ f.valueText value
    ("define " ++ head ++ "(" ++ commaSeparated params ++ ") \x7b") ::
      separated (f.blocks.map (m.blockLines f)) ++ ["\x7d"]

/-- The line of a piece of constant data. -/
def globalLine (g : Global) : String :=
  "@" ++ g.name ++ " = private " ++ (if g.readOnly then "constant" else "global") ++ " " ++
    g.ty.text ++ " c\"" ++ String.ofList (Text.ByteLiteral.encode g.bytes) ++ "\""

/-- The line that declares a named struct. -/
def structLine (struct : StructTy) : String := struct.text ++ " = type " ++ struct.body

/-- A group of lines after an empty one; no group for no lines. -/
def spaced (lines : List String) : List String :=
  if lines.isEmpty then [] else "" :: lines

/-- All lines of a module. -/
def lines (m : Module) : List String :=
  ("; ModuleID = '" ++ m.name ++ "'") ::
    spaced (m.namedStructs.map structLine) ++
    spaced (m.globals.map globalLine) ++
    (m.functions.map fun f => spaced (m.functionLines f)).flatten

/-- Lines with their ends. -/
def joinLines (lines : List String) : String := String.join (lines.map (· ++ "\n"))

/-- The text of a module. -/
def text (m : Module) : String := joinLines m.lines

/-- The text of one function. -/
def textOf? (m : Module) (id : FuncId) : Option String :=
  (m.function? id).map fun f => joinLines (m.functionLines f)

end Module

end SsaLowering.Ir
