/-
# SsaLowering.Document.View -- functions, bindings and warnings as documents

A view shows every part of a value for inspection: the whole value table of a
function, its slots, its blocks with operands and successors, what a name is bound
to, and a warning with its code and message.  Handles and types are shown by their
texts.
-/
import SsaLowering.Diagnostic
import SsaLowering.Document.Basic
import SsaLowering.Ir.ControlFlow
import SsaLowering.Ir.Module
import SsaLowering.Scope

namespace SsaLowering

set_option autoImplicit false

namespace Document

/-- A text for a value, or nothing for none. -/
def ofOption {α : Type} (text : α → String) : Option α → Document
  | some a => .string (text a)
  | none => .null

def ofList {α : Type} (view : α → Document) (as : List α) : Document := .array (as.map view)

def ofNat (n : Nat) : Document := .integer n

end Document

namespace Ir

mutual

def Constant.view : Constant → Document
  | .bool b => .object [("bool", .bool b)]
  | .int bits value => .object [("int", .object [("bits", .ofNat bits), ("value", .integer value)])]
  | .double value => .object [("double", .string value.text)]
  | .struct ty fields =>
    .object [("struct",
      .object [("ty", .string ty.text), ("body", .string ty.body),
        ("fields", .array (Constant.views fields))])]
  | .global id => .object [("global", .string id.text)]
  | .undef ty => .object [("undef", .string ty.text)]

def Constant.views : List Constant → List Document
  | [] => []
  | c :: rest => c.view :: Constant.views rest

end

def Operand.view : Operand → Document
  | .value id => .object [("value", .string id.text)]
  | .function id => .object [("fn", .string id.text)]
  | .constant c => .object [("const", c.view)]

/-- What an action mentions besides its operands: the type of a slot or of a load,
or the callee. -/
def Action.extra? : Action → Option String
  | .alloca ty => some ty.text
  | .load ty _ => some ty.text
  | .call callee _ => some callee.text
  | _ => none

def Instruction.view (inst : Instruction) : Document :=
  .object [("op", .string inst.action.opcode), ("extra", .ofOption id inst.action.extra?),
    ("result", .ofOption ValueId.text inst.result),
    ("operands", .ofList Operand.view inst.action.operands)]

def Terminator.kind : Terminator → String
  | .br _ => "br"
  | .condBr .. => "condbr"
  | .ret _ => "ret"
  | .unreachable => "unreachable"

def Terminator.view (terminator : Terminator) : Document :=
  .object [("kind", .string terminator.kind),
    ("operands", .ofList Operand.view terminator.operands)]

def Origin.text : Origin → String
  | .param index => s!"param {index}"
  | .inst block => s!"inst {block.text}"

/-- A function with all its tables. -/
def Function.view (f : Function) : Document :=
  let ids := (List.range f.values.length).map ValueId.mk
  let block (id : BlockId) (data : BasicBlock) : Document :=
    .object [("name", .string data.name), ("insts", .ofList Instruction.view data.instructions),
      ("term", (data.terminator.map Terminator.view).getD .null),
      ("succ", .ofList (.string ·.text) (f.successors id))]
  .object [
    ("name", .string f.name),
    ("type", .string f.ty.text),
    ("ret", .string f.returnTy.text),
    ("declaration", .bool f.isDeclaration),
    ("params", .ofList (.string ·.text) f.params),
    ("entry", .ofOption BlockId.text f.entry?),
    ("values", .array ((ids.zip f.values).map fun (id, data) =>
      .array [.string id.text, .ofOption (·) data.name, .string data.ty.text,
        .string data.origin.text])),
    ("allocated", .array (ids.filterMap fun id =>
      (f.slotTy? (.value id)).map fun ty => .array [.string id.text, .string ty.text])),
    ("blocks", .array ((f.blockIds.zip f.blocks).map fun (id, data) => block id data)),
    ("instructions", .ofNat f.instructions.length),
    ("reachable", .ofList (.string ·.text) f.reachable)]

def Global.view (g : Global) : Document :=
  .object [("name", .string g.name), ("bytes", .ofList (fun byte => .ofNat byte.toNat) g.bytes),
    ("constant", .bool g.readOnly), ("ty", .string g.ty.text)]

end Ir

def BoundValue.view : BoundValue → Document
  | .direct operand => .object [("direct", operand.view)]
  | .slot s => .object [("slot", .object [("ptr", .string s.ptr.text), ("ty", .string s.ty.text)])]
  | .namespace_ scope => .object [("namespace", .ofNat scope.index)]

def Diagnostic.view (d : Diagnostic) : Document :=
  .object [("severity", .string d.severity), ("code", .string d.code.text),
    ("kind", .string d.kind.name), ("message", .string d.message), ("span", .string d.span.text)]

end SsaLowering
