/-
# SsaLowering.Document.Codec -- data types as documents

How handles, positions, labels, types and settings are written into documents and
read back.  A reader accepts every form of a record or a choice, and gives nothing
for a document of another shape or a number out of range.
-/
import SsaLowering.Document.Basic
import SsaLowering.Scope
import SsaLowering.Settings.Basic
import SsaLowering.TypeMapping

namespace SsaLowering

set_option autoImplicit false

/-! ## Types -/

namespace Ir

mutual

def Ty.toDocument : Ty → Document
  | .void => .string "Void"
  | .bool => .string "Bool"
  | .int bits => .object [("Int", .integer bits)]
  | .double => .string "Double"
  | .ptr => .string "Ptr"
  | .array element len =>
    .object [("Array", .object [("element", element.toDocument), ("len", .integer len)])]
  | .struct name fields =>
    .object [("Struct",
      .object [("name", .ofOptionalText name), ("fields", .array (Ty.toDocuments fields))])]
  | .function params ret =>
    .object [("Function",
      .object [("params", .array (Ty.toDocuments params)), ("ret", ret.toDocument)])]

def Ty.toDocuments : List Ty → List Document
  | [] => []
  | ty :: rest => ty.toDocument :: Ty.toDocuments rest

end

/-- The name and the field types of an aggregate; an absent name is none. -/
def readStruct? (read : Document → Option Ty) (d : Document) : Option StructTy := do
  let [name, some fields] ← d.recordFields? ["name", "fields"] | none
  let name ← (name.getD .null).optionalText?
  return ⟨name, ← (← fields.elements?).mapM read⟩

/-- The parameter types and the return type of a signature. -/
def readFunction? (read : Document → Option Ty) (d : Document) : Option FunctionTy := do
  let [some params, some ret] ← d.recordFields? ["params", "ret"] | none
  return ⟨← (← params.elements?).mapM read, ← read ret⟩

/-- A type nested at most `fuel` deep. -/
def readTy? : Nat → Document → Option Ty
  | 0, _ => none
  | fuel + 1, d => do
    match ← d.choice? with
    | ("Int", some attached) => return .int (← attached.word?)
    | ("Array", some attached) =>
      let [some element, some len] ← attached.namedFields? ["element", "len"] | none
      return .array (← readTy? fuel element) (← len.longWord?)
    | ("Struct", some attached) => return (← readStruct? (readTy? fuel) attached).ty
    | ("Function", some attached) => return (← readFunction? (readTy? fuel) attached).ty
    | _ =>
      match ← d.label? with
      | "Void" => return .void
      | "Bool" => return .bool
      | "Double" => return .double
      | "Ptr" => return .ptr
      | _ => none

/-- The type that a document stands for; no type is nested deeper than its document. -/
def Ty.ofDocument? (d : Document) : Option Ty := readTy? d.height d

def StructTy.toDocument (struct : StructTy) : Document :=
  .object [("name", .ofOptionalText struct.name), ("fields", .array (Ty.toDocuments struct.fields))]

def StructTy.ofDocument? (d : Document) : Option StructTy := readStruct? Ty.ofDocument? d

def FunctionTy.ofDocument? (d : Document) : Option FunctionTy := readFunction? Ty.ofDocument? d

/-! ## Handles -/

def ValueId.ofDocument? (d : Document) : Option ValueId := d.word?.map ValueId.mk

def BlockId.ofDocument? (d : Document) : Option BlockId := d.word?.map BlockId.mk

def FuncId.ofDocument? (d : Document) : Option FuncId := d.word?.map FuncId.mk

def GlobalId.ofDocument? (d : Document) : Option GlobalId := d.word?.map GlobalId.mk

end Ir

/-! ## Constants and operands -/

/-- A number below `2 ^ 64` as a hexadecimal text: the bits of a double. -/
def Double.ofDocument? (d : Document) : Option Double := do
  return ⟨UInt64.ofNat (← Text.Hexadecimal.number? (← d.text?).toList)⟩

namespace Ir

/-- A constant nested at most `fuel` deep. -/
def readConstant? : Nat → Document → Option Constant
  | 0, _ => none
  | fuel + 1, d => do
    match ← d.choice? with
    | ("bool", some (.bool b)) => return .bool b
    | ("int", some attached) =>
      let [some bits, some (.integer value)] ← attached.namedFields? ["bits", "value"] | none
      return .int (← bits.word?) value
    | ("double", some bits) => return .double (← Double.ofDocument? bits)
    | ("struct", some attached) =>
      let [some ty, some fields] ← attached.namedFields? ["ty", "fields"] | none
      let .struct name types ← Ty.ofDocument? ty | none
      return .struct ⟨name, types⟩ (← (← fields.elements?).mapM (readConstant? fuel))
    | ("global", some id) => return .global (← GlobalId.ofDocument? id)
    | ("undef", some ty) => return .undef (← Ty.ofDocument? ty)
    | _ => none

/-- The constant that a document stands for; none is nested deeper than its document. -/
def Constant.ofDocument? (d : Document) : Option Constant := readConstant? d.height d

def Operand.ofDocument? (d : Document) : Option Operand := do
  match ← d.choice? with
  | ("value", some id) => return .value (← ValueId.ofDocument? id)
  | ("fn", some id) => return .function (← FuncId.ofDocument? id)
  | ("const", some c) => return .constant (← Constant.ofDocument? c)
  | _ => none

end Ir

def BoundValue.ofDocument? (d : Document) : Option BoundValue := do
  match ← d.choice? with
  | ("direct", some operand) => return .direct (← Ir.Operand.ofDocument? operand)
  | ("slot", some attached) =>
    let [some ptr, some ty] ← attached.namedFields? ["ptr", "ty"] | none
    return .slot ⟨← Ir.ValueId.ofDocument? ptr, ← Ir.Ty.ofDocument? ty⟩
  | ("namespace", some scope) => return .namespace_ ⟨← scope.word?⟩
  | _ => none

/-! ## Type mappings -/

/-- An optional type; nothing stands for none. -/
def readOptionalTy? : Option Document → Option (Option Ir.Ty)
  | none | some .null => some none
  | some d => (Ir.Ty.ofDocument? d).map some

/-- Named types with their images. -/
def readNamedTys? : Option Document → Option (List (String × Ir.Ty))
  | none | some .null => some []
  | some (.object fields) => fields.mapM fun (name, d) => (Ir.Ty.ofDocument? d).map (name, ·)
  | some _ => none

def TypeMapping.Overrides.ofDocument? (d : Document) : Option TypeMapping.Overrides := do
  let [number, boolean, string, void, array, stringTy, named] ← d.namedFields?
    ["number", "boolean", "string", "void", "array", "string_type", "named"] | none
  return {
    number := ← readOptionalTy? number
    boolean := ← readOptionalTy? boolean
    string := ← readOptionalTy? string
    void := ← readOptionalTy? void
    array := ← readOptionalTy? array
    stringTy := ← readOptionalTy? stringTy
    named := ← readNamedTys? named }

/-! ## Positions -/

/-- A position as a list: file, start and end. -/
def FileSpan.ofTriple? : Document → Option FileSpan
  | .array [file, start, stop] => do
    return ⟨⟨← file.word?⟩, ⟨← start.word?, ← stop.word?⟩⟩
  | _ => none

def FileId.ofDocument? (d : Document) : Option FileId := d.word?.map FileId.mk

def Span.toDocument (span : Span) : Document :=
  .object [("start", .integer span.start), ("end", .integer span.stop)]

def Span.ofDocument? (d : Document) : Option Span := do
  let [some start, some stop] ← d.recordFields? ["start", "end"] | none
  return ⟨← start.word?, ← stop.word?⟩

def FileSpan.toDocument (place : FileSpan) : Document :=
  .object [("file", .integer place.file.index), ("span", place.span.toDocument)]

def FileSpan.ofDocument? (d : Document) : Option FileSpan := do
  let [some file, some span] ← d.recordFields? ["file", "span"] | none
  return ⟨← FileId.ofDocument? file, ← Span.ofDocument? span⟩

/-! ## Labels -/

def SyntaxKind.ofDocument? (d : Document) : Option SyntaxKind := d.label?.bind SyntaxKind.ofName?

def BinaryOp.ofDocument? (d : Document) : Option BinaryOp := d.label?.bind BinaryOp.ofName?

def UnaryOp.ofDocument? (d : Document) : Option UnaryOp := d.label?.bind UnaryOp.ofName?

def BindingKind.ofDocument? (d : Document) : Option BindingKind :=
  d.label?.bind BindingKind.ofName?

/-! ## Settings -/

namespace Settings

def toDocument (settings : Settings) : Document :=
  .object [(moduleNameKey, .string settings.moduleName), (separatorKey, .string settings.separator)]

/-- Settings in an object with known fields only, or in a list that may be short;
what is absent has its usual value. -/
def ofDocument? : Document → Option Settings
  | .object fields => do
    ofEntries? (← fields.mapM fun (name, d) => d.text?.map (name, ·))
  | .array elements => do
    guard (elements.length ≤ 2)
    let texts ← elements.mapM (·.text?)
    return ⟨texts[0]?.getD usual.moduleName, texts[1]?.getD usual.separator⟩
  | _ => none

end Settings

end SsaLowering
