/-
# SsaLowering.Document.ErrorCodec -- errors read from documents

An error stands in a document as an object: its name under `is`, and beside it the
fields of that error.  An error of another family that it carries stands under
`inner`.
-/
import SsaLowering.Document.Codec
import SsaLowering.Lower.Error

namespace SsaLowering

set_option autoImplicit false

/-- The fields of an error, in the order of `names`; all have to be there. -/
def Document.fieldsOf? (d : Document) (names : List String) : Option (List Document) := do
  (← d.namedFields? names).mapM fun found => found

/-- The name of an error. -/
def Document.errorName? (d : Document) : Option String := do
  let [name] ← d.fieldsOf? ["is"] | none
  name.text?

namespace Ir

def BuildError.ofDocument? (d : Document) : Option BuildError := do
  match ← d.errorName? with
  | "NoInsertionPoint" => return .noInsertionPoint
  | "BlockTerminated" =>
    let [block] ← d.fieldsOf? ["block"] | none
    return .blockTerminated (← block.text?)
  | "UnknownBlock" =>
    let [block] ← d.fieldsOf? ["id"] | none
    return .unknownBlock (← BlockId.ofDocument? block)
  | "UnknownValue" =>
    let [value] ← d.fieldsOf? ["id"] | none
    return .unknownValue (← ValueId.ofDocument? value)
  | "UnknownFunction" =>
    let [function] ← d.fieldsOf? ["id"] | none
    return .unknownFunction (← FuncId.ofDocument? function)
  | "TypeMismatch" =>
    let [context, expected, found] ← d.fieldsOf? ["context", "expected", "found"] | none
    return .typeMismatch (← context.text?) (← Ty.ofDocument? expected) (← Ty.ofDocument? found)
  | "InvalidType" =>
    let [context, ty] ← d.fieldsOf? ["context", "ty"] | none
    return .invalidType (← context.text?) (← Ty.ofDocument? ty)
  | "ArgumentCount" =>
    let [callee, expected, found] ← d.fieldsOf? ["callee", "expected", "found"] | none
    return .argumentCount (← FuncId.ofDocument? callee) (← expected.longWord?)
      (← found.longWord?)
  | "DuplicateSymbol" =>
    let [name] ← d.fieldsOf? ["name"] | none
    return .duplicateSymbol (← name.text?)
  | "AlreadyDefined" =>
    let [name] ← d.fieldsOf? ["name"] | none
    return .alreadyDefined (← name.text?)
  | "DeclarationMismatch" =>
    let [declared, found] ← d.fieldsOf? ["declared", "found"] | none
    return .declarationMismatch (← declared.text?) (← found.text?)
  | _ => none

def Defect.ofDocument? (d : Document) : Option Defect := do
  let [function] ← d.fieldsOf? ["function"] | none
  let function ← function.text?
  match ← d.errorName? with
  | "MissingTerminator" =>
    let [block] ← d.fieldsOf? ["block"] | none
    return .missingTerminator function (← block.text?)
  | "UnknownBlock" =>
    let [target] ← d.fieldsOf? ["target"] | none
    return .unknownBlock function (← BlockId.ofDocument? target)
  | "UndefinedValue" =>
    let [value] ← d.fieldsOf? ["value"] | none
    return .undefinedValue function (← ValueId.ofDocument? value)
  | "Redefined" =>
    let [value] ← d.fieldsOf? ["value"] | none
    return .redefined function (← ValueId.ofDocument? value)
  | "NotDominated" =>
    let [value, block] ← d.fieldsOf? ["value", "block"] | none
    return .notDominated function (← ValueId.ofDocument? value) (← block.text?)
  | "Instruction" =>
    let [block, inner] ← d.fieldsOf? ["block", "inner"] | none
    return .illTyped function (← block.text?) (← BuildError.ofDocument? inner)
  | "DuplicateFunction" => return .duplicateFunction function
  | _ => none

end Ir

/-- A position that may be absent. -/
def Document.optionalSpan? (d : Document) : Option (Option FileSpan) := do
  let [span] ← d.namedFields? ["span"] | none
  match span with
  | none | some .null => return none
  | some place => return some (← FileSpan.ofTriple? place)

def TypeError.ofDocument? (d : Document) : Option TypeError := do
  let span? ← d.optionalSpan?
  match ← d.errorName? with
  | "Unsupported" =>
    let [name] ← d.fieldsOf? ["name"] | none
    return .unsupported (← name.text?) span?
  | "VoidParameter" =>
    let [param] ← d.fieldsOf? ["param"] | none
    return .voidParameter (← param.text?) (← span?)
  | _ => none

def LowerError.ofDocument? (d : Document) : Option LowerError := do
  let span? ← d.optionalSpan?
  match ← d.errorName? with
  | "UnresolvedName" =>
    let [name] ← d.fieldsOf? ["name"] | none
    return .unresolvedName (← name.text?) (← span?)
  | "UnsupportedExpression" =>
    let [kind, detail] ← d.fieldsOf? ["kind", "detail"] | none
    return .unsupportedExpression (← SyntaxKind.ofDocument? kind) (← detail.text?) (← span?)
  | "NamespaceAsValue" =>
    let [name] ← d.fieldsOf? ["name"] | none
    return .namespaceAsValue (← name.text?) (← span?)
  | "AssignToImmutable" =>
    let [name] ← d.fieldsOf? ["name"] | none
    return .assignToImmutable (← name.text?) (← span?)
  | "InvalidAssignmentTarget" =>
    let [kind] ← d.fieldsOf? ["kind"] | none
    return .invalidAssignmentTarget (← SyntaxKind.ofDocument? kind) (← span?)
  | "ArityMismatch" =>
    let [callee, expected, found] ← d.fieldsOf? ["callee", "expected", "found"] | none
    return .arityMismatch (← callee.text?) (← expected.longWord?) (← found.longWord?)
      (← span?)
  | "VoidValue" =>
    let [callee] ← d.fieldsOf? ["callee"] | none
    return .voidValue (← callee.text?) (← span?)
  | "TypeMismatch" =>
    let [context, expected, found] ← d.fieldsOf? ["context", "expected", "found"] | none
    return .typeMismatch (← context.text?) (← Ir.Ty.ofDocument? expected)
      (← Ir.Ty.ofDocument? found) (← span?)
  | "MissingInitializer" =>
    let [name] ← d.fieldsOf? ["name"] | none
    return .missingInitializer (← name.text?) (← span?)
  | "UntypedBinding" =>
    let [name] ← d.fieldsOf? ["name"] | none
    return .untypedBinding (← name.text?) (← span?)
  | "Type" =>
    let [inner] ← d.fieldsOf? ["inner"] | none
    return .type (← TypeError.ofDocument? inner)
  | "Ir" =>
    let [inner] ← d.fieldsOf? ["inner"] | none
    return .build (← Ir.BuildError.ofDocument? inner)
  | "Verification" =>
    let [inner] ← d.fieldsOf? ["inner"] | none
    return .verification (← Ir.Defect.ofDocument? inner)
  | _ => none

end SsaLowering
