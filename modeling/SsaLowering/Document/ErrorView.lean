/-
# SsaLowering.Document.ErrorView -- errors as documents

The view of an error has its name, its message, the message of the error behind it
and, where the family has them, its position, its code and its advice.
-/
import SsaLowering.Document.View
import SsaLowering.Lower.Error
import SsaLowering.Settings.Basic

namespace SsaLowering

set_option autoImplicit false

namespace Ir

def BuildError.name : BuildError → String
  | .noInsertionPoint => "NoInsertionPoint"
  | .blockTerminated _ => "BlockTerminated"
  | .unknownBlock _ => "UnknownBlock"
  | .unknownValue _ => "UnknownValue"
  | .unknownFunction _ => "UnknownFunction"
  | .typeMismatch .. => "TypeMismatch"
  | .invalidType .. => "InvalidType"
  | .argumentCount .. => "ArgumentCount"
  | .duplicateSymbol _ => "DuplicateSymbol"
  | .alreadyDefined _ => "AlreadyDefined"
  | .declarationMismatch .. => "DeclarationMismatch"

def Defect.name : Defect → String
  | .missingTerminator .. => "MissingTerminator"
  | .unknownBlock .. => "UnknownBlock"
  | .undefinedValue .. => "UndefinedValue"
  | .redefined .. => "Redefined"
  | .notDominated .. => "NotDominated"
  | .illTyped .. => "Instruction"
  | .duplicateFunction _ => "DuplicateFunction"

def BuildError.view (e : BuildError) : Document :=
  .object [("error", .string e.name), ("message", .string e.message), ("source", .null)]

/-- The refusal behind an ill-typed instruction is named; other defects have none. -/
def Defect.view (e : Defect) : Document :=
  .object ([("error", .string e.name), ("message", .string e.message),
    ("source", .ofOption BuildError.message e.cause?)] ++
    (e.cause?.map fun cause => ("inner", Document.string cause.name)).toList)

end Ir

def TypeError.name : TypeError → String
  | .unsupported .. => "Unsupported"
  | .voidParameter .. => "VoidParameter"

def TypeError.view (e : TypeError) : Document :=
  .object [("error", .string e.name), ("message", .string e.message), ("source", .null),
    ("span", .ofOption FileSpan.text e.span?)]

namespace LowerError

def name : LowerError → String
  | .unresolvedName .. => "UnresolvedName"
  | .unsupportedExpression .. => "UnsupportedExpression"
  | .namespaceAsValue .. => "NamespaceAsValue"
  | .assignToImmutable .. => "AssignToImmutable"
  | .invalidAssignmentTarget .. => "InvalidAssignmentTarget"
  | .arityMismatch .. => "ArityMismatch"
  | .voidValue .. => "VoidValue"
  | .typeMismatch .. => "TypeMismatch"
  | .missingInitializer .. => "MissingInitializer"
  | .untypedBinding .. => "UntypedBinding"
  | .type _ => "Type"
  | .build _ => "Ir"
  | .verification _ => "Verification"

/-- The name of the error of another family that this one carries. -/
def innerName? : LowerError → Option String
  | .type cause => some cause.name
  | .build cause => some cause.name
  | .verification cause => some cause.name
  | _ => none

def view (e : LowerError) : Document :=
  .object [("error", .string e.name), ("message", .string e.message),
    ("source", .ofOption Ir.Defect.message e.source?), ("inner", .ofOption id e.innerName?),
    ("span", .ofOption FileSpan.text e.span?), ("code", .string e.code),
    ("help", .ofOption id e.help?)]

end LowerError

def SettingsError.view (e : SettingsError) : Document :=
  .object [("error", .string "Config"), ("message", .string e.message)]

end SsaLowering
