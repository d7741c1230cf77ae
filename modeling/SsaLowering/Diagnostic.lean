/-
# SsaLowering.Diagnostic -- warnings that do not stop lowering

A construct outside the covered language is skipped with a warning, and so is a
function reported that can reach its end without returning its value.  The code,
the kind and the message of a warning follow from its cause.
-/
import SsaLowering.Source
import SsaLowering.Syntax.Kind

namespace SsaLowering

set_option autoImplicit false

/-- Codes of warnings. -/
inductive DiagnosticCode where
  | unhandledSyntax
  | missingReturn
deriving DecidableEq, Inhabited

def DiagnosticCode.text : DiagnosticCode → String
  | unhandledSyntax => "lower::unhandled_syntax"
  | missingReturn => "lower::missing_return"

/-- What a warning is about. -/
inductive Concern where
  | unhandledSyntax (kind : SyntaxKind)
  /-- The linkage name of a function that can fall off its end. -/
  | missingReturn (function : String)
deriving DecidableEq, Inhabited

/-- One warning. -/
structure Diagnostic where
  concern : Concern
  span : FileSpan
deriving DecidableEq, Inhabited

namespace Diagnostic

def code (d : Diagnostic) : DiagnosticCode :=
  match d.concern with
  | .unhandledSyntax _ => .unhandledSyntax
  | .missingReturn _ => .missingReturn

/-- The kind of the node at which the warning points. -/
def kind (d : Diagnostic) : SyntaxKind :=
  match d.concern with
  | .unhandledSyntax kind => kind
  | .missingReturn _ => .functionDeclaration

def message (d : Diagnostic) : String :=
  match d.concern with
  | .unhandledSyntax kind => s!"{kind.name} is not supported and was skipped"
  | .missingReturn function =>
    s!"function `{function}` can reach its end without returning a value"

/-- Every diagnostic is a warning. -/
def severity (_ : Diagnostic) : String := "warning"

/-- The line that is written to the journal. -/
def line (d : Diagnostic) : String := s!"{d.span.text}: {d.code.text}: {d.message}"

/-- The diagnostics with a given code, in order. -/
def withCode (diagnostics : List Diagnostic) (code : DiagnosticCode) : List Diagnostic :=
  diagnostics.filter (·.code = code)

end Diagnostic

end SsaLowering
