/-
# SsaLowering.Lower.Error -- fatal errors of lowering

The first `LowerError` ends lowering.  Errors of the type mapping, of the builder
and of the verifier appear as they are; a refused type or emission speaks with
its own message, a defect stands behind the message as its source.
-/
import SsaLowering.Ir.Error
import SsaLowering.TypeMapping

namespace SsaLowering

set_option autoImplicit false

open Ir (Ty BuildError Defect)

/-- Why a program cannot be lowered. -/
inductive LowerError where
  | unresolvedName (name : String) (span : FileSpan)
  | unsupportedExpression (kind : SyntaxKind) (detail : String) (span : FileSpan)
  | namespaceAsValue (name : String) (span : FileSpan)
  | assignToImmutable (name : String) (span : FileSpan)
  | invalidAssignmentTarget (kind : SyntaxKind) (span : FileSpan)
  | arityMismatch (callee : String) (expected found : Nat) (span : FileSpan)
  | voidValue (callee : String) (span : FileSpan)
  | typeMismatch (context : String) (expected found : Ty) (span : FileSpan)
  | missingInitializer (name : String) (span : FileSpan)
  | untypedBinding (name : String) (span : FileSpan)
  | type (cause : TypeError)
  | build (cause : BuildError)
  | verification (cause : Defect)
deriving DecidableEq, Inhabited

namespace LowerError

def message : LowerError → String
  | unresolvedName name _ => s!"cannot find `{name}` in this scope"
  | unsupportedExpression kind detail _ => s!"unsupported {kind.name}: {detail}"
  | namespaceAsValue name _ => s!"namespace `{name}` cannot be used as a value"
  | assignToImmutable name _ => s!"cannot assign to immutable binding `{name}`"
  | invalidAssignmentTarget kind _ => s!"invalid assignment target: {kind.name}"
  | arityMismatch callee expected found _ =>
    s!"`{callee}` expects {expected} argument(s), found {found}"
  | voidValue callee _ => s!"`{callee}` returns void, its result cannot be used as a value"
  | typeMismatch context expected found _ =>
    s!"type mismatch in {context}: expected `{expected.text}`, found `{found.text}`"
  | missingInitializer name _ => s!"const binding `{name}` has no initializer"
  | untypedBinding name _ => s!"cannot infer a type for `{name}`"
  | type cause => cause.message
  | build cause => cause.message
  | verification cause => s!"verification failed: {cause.message}"

def code : LowerError → String
  | unresolvedName .. => "lower::unresolved_name"
  | unsupportedExpression .. => "lower::unsupported_expression"
  | namespaceAsValue .. => "lower::namespace_as_value"
  | assignToImmutable .. => "lower::assign_to_immutable"
  | invalidAssignmentTarget .. => "lower::invalid_assignment_target"
  | arityMismatch .. => "lower::arity_mismatch"
  | voidValue .. => "lower::void_value"
  | typeMismatch .. => "lower::type_mismatch"
  | missingInitializer .. => "lower::missing_initializer"
  | untypedBinding .. => "lower::untyped_binding"
  | type _ => "lower::type_error"
  | build _ => "lower::ir_error"
  | verification _ => "lower::verification_failure"

/-- Advice to the author of the program. -/
def help? : LowerError → Option String
  | namespaceAsValue name _ => some s!"access one of its members with `{name}.member`"
  | assignToImmutable .. => some "declare it with `let` to make it mutable"
  | untypedBinding .. => some "add a type annotation or an initializer"
  | _ => none

/-- Where the error is, when it has a place. -/
def span? : LowerError → Option FileSpan
  | unresolvedName _ span | unsupportedExpression _ _ span | namespaceAsValue _ span
  | assignToImmutable _ span | invalidAssignmentTarget _ span | arityMismatch _ _ _ span
  | voidValue _ span | typeMismatch _ _ _ span | missingInitializer _ span
  | untypedBinding _ span => some span
  | type cause => cause.span?
  | build _ | verification _ => none

/-- The defect behind a failed verification. -/
def source? : LowerError → Option Defect
  | verification cause => some cause
  | _ => none

end LowerError

end SsaLowering
