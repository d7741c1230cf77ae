/-
# SsaLowering.Ir.Error -- what can be wrong with a piece of IR

A `BuildError` is the reason why an emission or a change of the symbol table was
refused.  A `Defect` is a violation found in a finished function or module; an
ill-typed instruction is a defect that carries the `BuildError` the same
instruction would have been refused with.
-/
import SsaLowering.Ir.Operand

namespace SsaLowering.Ir

set_option autoImplicit false

/-- Reasons to refuse an emission or a change of the symbol table. -/
inductive BuildError where
  /-- No block is selected. -/
  | noInsertionPoint
  /-- The selected block has ended already. -/
  | blockTerminated (block : String)
  | unknownBlock (block : BlockId)
  | unknownValue (value : ValueId)
  | unknownFunction (function : FuncId)
  | typeMismatch (context : String) (expected found : Ty)
  /-- The type has no values that could be stored. -/
  | invalidType (context : String) (ty : Ty)
  | argumentCount (callee : FuncId) (expected found : Nat)
  | duplicateSymbol (name : String)
  | alreadyDefined (name : String)
  /-- A body whose name or signature is not the declared one. -/
  | declarationMismatch (declared found : String)
deriving DecidableEq, Inhabited

def BuildError.message : BuildError → String
  | noInsertionPoint => "no insertion point is set"
  | blockTerminated block => s!"block `{block}` already has a terminator"
  | unknownBlock block => s!"unknown block {block.text}"
  | unknownValue value => s!"unknown value {value.text}"
  | unknownFunction function => s!"unknown function {function.text}"
  | typeMismatch context expected found =>
    s!"type mismatch in {context}: expected `{expected.text}`, found `{found.text}`"
  | invalidType context ty => s!"{context} requires a sized, non-void type, found `{ty.text}`"
  | argumentCount callee expected found =>
    s!"call to {callee.text} expects {expected} argument(s), found {found}"
  | duplicateSymbol name => s!"symbol `{name}` is already defined in the module"
  | alreadyDefined name => s!"function `{name}` already has a body"
  | declarationMismatch declared found =>
    s!"body for `{found}` does not match the declaration of `{declared}`"

/-- Violations of the rules for finished functions and modules. -/
inductive Defect where
  | missingTerminator (function block : String)
  | unknownBlock (function : String) (target : BlockId)
  | undefinedValue (function : String) (value : ValueId)
  | redefined (function : String) (value : ValueId)
  | notDominated (function : String) (value : ValueId) (block : String)
  | illTyped (function block : String) (cause : BuildError)
  | duplicateFunction (name : String)
deriving DecidableEq, Inhabited

namespace Defect

def message : Defect → String
  | missingTerminator function block =>
    s!"function `{function}`: block `{block}` has no terminator"
  | unknownBlock function target =>
    s!"function `{function}`: branch to unknown block {target.text}"
  | undefinedValue function value =>
    s!"function `{function}`: use of undefined value {value.text}"
  | redefined function value =>
    s!"function `{function}`: value {value.text} is defined more than once"
  | notDominated function value block =>
    s!"function `{function}`: value {value.text} does not dominate its use in block `{block}`"
  | illTyped function block cause => s!"function `{function}`, block `{block}`: {cause.message}"
  | duplicateFunction name => s!"duplicate function `{name}`"

/-- The refusal behind an ill-typed instruction. -/
def cause? : Defect → Option BuildError
  | illTyped _ _ cause => some cause
  | _ => none

end Defect

end SsaLowering.Ir
