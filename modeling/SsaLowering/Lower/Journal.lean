/-
# SsaLowering.Lower.Journal -- what lowering tells while it works

Every noteworthy step is an `Event`, in the order in which it happens.  An event
has a level and a text; a reader asks for all events of a level or a graver one.
-/
import SsaLowering.Diagnostic
import SsaLowering.Lower.Error
import SsaLowering.Scope

namespace SsaLowering

set_option autoImplicit false

/-- How grave an event is. -/
inductive Level where
  | warn | debug | trace
deriving DecidableEq, Inhabited

namespace Level

/-- Graver levels have smaller ranks. -/
def rank : Level → Nat
  | warn => 0
  | debug => 1
  | trace => 2

def text : Level → String
  | warn => "WARN"
  | debug => "DEBUG"
  | trace => "TRACE"

/-- Whether a reader of this level sees an event of the other. -/
def admits (reader event : Level) : Bool := event.rank ≤ reader.rank

end Level

/-- A noteworthy step. -/
inductive Event where
  | unitStarted (name : String) (items : Nat)
  | functionDeclared (linkage : String) (signature : Ir.FunctionTy)
  | functionDropped (linkage : String) (cause : LowerError)
  | functionLowered (linkage : String)
  | namespaceEntered (name : String)
  | scopeEntered (scope parent : ScopeId)
  | statementsSkipped (span : FileSpan) (count : Nat)
  | warned (diagnostic : Diagnostic)
  | programLowered (units : Nat) (module : String) (functions warnings : Nat)
  | settingsAbsent (file directory : String)
deriving Inhabited

namespace Event

def level : Event → Level
  | warned _ => .warn
  | scopeEntered .. => .trace
  | _ => .debug

/-- A scope as it is shown in the journal. -/
def scopeText (scope : ScopeId) : String := s!"Idx::<ScopeData>({scope.index})"

def text : Event → String
  | unitStarted name items => s!"lowering `{name}` ({items} item(s))"
  | functionDeclared linkage signature => s!"declaring `{linkage}`: {signature.text}"
  | functionDropped linkage cause => s!"dropping `{linkage}`: {cause.message}"
  | functionLowered linkage => s!"lowered body of `{linkage}`"
  | namespaceEntered name => s!"entering namespace `{name}`"
  | scopeEntered scope parent =>
    s!"entered scope {scopeText scope} under {scopeText parent}"
  | statementsSkipped span count => s!"{span.text}: skipping {count} unreachable statement(s)"
  | warned diagnostic => diagnostic.line
  | programLowered units module functions warnings =>
    s!"lowered {units} unit(s) into `{module}`: {functions} function(s), {warnings} warning(s)"
  | settingsAbsent file directory => s!"no {file} in {directory}, using defaults"

/-- The line of an event: its level and its text. -/
def line (event : Event) : String := event.level.text ++ " " ++ event.text

end Event

/-- Events in the order in which they happened. -/
abbrev Journal := List Event

/-- The lines that a reader of the given level sees. -/
def Journal.lines (journal : Journal) (reader : Level) : List String :=
  (journal.filter fun event => reader.admits event.level).map Event.line

end SsaLowering
