/-
# SsaLowering.Lower.Context -- what lowering knows and what it changes

An `Environment` is fixed while a unit is lowered: the type mapping, the symbols and
the rule for linkage names.  A `Context` is what lowering builds: the module, the
scopes, the warnings and the journal; it outlives an error.  `Lower` runs over a
context, and `LowerBody` over a context together with the builder of the function
at hand.
-/
import SsaLowering.Ir.Builder
import SsaLowering.Ir.Module
import SsaLowering.Linkage
import SsaLowering.Lower.Journal
import SsaLowering.Text.Quoted

namespace SsaLowering

set_option autoImplicit false

open Ir (Builder BuildError Module)

/-- What is fixed while a unit is lowered. -/
structure Environment where
  types : TypeMapping
  symbols : SymbolTable
  mangler : Mangler

/-- The primitive types and the usual linkage names. -/
def Environment.standard (symbols : SymbolTable) (mangler : Mangler) : Environment :=
  ⟨.standard symbols, symbols, mangler⟩

/-- The name of a symbol for a reader. -/
def Environment.name (env : Environment) (symbol : Symbol) : String := env.symbols.display symbol

/-- What has been lowered so far. -/
structure Context where
  module : Module
  scopes : ScopeTable
  diagnostics : List Diagnostic
  journal : Journal
deriving Inhabited

/-- An empty module and the global scope. -/
def Context.initial (name : String) : Context := ⟨.empty name, .initial, [], []⟩

def Context.log (cx : Context) (event : Event) : Context :=
  { cx with journal := cx.journal ++ [event] }

/-- Record a warning, which is told in the journal too. -/
def Context.warn (cx : Context) (diagnostic : Diagnostic) : Context :=
  { cx with
    diagnostics := cx.diagnostics ++ [diagnostic]
    journal := cx.journal ++ [.warned diagnostic] }

/-- A new scope inside `parent`. -/
def Context.enter (cx : Context) (parent : ScopeId) (name : Option Symbol) : ScopeId × Context :=
  let (scope, scopes) := cx.scopes.enter parent name
  (scope, { cx with scopes, journal := cx.journal ++ [.scopeEntered scope parent] })

/-- A short account of the context. -/
def Context.summary (cx : Context) (mangler : Mangler) : String :=
  "LoweringContext \x7b module: " ++ Text.Quoted.encode cx.module.name ++
    ", mangler: NameMangler \x7b separator: " ++ Text.Quoted.encode mangler.separator ++
    " \x7d, diagnostics: " ++ toString cx.diagnostics.length ++ ", .. \x7d"

/-! ## Lowering at the level of declarations -/

/-- Steps over a context; the context survives a failure. -/
abbrev Lower := EStateM (Failure LowerError) Context

namespace Lower

def refuse {α : Type} (cause : LowerError) : Lower α := throw (.refused cause)

def log (event : Event) : Lower Unit := modify (·.log event)

/-- The result of an operation that may be refused. -/
def lift {ε α : Type} (widen : ε → LowerError) : Except (Failure ε) α → Lower α
  | .ok a => pure a
  | .error failure => throw (failure.map widen)

/-- Work on the module; a refusal leaves it as it is. -/
def onModule {α : Type} (operation : Module → Except BuildError (α × Module)) : Lower α := do
  let cx ← get
  match operation cx.module with
  | .ok (a, module) => do set { cx with module }; return a
  | .error cause => refuse (.build cause)

/-- Go on only if a scope exists. -/
def requireScope (scope : ScopeId) : Lower Unit := do
  if !(← get).scopes.contains scope then throw (.fault (.missingScope scope.index))

/-- Bind a name in a scope; the result is the binding it replaces. -/
def bind (scope : ScopeId) (name : Symbol) (value : BoundValue) : Lower (Option BoundValue) := do
  requireScope scope
  let cx ← get
  let (previous, scopes) := cx.scopes.bind scope name value
  set { cx with scopes }
  return previous

/-- A new scope inside `parent`, which has to exist. -/
def enter (parent : ScopeId) (name : Option Symbol) : Lower ScopeId := do
  requireScope parent
  modifyGet (·.enter parent name)

end Lower

/-! ## Lowering inside a function -/

/-- A context and the body under construction. -/
structure BodyState where
  context : Context
  builder : Builder
deriving Inhabited

/-- Steps inside a function body. -/
abbrev LowerBody := EStateM (Failure LowerError) BodyState

namespace LowerBody

def refuse {α : Type} (cause : LowerError) : LowerBody α := throw (.refused cause)

/-- A step that leaves the body alone. -/
def outside {α : Type} (step : Lower α) : LowerBody α := fun s =>
  match step s.context with
  | .ok a context => .ok a { s with context }
  | .error failure context => .error failure { s with context }

def context : LowerBody Context := return (← get).context

def builder : LowerBody Builder := return (← get).builder

/-- An emission with a result. -/
def emit {α : Type} (operation : Builder → Except BuildError (α × Builder)) : LowerBody α := do
  let s ← get
  match operation s.builder with
  | .ok (a, builder) => do set { s with builder }; return a
  | .error cause => refuse (.build cause)

/-- An emission without a result. -/
def emit_ (operation : Builder → Except BuildError Builder) : LowerBody Unit :=
  emit fun b => return ((), ← operation b)

/-- A question to the builder that may be refused. -/
def ask {α : Type} (question : Builder → Except BuildError α) : LowerBody α :=
  emit fun b => return (← question b, b)

/-- Append a block. -/
def appendBlock (name : String) : LowerBody Ir.BlockId :=
  emit fun b => .ok (b.appendBlock name)

/-- The type of an operand. -/
def operandTy (operand : Ir.Operand) : LowerBody Ir.Ty := ask (·.function.operandTy operand)

/-- The binding of a name that is visible in a scope. -/
def resolve (scope : ScopeId) (name : Symbol) : LowerBody (Option BoundValue) := do
  outside (Lower.requireScope scope)
  return (← context).scopes.resolve scope name

/-- The binding of a name in one scope alone. -/
def lookupIn (scope : ScopeId) (name : Symbol) : LowerBody (Option BoundValue) := do
  outside (Lower.requireScope scope)
  return (← context).scopes.lookupIn scope name

/-- Work in a new scope inside `parent`, whose bindings end with the work, however
it ends. -/
def inScope {α : Type} (parent : ScopeId) (work : ScopeId → LowerBody α) : LowerBody α := do
  let scope ← outside (Lower.enter parent none)
  let leave (s : BodyState) : BodyState :=
    { s with context := { s.context with scopes := s.context.scopes.discard scope } }
  fun s =>
    match work scope s with
    | .ok a s => .ok a (leave s)
    | .error failure s => .error failure (leave s)

end LowerBody

end SsaLowering
