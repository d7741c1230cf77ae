/-
# SsaLowering.Lower.Declaration -- lowering of functions and namespaces

A function is declared under its linkage name and bound in its scope before its
body is lowered, so that it can call itself.  The body is built, closed, verified
against the module and installed.  When anything fails on the way, the
declaration, its binding and the constant data of the body are taken back.  A
namespace is a named scope around its members, bound when all of them are
lowered.
-/
import SsaLowering.Ir.Verify
import SsaLowering.Lower.Statement

namespace SsaLowering

set_option autoImplicit false

open Ir (Builder FuncId Function FunctionTy Operand ValueId)

/-! ## Function bodies -/

/-- Give the parameters their names and bind them. -/
def bindParams (env : Environment) (scope : ScopeId) : List Param → List ValueId → LowerBody Unit
  | param :: params, value :: values => do
    discard <| LowerBody.emit (·.nameValue value (env.name param.name))
    discard <| LowerBody.outside (Lower.bind scope param.name (.direct (.value value)))
    bindParams env scope params values
  | _, _ => return ()

/-- End the block that the body fell off of.  A function without a value returns;
in any other that point is not reached, and there is a warning if it may be. -/
def sealBody (span : FileSpan) : LowerBody Unit := do
  let b ← LowerBody.builder
  match b.current with
  | none => return ()
  | some block =>
    if b.hasTerminator block then return ()
    else if b.returnTy.isVoid then LowerBody.emit_ (·.ret none)
    else
      if b.function.reachable.contains block then
        LowerBody.outside (modify (·.warn ⟨.missingReturn b.function.name, span⟩))
      LowerBody.emit_ (·.unreachable)

/-- The whole body of a function: parameters, entry block, statements, closing. -/
def buildBody (env : Environment) (scope : ScopeId) (decl : FunctionDecl) (stmts : List Stmt) :
    LowerBody Unit := do
  LowerBody.inScope scope fun inner => do
    bindParams env inner decl.params (← LowerBody.builder).function.params
    let entry ← LowerBody.appendBlock "entry"
    LowerBody.emit_ (·.positionAtEnd entry)
    lowerStmts env inner stmts
  sealBody decl.span

/-- Build a function, starting from its declaration. -/
def Lower.building (declared : Function) (work : LowerBody Unit) : Lower Function := fun cx =>
  match work ⟨cx, .ofFunction declared⟩ with
  | .ok () s => .ok s.builder.function s.context
  | .error failure s => .error failure s.context

/-- Build, verify and install the body of a declared function. -/
def lowerBody (env : Environment) (scope : ScopeId) (id : FuncId) (decl : FunctionDecl)
    (stmts : List Stmt) : Lower Unit := do
  let some declared := (← get).module.function? id
    | Lower.refuse (.build (.unknownFunction id))
  let function ← Lower.building (.declare declared.name declared.ty)
    (buildBody env scope decl stmts)
  match function.verify (← get).module with
  | .error defect => Lower.refuse (.verification defect)
  | .ok () => Lower.onModule fun m => return ((), ← m.define id function)

/-! ## Declarations -/

/-- Take back a declaration whose body failed: the function, the constant data
after the first `globals`, and the binding, in whose place the previous one returns. -/
def retractDeclaration (scope : ScopeId) (name : Symbol) (id : FuncId) (globals : Nat)
    (previous : Option BoundValue) : Lower Unit := do
  discard <| Lower.onModule (·.retract id)
  modify fun cx =>
    { cx with
      module := cx.module.truncateGlobals globals
      scopes := cx.scopes.restore scope name previous }

/-- Do `work`; when it is refused, do `undo` and be refused for the same cause. -/
def Lower.orUndo (work : Lower Unit) (undo : LowerError → Lower Unit) : Lower Unit := fun cx =>
  match work cx with
  | .error (.refused cause) cx =>
    match undo cause cx with
    | .ok () cx => .error (.refused cause) cx
    | .error failure cx => .error failure cx
  | other => other

/-- Declare a function in a scope and lower its body, if it has one. -/
def lowerFunction (env : Environment) (scope : ScopeId) (decl : FunctionDecl) : Lower Unit := do
  let signature ← Lower.lift .type (decl.signature? env.types env.symbols)
  Lower.requireScope scope
  let linkage ← Lower.lift id
    (env.mangler.mangle env.symbols (← get).scopes scope (env.name decl.name))
  Lower.log (.functionDeclared linkage signature)
  let id ← Lower.onModule (·.declare linkage signature)
  let previous ← Lower.bind scope decl.name (.direct (.function id))
  match decl.body with
  | none => return ()
  | some body =>
    let globals := (← get).module.globals.length
    (lowerBody env scope id decl body.stmts).orUndo fun cause => do
      Lower.log (.functionDropped linkage cause)
      retractDeclaration scope decl.name id globals previous
    Lower.log (.functionLowered linkage)

mutual

/-- Lower one declaration into a scope. -/
def lowerItem (env : Environment) (scope : ScopeId) : Item → Lower Unit
  | .function decl => lowerFunction env scope decl
  | .namespace_ name items _ => do
    Lower.log (.namespaceEntered (env.name name))
    let inner ← Lower.enter scope (some name)
    lowerItems env inner items
    discard <| Lower.bind scope name (.namespace_ inner)
  | .class_ _ span => modify (·.warn ⟨.unhandledSyntax .classDeclaration, span⟩)
  | .interface _ span => modify (·.warn ⟨.unhandledSyntax .interfaceDeclaration, span⟩)
  | .typeAlias _ _ span => modify (·.warn ⟨.unhandledSyntax .typeAliasDeclaration, span⟩)

/-- Lower declarations in order. -/
def lowerItems (env : Environment) (scope : ScopeId) : List Item → Lower Unit
  | [] => return ()
  | item :: rest => do
    lowerItem env scope item
    lowerItems env scope rest

end

/-- Lower every item of a unit into the global scope. -/
def lowerUnit (env : Environment) (unit : SourceUnit) : Lower Unit := do
  Lower.log (.unitStarted unit.name unit.items.length)
  lowerItems env ScopeTable.global unit.items

end SsaLowering
