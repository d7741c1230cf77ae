/-
# SsaLowering.Program -- lowering of a whole program

The units of a program are lowered in order into one module and one global scope,
the first error ends the run, and the finished module is verified before it is
handed out.
-/
import SsaLowering.Lower.Declaration

namespace SsaLowering

set_option autoImplicit false

/-- A module and the warnings that came with it. -/
structure LoweredProgram where
  module : Ir.Module
  diagnostics : List Diagnostic
deriving Inhabited

/-- Lower units in order. -/
def lowerUnits (env : Environment) : List SourceUnit → Lower Unit
  | [] => return ()
  | unit :: rest => do
    lowerUnit env unit
    lowerUnits env rest

/-- Lower units in order and verify the result. -/
def lowerAll (env : Environment) (units : List SourceUnit) : Lower LoweredProgram := do
  lowerUnits env units
  let cx ← get
  match cx.module.verify with
  | .error defect => Lower.refuse (.verification defect)
  | .ok () =>
    Lower.log (.programLowered units.length cx.module.name cx.module.functions.length
      cx.diagnostics.length)
    return ⟨cx.module, cx.diagnostics⟩

/-- The outcome of lowering a program into a module of the given name, with the
journal of the run. -/
def lowerProgram (env : Environment) (moduleName : String) (units : List SourceUnit) :
    Except (Failure LowerError) LoweredProgram × Journal :=
  match lowerAll env units (.initial moduleName) with
  | .ok program cx => (.ok program, cx.journal)
  | .error failure cx => (.error failure, cx.journal)

end SsaLowering
