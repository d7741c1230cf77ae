/-
# SsaLowering.Failure -- ways to end without a result

An operation ends early either because its input is refused, with a cause of the
domain, or because it was given a handle that nobody issued.  The second is a
`Fault`: it tells of a broken caller, not of a broken program, and no report is
made from it.
-/
import SsaLowering.Symbol

namespace SsaLowering

set_option autoImplicit false

/-- Use of a handle that was never issued. -/
inductive Fault where
  /-- The text of a symbol was needed that the table does not know. -/
  | unknownSymbol (symbol : Symbol)
  /-- A scope outside the scope table. -/
  | missingScope (index : Nat)
deriving DecidableEq, Inhabited

/-- Why there is no result. -/
inductive Failure (ε : Type) where
  | refused (cause : ε)
  | fault (fault : Fault)
deriving DecidableEq, Inhabited

/-- The same end with the cause in a wider family. -/
def Failure.map {ε δ : Type} (widen : ε → δ) : Failure ε → Failure δ
  | refused cause => refused (widen cause)
  | fault f => fault f

/-- The text of a symbol, which has to be known. -/
def SymbolTable.resolve {ε : Type} (table : SymbolTable) (symbol : Symbol) :
    Except (Failure ε) String :=
  match table.resolve? symbol with
  | some text => .ok text
  | none => .error (.fault (.unknownSymbol symbol))

end SsaLowering
