/-
# SsaLowering.Linkage -- linkage names of declarations

The linkage name of a declaration is its simple name after the names of the
namespaces around it, with a separator between any two: `f` in namespace `N` of
namespace `M` is `M__N__f` under the usual separator.  A declaration in no
namespace keeps its simple name.
-/
import SsaLowering.Failure
import SsaLowering.Scope

namespace SsaLowering

set_option autoImplicit false

/-- The rule that makes linkage names. -/
structure Mangler where
  separator : String
deriving DecidableEq, Inhabited

namespace Mangler

def usual : Mangler := ⟨"__"⟩

/-- The parts of a linkage name with the separator between them. -/
def join (mangler : Mangler) (parts : List String) : String :=
  mangler.separator.intercalate parts

/-- The linkage name of `name` declared in `scope`.  The names of the namespaces
have to be known. -/
def mangle {ε : Type} (mangler : Mangler) (symbols : SymbolTable) (scopes : ScopeTable)
    (scope : ScopeId) (name : String) : Except (Failure ε) String := do
  let namespaces ← (scopes.namespacePath scope).mapM symbols.resolve
  return mangler.join (namespaces ++ [name])

end Mangler

end SsaLowering
