/-
# SsaLowering.TypeMapping -- from source types to IR types

Lowering asks a `TypeMapping` what a source type becomes and how a string is
represented.  `TypeMapping.standard` knows the primitive types; a front end with
more types lays its `Overrides` over it.  `FunctionDecl.signature?` maps the
header of a declaration, the return type first, and refuses a parameter of type
`void`.
-/
import SsaLowering.Failure
import SsaLowering.Ir.Ty
import SsaLowering.Syntax.Tree

namespace SsaLowering

set_option autoImplicit false

open Ir (Ty FunctionTy)

/-- Why a source type has no place in the IR. -/
inductive TypeError where
  | unsupported (name : String) (span : Option FileSpan)
  | voidParameter (param : String) (span : FileSpan)
deriving DecidableEq, Inhabited

namespace TypeError

def message : TypeError → String
  | unsupported name _ => s!"type `{name}` cannot be lowered"
  | voidParameter param _ => s!"parameter `{param}` cannot have type `void`"

/-- Where the type was written, when known. -/
def span? : TypeError → Option FileSpan
  | unsupported _ span => span
  | voidParameter _ span => some span

end TypeError

/-- A source type as it is written in a program. -/
def TypeRef.describe (symbols : SymbolTable) : TypeRef → String
  | number => "number"
  | boolean => "boolean"
  | string => "string"
  | void => "void"
  | named name _ => symbols.display name
  | array element => element.describe symbols ++ "[]"

/-- What source types become. -/
structure TypeMapping where
  resolve : TypeRef → Except TypeError Ty
  stringTy : Ty

namespace TypeMapping

/-- The mapping of the primitive types; named types and arrays have no image. -/
def standard (symbols : SymbolTable) : TypeMapping where
  stringTy := .string
  resolve
    | .number => .ok .double
    | .boolean => .ok .bool
    | .string => .ok .string
    | .void => .ok .void
    | .named name span => .error (.unsupported (symbols.display name) (some span))
    | .array element => .error (.unsupported ((TypeRef.array element).describe symbols) none)

/-- Images that take the place of those of another mapping. -/
structure Overrides where
  number : Option Ty
  boolean : Option Ty
  string : Option Ty
  void : Option Ty
  array : Option Ty
  stringTy : Option Ty
  /-- Images of named types, by name. -/
  named : List (String × Ty)
deriving Inhabited

/-- The primitive mapping under overrides.  Where only the representation of
strings is overridden, that is also the image of the source type. -/
def overridden (overrides : Overrides) (symbols : SymbolTable) : TypeMapping :=
  let base := standard symbols
  let stringTy := overrides.stringTy.getD base.stringTy
  { stringTy
    resolve := fun ty =>
      let image? := match ty with
        | .number => overrides.number
        | .boolean => overrides.boolean
        | .string => some (overrides.string.getD stringTy)
        | .void => overrides.void
        | .array _ => overrides.array
        | .named name _ => (symbols.resolve? name).bind (List.lookup · overrides.named)
      match image? with
      | some image => .ok image
      | none => base.resolve ty }

end TypeMapping

/-- The type of a parameter, which cannot be `void`. -/
def Param.type? (types : TypeMapping) (symbols : SymbolTable) (param : Param) :
    Except (Failure TypeError) Ty :=
  match types.resolve param.type with
  | .error cause => .error (.refused cause)
  | .ok ty =>
    if ty.isVoid then do
      let name ← symbols.resolve param.name
      throw (.refused (.voidParameter name param.span))
    else .ok ty

/-- The signature of a declaration; without a return type it returns `void`. -/
def FunctionDecl.signature? (types : TypeMapping) (symbols : SymbolTable) (decl : FunctionDecl) :
    Except (Failure TypeError) FunctionTy := do
  let ret ← match decl.returnType with
    | none => pure Ty.void
    | some ty => (types.resolve ty).mapError .refused
  let params ← decl.params.mapM (·.type? types symbols)
  return ⟨params, ret⟩

end SsaLowering
