/-
# SsaLowering.Ir.Ty -- types of the intermediate representation

`Ty` is the closed family of types, with `StructTy` and `FunctionTy` for the two
shapes that are also used on their own.  Equality of types is decided by
structure, so two structs of one name and different fields are different types.
`Ty.text` writes a type; a named struct is written by its name alone.
-/
namespace SsaLowering.Ir

set_option autoImplicit false

/-- Types of values and of functions. -/
inductive Ty where
  | void
  | bool
  | int (bits : Nat)
  | double
  | ptr
  | array (element : Ty) (len : Nat)
  | struct (name : Option String) (fields : List Ty)
  | function (params : List Ty) (ret : Ty)
deriving Inhabited

/-- An aggregate: field types in layout order, with or without a name. -/
structure StructTy where
  name : Option String
  fields : List Ty
deriving Inhabited

/-- The signature of a function. -/
structure FunctionTy where
  params : List Ty
  ret : Ty
deriving Inhabited

/-! ## Equality -/

namespace Ty

mutual

/-- Whether two types have the same structure. -/
def same : Ty → Ty → Bool
  | .void, .void => true
  | .bool, .bool => true
  | .int a, .int b => a == b
  | .double, .double => true
  | .ptr, .ptr => true
  | .array a m, .array b n => same a b && m == n
  | .struct m as, .struct n bs => m == n && sameAll as bs
  | .function ps r, .function qs s => sameAll ps qs && same r s
  | _, _ => false

/-- Whether two lists of types have the same length and the same structure at
each place. -/
def sameAll : List Ty → List Ty → Bool
  | [], [] => true
  | a :: as, b :: bs => same a b && sameAll as bs
  | _, _ => false

end

mutual

theorem same_iff : (a b : Ty) → (same a b = true ↔ a = b)
  | .void, b => by cases b <;> simp [same]
  | .bool, b => by cases b <;> simp [same]
  | .int _, b => by cases b <;> simp [same]
  | .double, b => by cases b <;> simp [same]
  | .ptr, b => by cases b <;> simp [same]
  | .array a _, b => by cases b <;> simp [same, same_iff a]
  | .struct _ as, b => by cases b <;> simp [same, sameAll_iff as]
  | .function ps r, b => by cases b <;> simp [same, sameAll_iff ps, same_iff r]

theorem sameAll_iff : (as bs : List Ty) → (sameAll as bs = true ↔ as = bs)
  | [], bs => by cases bs <;> simp [sameAll]
  | a :: as, bs => by cases bs <;> simp [sameAll, same_iff a, sameAll_iff as]

end

instance : DecidableEq Ty := fun a b => decidable_of_iff _ (same_iff a b)

end Ty

deriving instance DecidableEq for StructTy
deriving instance DecidableEq for FunctionTy

/-! ## Shapes -/

def StructTy.ty (struct : StructTy) : Ty := .struct struct.name struct.fields

def FunctionTy.ty (signature : FunctionTy) : Ty := .function signature.params signature.ret

namespace Ty

/-- The name of the aggregate that stands for a source string. -/
def stringName : String := "string"

/-- A pointer to the bytes of a string and their number. -/
def string : Ty := .struct (some stringName) [.ptr, .int 32]

/-- One byte of constant data. -/
def byte : Ty := .int 8

def isVoid : Ty → Bool
  | .void => true
  | _ => false

/-- Whether a value of the type can live in a stack slot or be stored. -/
def isSized : Ty → Bool
  | .void => false
  | .function .. => false
  | _ => true

/-! ## Text -/

/-- Field types between braces, separated by commas. -/
def braced (fields : List String) : String :=
  if fields.isEmpty then "\x7b\x7d" else "\x7b " ++ ", ".intercalate fields ++ " \x7d"

mutual

/-- The written form of a type. -/
def text : Ty → String
  | .void => "void"
  | .bool => "i1"
  | .int bits => s!"i{bits}"
  | .double => "double"
  | .ptr => "ptr"
  | .array element len => "[" ++ toString len ++ " x " ++ text element ++ "]"
  | .struct (some name) _ => "%" ++ name
  | .struct none fields => braced (texts fields)
  | .function params ret => text ret ++ " (" ++ ", ".intercalate (texts params) ++ ")"

/-- The written forms of several types. -/
def texts : List Ty → List String
  | [] => []
  | ty :: rest => text ty :: texts rest

end

theorem texts_eq_map (tys : List Ty) : texts tys = tys.map text := by
  induction tys with
  | nil => rfl
  | cons ty rest ih => simp [texts, ih]

end Ty

/-- The field types of an aggregate, whatever its name. -/
def StructTy.body (struct : StructTy) : String := Ty.braced (struct.fields.map Ty.text)

def StructTy.text (struct : StructTy) : String := struct.ty.text

def FunctionTy.text (signature : FunctionTy) : String := signature.ty.text

end SsaLowering.Ir
