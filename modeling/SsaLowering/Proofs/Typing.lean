/-
# SsaLowering.Proofs.Typing -- which programs are well-typed

A judgement on the source tree alone.  `Names` says what each name stands for: a
value of a type, a variable of a type, a function with a signature, or a
namespace with members.  `Expr.typing` gives what an expression stands for,
`Stmt.typing` the names after a statement, and neither knows of blocks,
instructions or operands.  A statement behind one that always returns
(`Stmt.closes`) is not judged.  `Stmt.Introduces` finds the variables that the
judgement comes to, with their types.
-/
import SsaLowering.Lower.Expression

namespace SsaLowering

set_option autoImplicit false

open Ir (Ty FunctionTy)

/-! ## What names stand for -/

/-- What a name that can be read stands for. -/
inductive ValueKind where
  /-- A value that cannot be assigned to. -/
  | immutable (ty : Ty)
  | mutable (ty : Ty)
  | function (signature : FunctionTy)
deriving DecidableEq

/-- What a name stands for; a namespace gives its members that can be read. -/
inductive NameKind where
  | value (kind : ValueKind)
  | namespace_ (members : Symbol → Option ValueKind)

/-- The innermost meaning of every visible name. -/
abbrev Names := Symbol → Option NameKind

def Names.bind (names : Names) (name : Symbol) (kind : ValueKind) : Names := fun other =>
  if other = name then some (.value kind) else names other

namespace ValueKind

/-- The type of the value that a read gives; a function is read as its address. -/
def ty : ValueKind → Ty
  | immutable ty => ty
  | mutable ty => ty
  | function _ => .ptr

/-- What the value of a read stands for. -/
def read : ValueKind → ValueKind
  | mutable ty => immutable ty
  | other => other

theorem ty_read (kind : ValueKind) : kind.read.ty = kind.ty := by
  cases kind <;> rfl

/-- The signature at which a callee is called; `accepts` judges the arguments. -/
def call (callee : ValueKind) (accepts : List Ty → Bool) : Option FunctionTy :=
  match callee with
  | function signature => if accepts signature.params then some signature else none
  | _ => none

/-- The value of an assignment, which is the one stored. -/
def assign (target stored : ValueKind) : Option ValueKind :=
  match target with
  | mutable ty => if stored.ty = ty then some stored.read else none
  | _ => none

def add (left right : ValueKind) : Option ValueKind :=
  if left.ty = .double ∧ right.ty = .double then some (immutable .double) else none

end ValueKind

/-! ## Expressions -/

/-- A string literal, which the string type and its size have to allow. -/
def stringTyping (types : TypeMapping) (value : String) : Option ValueKind :=
  match types.stringTy with
  | .struct .. =>
    if value.toUTF8.toList.length ≤ maxStringBytes then some (.immutable types.stringTy) else none
  | _ => none

/-- A bare name as a value. -/
def Names.value? (names : Names) (name : Symbol) : Option ValueKind :=
  match names name with
  | some (.value kind) => some kind
  | _ => none

/-- A member of the namespace that a bare name stands for. -/
def Names.member? (names : Names) (object : Expr) (property : Symbol) : Option ValueKind :=
  match object with
  | .identifier name _ =>
    match names name with
    | some (.namespace_ members) => members property
    | _ => none
  | _ => none

mutual

/-- What an expression stands for. -/
def Expr.typing (types : TypeMapping) (names : Names) : Expr → Option ValueKind
  | .identifier name _ => names.value? name
  | .member object property _ => names.member? object property
  | .call callee args _ => do
    let target ← callee.typing types names
    let signature ← target.call (Expr.typings types names args)
    if signature.ret.isVoid then none else some (.immutable signature.ret)
  | .binary .assign lhs rhs _ => do
    let target ← lhs.typing types names
    let stored ← rhs.typing types names
    target.assign stored
  | .binary .add lhs rhs _ => do
    let left ← lhs.typing types names
    let right ← rhs.typing types names
    left.add right
  | .bool .. => some (.immutable .bool)
  | .number .. => some (.immutable .double)
  | .string value _ => stringTyping types value
  | _ => none

/-- Whether arguments have exactly the types of the parameters. -/
def Expr.typings (types : TypeMapping) (names : Names) : List Expr → List Ty → Bool
  | [], [] => true
  | arg :: args, param :: params =>
    (arg.typing types names).map (·.ty) = some param && Expr.typings types names args params
  | _, _ => false

end

/-! ## Statements -/

/-- The declared type of a variable, if it has one; a declared type needs an image. -/
def Declarator.declared? (types : TypeMapping) (decl : Declarator) : Option (Option Ty) :=
  match decl.type with
  | none => some none
  | some ty => (types.resolve ty).toOption.map some

/-- What the initial value stands for, which has the declared type if there is one. -/
def initTyping (types : TypeMapping) (names : Names) (declared : Option Ty) (init : Expr) :
    Option ValueKind := do
  let kind ← init.typing types names
  if declared.all (· = kind.ty) then some kind.read else none

/-- What the initial value stands for, if there is one. -/
def Declarator.initial? (types : TypeMapping) (names : Names) (declared : Option Ty)
    (decl : Declarator) : Option (Option ValueKind) :=
  match decl.init with
  | none => some none
  | some init => (initTyping types names declared init).map some

/-- The type of a variable: the declared type, or else that of its initial value. -/
def Declarator.variableTy? (types : TypeMapping) (names : Names) (decl : Declarator) :
    Option Ty := do
  let declared ← decl.declared? types
  let init ← decl.initial? types names declared
  declared <|> init.map (·.ty)

/-- A variable of the declared type, or else of the type of its initial value. -/
def variableTyping (declared : Option Ty) (init : Option ValueKind) : Option ValueKind := do
  let ty ← declared <|> init.map (·.ty)
  if ty.isSized then some (.mutable ty) else none

/-- What is bound: a variable, or a constant, which needs an initial value. -/
def BindingKind.typing (kind : BindingKind) (declared : Option Ty) (init : Option ValueKind) :
    Option ValueKind :=
  if kind.isMutable then variableTyping declared init else init

/-- The names after a declarator. -/
def Declarator.typing (types : TypeMapping) (kind : BindingKind) (names : Names)
    (decl : Declarator) : Option Names := do
  let declared ← decl.declared? types
  let init ← decl.initial? types names declared
  let bound ← kind.typing declared init
  some (names.bind decl.name bound)

/-- A returned value has the return type, which is `void` for none. -/
def returnTyping (types : TypeMapping) (ret : Ty) (names : Names) (value : Option Expr) :
    Option Names :=
  match value with
  | none => if ret.isVoid then some names else none
  | some value => do
    let kind ← value.typing types names
    if kind.ty = ret then some names else none

def conditionTyping (types : TypeMapping) (names : Names) (condition : Expr) : Option Unit := do
  let kind ← condition.typing types names
  if kind.ty = .bool then some () else none

mutual

/-- Whether a statement always returns, because of a return outside conditionals. -/
def Stmt.closes : Stmt → Bool
  | .ret .. => true
  | .block stmts _ => Stmt.anyCloses stmts
  | _ => false

def Stmt.anyCloses : List Stmt → Bool
  | [] => false
  | stmt :: rest => stmt.closes || Stmt.anyCloses rest

end

mutual

/-- The names after a statement of a function that returns `ret`.  What a block binds
ends with it; a branch that is no block binds in the scope around. -/
def Stmt.typing (types : TypeMapping) (ret : Ty) (names : Names) : Stmt → Option Names
  | .block stmts _ => do
    let _ ← Stmt.typings types ret names stmts
    some names
  | .expression (.call callee args _) _ => do
    let target ← callee.typing types names
    let _ ← target.call (Expr.typings types names args)
    some names
  | .expression expr _ => do
    let _ ← expr.typing types names
    some names
  | .ifElse condition thenBranch elseBranch _ => do
    let _ ← conditionTyping types names condition
    let names ← thenBranch.typing types ret names
    Stmt.typingOptional types ret names elseBranch
  | .ret value _ => returnTyping types ret names value
  | .vars kind declarators _ => declarators.foldlM (Declarator.typing types kind) names
  | .whileLoop .. | .breakLoop .. | .continueLoop .. | .empty .. => some names

def Stmt.typingOptional (types : TypeMapping) (ret : Ty) (names : Names) :
    Option Stmt → Option Names
  | none => some names
  | some stmt => stmt.typing types ret names

/-- The names after statements, up to the first that always returns. -/
def Stmt.typings (types : TypeMapping) (ret : Ty) (names : Names) : List Stmt → Option Names
  | [] => some names
  | stmt :: rest => do
    let names ← stmt.typing types ret names
    if stmt.closes then some names else Stmt.typings types ret names rest

end

/-! ## Variables -/

mutual

/-- A statement that is judged under `names` comes to a `let` or `var` declarator whose variable
has a type: what stands before it is typed. -/
inductive Stmt.Introduces (types : TypeMapping) (ret : Ty) :
    Names → Stmt → Declarator → Ty → Prop
  | vars {names inner : Names} {kind : BindingKind} {before after : List Declarator}
      {decl : Declarator} {span : FileSpan} {ty : Ty}
      (typed : before.foldlM (Declarator.typing types kind) names = some inner)
      (mutability : kind.isMutable) (type : decl.variableTy? types inner = some ty) :
      Stmt.Introduces types ret names (.vars kind (before ++ decl :: after) span) decl ty
  | block {names : Names} {stmts : List Stmt} {decl : Declarator} {span : FileSpan} {ty : Ty}
      (within : Stmt.IntroducesAny types ret names stmts decl ty) :
      Stmt.Introduces types ret names (.block stmts span) decl ty
  | thenBranch {names : Names} {condition : Expr} {thenBranch : Stmt} {elseBranch : Option Stmt}
      {decl : Declarator} {span : FileSpan} {ty : Ty}
      (tested : conditionTyping types names condition = some ())
      (within : Stmt.Introduces types ret names thenBranch decl ty) :
      Stmt.Introduces types ret names (.ifElse condition thenBranch elseBranch span) decl ty
  | elseBranch {names inner : Names} {condition : Expr} {thenBranch elseBranch : Stmt}
      {decl : Declarator} {span : FileSpan} {ty : Ty}
      (tested : conditionTyping types names condition = some ())
      (typed : thenBranch.typing types ret names = some inner)
      (within : Stmt.Introduces types ret inner elseBranch decl ty) :
      Stmt.Introduces types ret names (.ifElse condition thenBranch (some elseBranch) span) decl ty

/-- The same of statements in order, none of which closes before the declarator. -/
inductive Stmt.IntroducesAny (types : TypeMapping) (ret : Ty) :
    Names → List Stmt → Declarator → Ty → Prop
  | here {names : Names} {stmt : Stmt} {rest : List Stmt} {decl : Declarator} {ty : Ty}
      (within : Stmt.Introduces types ret names stmt decl ty) :
      Stmt.IntroducesAny types ret names (stmt :: rest) decl ty
  | later {names inner : Names} {stmt : Stmt} {rest : List Stmt} {decl : Declarator} {ty : Ty}
      (typed : stmt.typing types ret names = some inner) (goes : stmt.closes = false)
      (within : Stmt.IntroducesAny types ret inner rest decl ty) :
      Stmt.IntroducesAny types ret names (stmt :: rest) decl ty

end

/-! ## Bodies -/

/-- The names inside a function with the given parameters, which are immutable. -/
def Names.bindParams (names : Names) : List Param → List Ty → Names
  | param :: params, ty :: tys => (names.bind param.name (.immutable ty)).bindParams params tys
  | _, _ => names

/-- The names at the end of a body of a function with a signature. -/
def bodyTyping (types : TypeMapping) (names : Names) (params : List Param)
    (signature : FunctionTy) (stmts : List Stmt) : Option Names :=
  Stmt.typings types signature.ret (names.bindParams params signature.params) stmts

/-! ## Branches without a block -/

mutual

/-- Whether some conditional has a branch that is directly a statement of a kind. -/
def Stmt.bareBranch (bare : Stmt → Bool) : Stmt → Bool
  | .block stmts _ => Stmt.bareBranches bare stmts
  | .ifElse _ thenBranch elseBranch _ =>
    bare thenBranch || elseBranch.any bare || thenBranch.bareBranch bare ||
      Stmt.bareBranchOptional bare elseBranch
  | _ => false

def Stmt.bareBranchOptional (bare : Stmt → Bool) : Option Stmt → Bool
  | none => false
  | some stmt => stmt.bareBranch bare

def Stmt.bareBranches (bare : Stmt → Bool) : List Stmt → Bool
  | [] => false
  | stmt :: rest => stmt.bareBranch bare || Stmt.bareBranches bare rest

end

/-- A variable statement. -/
def Stmt.isVars : Stmt → Bool
  | .vars .. => true
  | _ => false

/-- A `const` statement. -/
def Stmt.isConst : Stmt → Bool
  | .vars kind .. => !kind.isMutable
  | _ => false

end SsaLowering
