/-
# SsaLowering.Proofs.Renaming.Tree -- source trees under other symbols

The symbol of an identifier is whatever key a symbol table gave it, so one program
has a tree for every way to number its identifiers.  `rename` replaces each symbol
of a tree and nothing else; `symbols` lists the symbols that a tree uses.
-/
import SsaLowering.Syntax.Tree

namespace SsaLowering

set_option autoImplicit false

variable (σ : Symbol → Symbol)

/-! ## Types -/

def TypeRef.rename : TypeRef → TypeRef
  | number => number
  | boolean => boolean
  | string => string
  | void => void
  | named name span => named (σ name) span
  | array element => array element.rename

def TypeRef.symbols : TypeRef → List Symbol
  | number | boolean | string | void => []
  | named name _ => [name]
  | array element => element.symbols

/-! ## Expressions -/

namespace Expr

mutual

def rename : Expr → Expr
  | identifier name span => identifier (σ name) span
  | member object property span => member object.rename (σ property) span
  | call callee args span => call callee.rename (renameAll args) span
  | binary op lhs rhs span => binary op lhs.rename rhs.rename span
  | unary op operand span => unary op operand.rename span
  | bool value span => bool value span
  | number value span => number value span
  | string value span => string value span
  | null span => null span
  | array elements span => array (renameAll elements) span
  | index object position span => index object.rename position.rename span

def renameAll : List Expr → List Expr
  | [] => []
  | expr :: rest => expr.rename :: renameAll rest

end

mutual

def symbols : Expr → List Symbol
  | identifier name _ => [name]
  | member object property _ => property :: object.symbols
  | call callee args _ => callee.symbols ++ symbolsAll args
  | binary _ lhs rhs _ => lhs.symbols ++ rhs.symbols
  | unary _ operand _ => operand.symbols
  | bool .. | number .. | string .. | null .. => []
  | array elements _ => symbolsAll elements
  | index object position _ => object.symbols ++ position.symbols

def symbolsAll : List Expr → List Symbol
  | [] => []
  | expr :: rest => expr.symbols ++ symbolsAll rest

end

@[simp] theorem kind_rename (expr : Expr) : (expr.rename σ).kind = expr.kind := by
  cases expr <;> simp [rename, kind]

@[simp] theorem span_rename (expr : Expr) : (expr.rename σ).span = expr.span := by
  cases expr <;> simp [rename, span]

@[simp] theorem length_renameAll (exprs : List Expr) :
    (renameAll σ exprs).length = exprs.length := by
  induction exprs with
  | nil => simp [renameAll]
  | cons expr rest ih => simp [renameAll, ih]

end Expr

/-! ## Statements -/

def Declarator.rename (decl : Declarator) : Declarator where
  name := σ decl.name
  type := decl.type.map (·.rename σ)
  init := decl.init.map (·.rename σ)
  span := decl.span

def Declarator.symbols (decl : Declarator) : List Symbol :=
  decl.name :: decl.type.elim [] TypeRef.symbols ++ decl.init.elim [] Expr.symbols

namespace Stmt

mutual

def rename : Stmt → Stmt
  | block stmts span => block (renameAll stmts) span
  | expression expr span => expression (expr.rename σ) span
  | ifElse condition thenBranch elseBranch span =>
    ifElse (condition.rename σ) thenBranch.rename (renameOptional elseBranch) span
  | ret value span => ret (value.map (·.rename σ)) span
  | vars kind declarators span => vars kind (declarators.map (·.rename σ)) span
  | whileLoop condition body span => whileLoop (condition.rename σ) body.rename span
  | breakLoop span => breakLoop span
  | continueLoop span => continueLoop span
  | empty span => empty span

def renameOptional : Option Stmt → Option Stmt
  | none => none
  | some stmt => some stmt.rename

def renameAll : List Stmt → List Stmt
  | [] => []
  | stmt :: rest => stmt.rename :: renameAll rest

end

mutual

def symbols : Stmt → List Symbol
  | block stmts _ => symbolsAll stmts
  | expression expr _ => expr.symbols
  | ifElse condition thenBranch elseBranch _ =>
    condition.symbols ++ thenBranch.symbols ++ symbolsOptional elseBranch
  | ret value _ => value.elim [] Expr.symbols
  | vars _ declarators _ => declarators.flatMap Declarator.symbols
  | whileLoop condition body _ => condition.symbols ++ body.symbols
  | breakLoop _ | continueLoop _ | empty _ => []

def symbolsOptional : Option Stmt → List Symbol
  | none => []
  | some stmt => stmt.symbols

def symbolsAll : List Stmt → List Symbol
  | [] => []
  | stmt :: rest => stmt.symbols ++ symbolsAll rest

end

@[simp] theorem span_rename (stmt : Stmt) : (stmt.rename σ).span = stmt.span := by
  cases stmt <;> simp [rename, span]

@[simp] theorem length_renameAll (stmts : List Stmt) :
    (renameAll σ stmts).length = stmts.length := by
  induction stmts with
  | nil => simp [renameAll]
  | cons stmt rest ih => simp [renameAll, ih]

end Stmt

/-! ## Declarations -/

def Body.rename (body : Body) : Body := ⟨Stmt.renameAll σ body.stmts, body.span⟩

def Param.rename (param : Param) : Param := ⟨σ param.name, param.type.rename σ, param.span⟩

def Param.symbols (param : Param) : List Symbol := param.name :: param.type.symbols

def FunctionDecl.rename (decl : FunctionDecl) : FunctionDecl where
  name := σ decl.name
  params := decl.params.map (·.rename σ)
  returnType := decl.returnType.map (·.rename σ)
  body := decl.body.map (·.rename σ)
  span := decl.span

def FunctionDecl.symbols (decl : FunctionDecl) : List Symbol :=
  decl.name :: decl.params.flatMap Param.symbols ++ decl.returnType.elim [] TypeRef.symbols ++
    decl.body.elim [] fun body => Stmt.symbolsAll body.stmts

namespace Item

mutual

def rename : Item → Item
  | function decl => function (decl.rename σ)
  | namespace_ name items span => namespace_ (σ name) (renameAll items) span
  | class_ name span => class_ (σ name) span
  | interface name span => interface (σ name) span
  | typeAlias name type span => typeAlias (σ name) (type.rename σ) span

def renameAll : List Item → List Item
  | [] => []
  | item :: rest => item.rename :: renameAll rest

end

mutual

def symbols : Item → List Symbol
  | function decl => decl.symbols
  | namespace_ name items _ => name :: symbolsAll items
  | class_ name _ | interface name _ => [name]
  | typeAlias name type _ => name :: type.symbols

def symbolsAll : List Item → List Symbol
  | [] => []
  | item :: rest => item.symbols ++ symbolsAll rest

end

@[simp] theorem length_renameAll (items : List Item) :
    (renameAll σ items).length = items.length := by
  induction items with
  | nil => simp [renameAll]
  | cons item rest ih => simp [renameAll, ih]

end Item

def SourceUnit.rename (unit : SourceUnit) : SourceUnit :=
  ⟨unit.file, unit.name, Item.renameAll σ unit.items⟩

def SourceUnit.symbols (unit : SourceUnit) : List Symbol := Item.symbolsAll unit.items

end SsaLowering
