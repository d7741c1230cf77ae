/-
# SsaLowering.Syntax.Tree -- the typed source tree

Types, expressions, statements and items of the source language, as a front end
hands them over.  Kinds that lowering does not cover have their own constructor,
so that they can be reported by name.  Every node knows its `kind` and its
`span`.
-/
import SsaLowering.Symbol
import SsaLowering.Source
import SsaLowering.Double
import SsaLowering.Syntax.Kind

namespace SsaLowering

set_option autoImplicit false

/-- A type as written in a program. -/
inductive TypeRef where
  | number
  | boolean
  | string
  | void
  | named (name : Symbol) (span : FileSpan)
  | array (element : TypeRef)
deriving DecidableEq, Inhabited

/-- Expressions. -/
inductive Expr where
  | identifier (name : Symbol) (span : FileSpan)
  | member (object : Expr) (property : Symbol) (span : FileSpan)
  | call (callee : Expr) (args : List Expr) (span : FileSpan)
  | binary (op : BinaryOp) (lhs rhs : Expr) (span : FileSpan)
  | unary (op : UnaryOp) (operand : Expr) (span : FileSpan)
  | bool (value : Bool) (span : FileSpan)
  | number (value : Double) (span : FileSpan)
  | string (value : String) (span : FileSpan)
  | null (span : FileSpan)
  | array (elements : List Expr) (span : FileSpan)
  | index (object position : Expr) (span : FileSpan)
deriving Inhabited

namespace Expr

def kind : Expr → SyntaxKind
  | identifier .. => .identifier
  | member .. => .propertyAccessExpression
  | call .. => .callExpression
  | binary .. => .binaryExpression
  | unary .. => .prefixUnaryExpression
  | bool .. => .booleanLiteral
  | number .. => .numericLiteral
  | string .. => .stringLiteral
  | null .. => .nullLiteral
  | array .. => .arrayLiteralExpression
  | index .. => .elementAccessExpression

def span : Expr → FileSpan
  | identifier _ span | member _ _ span | call _ _ span | binary _ _ _ span | unary _ _ span
  | bool _ span | number _ span | string _ span | null span | array _ span
  | index _ _ span => span

end Expr

/-- One `name: type = value` of a variable statement. -/
structure Declarator where
  name : Symbol
  type : Option TypeRef
  init : Option Expr
  span : FileSpan
deriving Inhabited

/-- Statements. -/
inductive Stmt where
  | block (stmts : List Stmt) (span : FileSpan)
  | expression (expr : Expr) (span : FileSpan)
  | ifElse (condition : Expr) (thenBranch : Stmt) (elseBranch : Option Stmt)
      (span : FileSpan)
  | ret (value : Option Expr) (span : FileSpan)
  | vars (kind : BindingKind) (declarators : List Declarator) (span : FileSpan)
  | whileLoop (condition : Expr) (body : Stmt) (span : FileSpan)
  | breakLoop (span : FileSpan)
  | continueLoop (span : FileSpan)
  | empty (span : FileSpan)
deriving Inhabited

namespace Stmt

def kind : Stmt → SyntaxKind
  | block .. => .block
  | expression .. => .expressionStatement
  | ifElse .. => .ifStatement
  | ret .. => .returnStatement
  | vars .. => .variableStatement
  | whileLoop .. => .whileStatement
  | breakLoop .. => .breakStatement
  | continueLoop .. => .continueStatement
  | empty .. => .emptyStatement

def span : Stmt → FileSpan
  | block _ span | expression _ span | ifElse _ _ _ span | ret _ span | vars _ _ span
  | whileLoop _ _ span | breakLoop span | continueLoop span | empty span => span

end Stmt

/-- The braced body of a function. -/
structure Body where
  stmts : List Stmt
  span : FileSpan
deriving Inhabited

/-- A parameter of a function. -/
structure Param where
  name : Symbol
  type : TypeRef
  span : FileSpan
deriving DecidableEq, Inhabited

/-- A function declaration.  Without a body it names an external function; without
a return type it returns nothing. -/
structure FunctionDecl where
  name : Symbol
  params : List Param
  returnType : Option TypeRef
  body : Option Body
  span : FileSpan
deriving Inhabited

/-- A declaration at the top level or inside a namespace. -/
inductive Item where
  | function (decl : FunctionDecl)
  | namespace_ (name : Symbol) (items : List Item) (span : FileSpan)
  | class_ (name : Symbol) (span : FileSpan)
  | interface (name : Symbol) (span : FileSpan)
  | typeAlias (name : Symbol) (type : TypeRef) (span : FileSpan)
deriving Inhabited

namespace Item

def kind : Item → SyntaxKind
  | function .. => .functionDeclaration
  | namespace_ .. => .namespaceDeclaration
  | class_ .. => .classDeclaration
  | interface .. => .interfaceDeclaration
  | typeAlias .. => .typeAliasDeclaration

def span : Item → FileSpan
  | function decl => decl.span
  | namespace_ _ _ span | class_ _ span | interface _ span | typeAlias _ _ span => span

end Item

/-- A compilation unit: one source file. -/
structure SourceUnit where
  file : FileId
  name : String
  items : List Item
deriving Inhabited

end SsaLowering
