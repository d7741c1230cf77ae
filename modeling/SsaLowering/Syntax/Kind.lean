/-
# SsaLowering.Syntax.Kind -- labels of the source language

The closed vocabularies of the source tree: kinds of nodes, operators and
binding keywords.  Each label has a `name`, its identity in data files, and the
operators and keywords also have a `text`, their spelling in a program.  A name
belongs to one label only (`ofName?_name`).
-/
namespace SsaLowering

set_option autoImplicit false

/-- The kind of a node of the source tree. -/
inductive SyntaxKind where
  | sourceFile
  | functionDeclaration
  | namespaceDeclaration
  | classDeclaration
  | interfaceDeclaration
  | typeAliasDeclaration
  | block
  | expressionStatement
  | ifStatement
  | returnStatement
  | variableStatement
  | whileStatement
  | breakStatement
  | continueStatement
  | emptyStatement
  | identifier
  | propertyAccessExpression
  | callExpression
  | binaryExpression
  | prefixUnaryExpression
  | booleanLiteral
  | numericLiteral
  | stringLiteral
  | nullLiteral
  | arrayLiteralExpression
  | elementAccessExpression
deriving DecidableEq, Inhabited

namespace SyntaxKind

def name : SyntaxKind → String
  | sourceFile => "SourceFile"
  | functionDeclaration => "FunctionDeclaration"
  | namespaceDeclaration => "NamespaceDeclaration"
  | classDeclaration => "ClassDeclaration"
  | interfaceDeclaration => "InterfaceDeclaration"
  | typeAliasDeclaration => "TypeAliasDeclaration"
  | block => "Block"
  | expressionStatement => "ExpressionStatement"
  | ifStatement => "IfStatement"
  | returnStatement => "ReturnStatement"
  | variableStatement => "VariableStatement"
  | whileStatement => "WhileStatement"
  | breakStatement => "BreakStatement"
  | continueStatement => "ContinueStatement"
  | emptyStatement => "EmptyStatement"
  | identifier => "Identifier"
  | propertyAccessExpression => "PropertyAccessExpression"
  | callExpression => "CallExpression"
  | binaryExpression => "BinaryExpression"
  | prefixUnaryExpression => "PrefixUnaryExpression"
  | booleanLiteral => "BooleanLiteral"
  | numericLiteral => "NumericLiteral"
  | stringLiteral => "StringLiteral"
  | nullLiteral => "NullLiteral"
  | arrayLiteralExpression => "ArrayLiteralExpression"
  | elementAccessExpression => "ElementAccessExpression"

/-- Every kind, in declaration order. -/
def all : List SyntaxKind :=
  [sourceFile, functionDeclaration, namespaceDeclaration, classDeclaration, interfaceDeclaration,
    typeAliasDeclaration, block, expressionStatement, ifStatement, returnStatement,
    variableStatement, whileStatement, breakStatement, continueStatement, emptyStatement,
    identifier, propertyAccessExpression, callExpression, binaryExpression, prefixUnaryExpression,
    booleanLiteral, numericLiteral, stringLiteral, nullLiteral, arrayLiteralExpression,
    elementAccessExpression]

def ofName? (text : String) : Option SyntaxKind := all.find? (·.name == text)

theorem ofName?_name (kind : SyntaxKind) : ofName? kind.name = some kind := by
  cases kind <;> decide

end SyntaxKind

/-- Binary operators; assignment is one of them. -/
inductive BinaryOp where
  | assign | add | sub | mul | div | lt | gt | eq | ne | and | or
deriving DecidableEq, Inhabited

namespace BinaryOp

def name : BinaryOp → String
  | assign => "Assign"
  | add => "Add"
  | sub => "Sub"
  | mul => "Mul"
  | div => "Div"
  | lt => "Lt"
  | gt => "Gt"
  | eq => "Eq"
  | ne => "Ne"
  | and => "And"
  | or => "Or"

/-- The operator as it is written in a program. -/
def text : BinaryOp → String
  | assign => "="
  | add => "+"
  | sub => "-"
  | mul => "*"
  | div => "/"
  | lt => "<"
  | gt => ">"
  | eq => "==="
  | ne => "!=="
  | and => "&&"
  | or => "||"

def all : List BinaryOp := [assign, add, sub, mul, div, lt, gt, eq, ne, and, or]

def ofName? (text : String) : Option BinaryOp := all.find? (·.name == text)

def ofText? (spelling : String) : Option BinaryOp := all.find? (·.text == spelling)

theorem ofName?_name (op : BinaryOp) : ofName? op.name = some op := by
  cases op <;> decide

theorem ofText?_text (op : BinaryOp) : ofText? op.text = some op := by
  cases op <;> decide

end BinaryOp

/-- Operators written before their operand. -/
inductive UnaryOp where
  | neg | not
deriving DecidableEq, Inhabited

namespace UnaryOp

def name : UnaryOp → String
  | neg => "Neg"
  | not => "Not"

/-- The operator as it is written in a program. -/
def text : UnaryOp → String
  | neg => "-"
  | not => "!"

def all : List UnaryOp := [neg, not]

def ofName? (text : String) : Option UnaryOp := all.find? (·.name == text)

def ofText? (spelling : String) : Option UnaryOp := all.find? (·.text == spelling)

theorem ofName?_name (op : UnaryOp) : ofName? op.name = some op := by
  cases op <;> decide

theorem ofText?_text (op : UnaryOp) : ofText? op.text = some op := by
  cases op <;> decide

end UnaryOp

/-- The keyword of a variable statement. -/
inductive BindingKind where
  | const | let_ | var_
deriving DecidableEq, Inhabited

namespace BindingKind

def name : BindingKind → String
  | const => "Const"
  | let_ => "Let"
  | var_ => "Var"

/-- The keyword as it is written in a program. -/
def text : BindingKind → String
  | const => "const"
  | let_ => "let"
  | var_ => "var"

/-- Whether the binding may be assigned to. -/
def isMutable : BindingKind → Bool
  | const => false
  | _ => true

def all : List BindingKind := [const, let_, var_]

def ofName? (text : String) : Option BindingKind := all.find? (·.name == text)

def ofText? (spelling : String) : Option BindingKind := all.find? (·.text == spelling)

theorem ofName?_name (kind : BindingKind) : ofName? kind.name = some kind := by
  cases kind <;> decide

theorem ofText?_text (kind : BindingKind) : ofText? kind.text = some kind := by
  cases kind <;> decide

end BindingKind

end SsaLowering
