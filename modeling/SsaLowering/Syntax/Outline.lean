/-
# SsaLowering.Syntax.Outline -- the nodes of a unit in reading order

An outline lists a label and a position for every node, a node before its parts.
Parameters and declarators have labels of their own; types are not listed.
-/
import SsaLowering.Syntax.Tree

namespace SsaLowering

set_option autoImplicit false

/-- A node: what it is and where. -/
structure OutlineEntry where
  label : String
  span : FileSpan
deriving DecidableEq, Inhabited

/-- The keyword of a binding and whether it may be assigned to. -/
def BindingKind.summary (kind : BindingKind) : String :=
  kind.text ++ " mutable=" ++ if kind.isMutable then "true" else "false"

mutual

/-- An expression, then its operands in order. -/
def Expr.outline : Expr → List OutlineEntry
  | .identifier _ span => [⟨SyntaxKind.identifier.name, span⟩]
  | .member object _ span =>
    ⟨SyntaxKind.propertyAccessExpression.name, span⟩ :: object.outline
  | .call callee args span =>
    ⟨SyntaxKind.callExpression.name, span⟩ :: (callee.outline ++ Expr.outlines args)
  | .binary _ lhs rhs span =>
    ⟨SyntaxKind.binaryExpression.name, span⟩ :: (lhs.outline ++ rhs.outline)
  | .unary _ operand span => ⟨SyntaxKind.prefixUnaryExpression.name, span⟩ :: operand.outline
  | .bool _ span => [⟨SyntaxKind.booleanLiteral.name, span⟩]
  | .number _ span => [⟨SyntaxKind.numericLiteral.name, span⟩]
  | .string _ span => [⟨SyntaxKind.stringLiteral.name, span⟩]
  | .null span => [⟨SyntaxKind.nullLiteral.name, span⟩]
  | .array elements span =>
    ⟨SyntaxKind.arrayLiteralExpression.name, span⟩ :: Expr.outlines elements
  | .index object position span =>
    ⟨SyntaxKind.elementAccessExpression.name, span⟩ :: (object.outline ++ position.outline)

def Expr.outlines : List Expr → List OutlineEntry
  | [] => []
  | expr :: rest => expr.outline ++ Expr.outlines rest

end

/-- A declarator, then its initializer. -/
def Declarator.outline (kind : BindingKind) (decl : Declarator) : List OutlineEntry :=
  ⟨kind.summary, decl.span⟩ :: (decl.init.map Expr.outline).getD []

mutual

/-- A statement, then its parts in order. -/
def Stmt.outline : Stmt → List OutlineEntry
  | .block stmts span => ⟨SyntaxKind.block.name, span⟩ :: Stmt.outlines stmts
  | .expression expr span => ⟨SyntaxKind.expressionStatement.name, span⟩ :: expr.outline
  | .ifElse condition thenBranch elseBranch span =>
    ⟨SyntaxKind.ifStatement.name, span⟩ ::
      (condition.outline ++ thenBranch.outline ++ Stmt.outlineOptional elseBranch)
  | .ret value span =>
    ⟨SyntaxKind.returnStatement.name, span⟩ :: (value.map Expr.outline).getD []
  | .vars kind declarators span =>
    ⟨SyntaxKind.variableStatement.name, span⟩ :: declarators.flatMap (·.outline kind)
  | .whileLoop condition body span =>
    ⟨SyntaxKind.whileStatement.name, span⟩ :: (condition.outline ++ body.outline)
  | .breakLoop span => [⟨SyntaxKind.breakStatement.name, span⟩]
  | .continueLoop span => [⟨SyntaxKind.continueStatement.name, span⟩]
  | .empty span => [⟨SyntaxKind.emptyStatement.name, span⟩]

def Stmt.outlineOptional : Option Stmt → List OutlineEntry
  | none => []
  | some stmt => stmt.outline

def Stmt.outlines : List Stmt → List OutlineEntry
  | [] => []
  | stmt :: rest => stmt.outline ++ Stmt.outlines rest

end

/-- A function, its parameters, the block of its body and the statements in it. -/
def FunctionDecl.outline (decl : FunctionDecl) : List OutlineEntry :=
  ⟨SyntaxKind.functionDeclaration.name, decl.span⟩ ::
    (decl.params.map fun param => ⟨"param", param.span⟩) ++
    match decl.body with
    | none => []
    | some body => ⟨SyntaxKind.block.name, body.span⟩ :: Stmt.outlines body.stmts

mutual

/-- An item, then its parts. -/
def Item.outline : Item → List OutlineEntry
  | .function decl => decl.outline
  | .namespace_ _ items span =>
    ⟨SyntaxKind.namespaceDeclaration.name, span⟩ :: Item.outlines items
  | .class_ _ span => [⟨SyntaxKind.classDeclaration.name, span⟩]
  | .interface _ span => [⟨SyntaxKind.interfaceDeclaration.name, span⟩]
  | .typeAlias _ _ span => [⟨SyntaxKind.typeAliasDeclaration.name, span⟩]

def Item.outlines : List Item → List OutlineEntry
  | [] => []
  | item :: rest => item.outline ++ Item.outlines rest

end

/-- Every node of a unit. -/
def SourceUnit.outline (unit : SourceUnit) : List OutlineEntry := Item.outlines unit.items

end SsaLowering
