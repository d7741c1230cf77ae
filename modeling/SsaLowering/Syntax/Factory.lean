/-
# SsaLowering.Syntax.Factory -- making the tree of one file

A front end makes nodes bottom up.  The `Factory` hands out symbols for names and
positions for nodes: a node that brings no position of its own gets the next
one-byte range of its file, so that a report can be traced to the node.
-/
import SsaLowering.Syntax.Tree

namespace SsaLowering

set_option autoImplicit false

/-- What a front end carries from node to node. -/
structure Factory where
  symbols : SymbolTable
  file : FileId
  nextOffset : Nat
deriving Inhabited

/-- Steps of a front end. -/
abbrev Build := StateM Factory

/-- A name on its way into the tree: a text, or the key of a symbol as it stands. -/
inductive NameRef where
  | text (text : String)
  | symbol (symbol : Symbol)
deriving DecidableEq, Inhabited

namespace Build

/-- The symbol of a name. -/
def symbol : NameRef → Build Symbol
  | .symbol s => return s
  | .text text => modifyGet fun factory =>
    let (s, symbols) := factory.symbols.intern text
    (s, { factory with symbols })

/-- The next free position. -/
def nextSpan : Build FileSpan := modifyGet fun factory =>
  let start := factory.nextOffset
  (⟨factory.file, ⟨start, start + 1⟩⟩, { factory with nextOffset := start + 1 })

/-- The position that a node brings, or the next free one. -/
def place : Option FileSpan → Build FileSpan
  | some span => return span
  | none => nextSpan

/-- The position of a node of a kind that is never counted. -/
def placeUncounted (span : Option FileSpan) : FileSpan := span.getD .unplaced

/-- A function.  Its body is a node of its own, made just before the function; one
that brings a position shares it with its body. -/
def function (name : NameRef) (params : List Param) (returnType : Option TypeRef)
    (stmts : Option (List Stmt)) (span : Option FileSpan) : Build Item := do
  let body ← match stmts with
    | none => pure none
    | some stmts => some <$> (Body.mk stmts <$> place span)
  let name ← symbol name
  return .function { name, params, returnType, body, span := ← place span }

end Build

/-- A factory at the first position of a file. -/
def Factory.forFile (symbols : SymbolTable) (file : FileId) : Factory := ⟨symbols, file, 0⟩

end SsaLowering
