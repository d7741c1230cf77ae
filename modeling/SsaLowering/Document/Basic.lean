/-
# SsaLowering.Document.Basic -- data documents

A `Document` is the tree of a data file: scalars, lists and objects.  The readers
here are those that all data types share: a number below a bound, a record, which
is an object with its fields by name or a list with its fields in order, and a
tagged choice, which is a bare label or an object with one entry.
-/
namespace SsaLowering

set_option autoImplicit false

/-- The tree of a data file. -/
inductive Document where
  | null
  | bool (value : Bool)
  | integer (value : Int)
  /-- The number `mantissa · 10 ^ exponent`, where it is not written as an integer:
  with a fraction, with an exponent, or as a negative zero. -/
  | real (mantissa exponent : Int)
  | string (text : String)
  | array (elements : List Document)
  | object (fields : List (String × Document))
deriving Inhabited

namespace Document

mutual

/-- How deep the lists and objects of a document are nested. -/
def height : Document → Nat
  | .array elements => heights elements + 1
  | .object fields => fieldHeights fields + 1
  | _ => 1

def heights : List Document → Nat
  | [] => 0
  | d :: rest => max d.height (heights rest)

def fieldHeights : List (String × Document) → Nat
  | [] => 0
  | (_, d) :: rest => max d.height (fieldHeights rest)

end

/-- A natural number below a bound. -/
def below? (bound : Nat) : Document → Option Nat
  | integer value => if 0 ≤ value ∧ value < bound then some value.toNat else none
  | _ => none

/-- A 32-bit number. -/
def word? : Document → Option Nat := below? (1 <<< 32)

/-- A 64-bit number. -/
def longWord? : Document → Option Nat := below? (1 <<< 64)

def text? : Document → Option String
  | string text => some text
  | _ => none

/-- A text or nothing. -/
def optionalText? : Document → Option (Option String)
  | null => some none
  | string text => some (some text)
  | _ => none

def elements? : Document → Option (List Document)
  | array elements => some elements
  | _ => none

/-- The fields of an object, in the order of `names`; an absent one has no entry. -/
def namedFields? (names : List String) : Document → Option (List (Option Document))
  | object fields => some (names.map (fields.lookup ·))
  | _ => none

/-- The fields of a record, in the order of `names`. -/
def recordFields? (names : List String) : Document → Option (List (Option Document))
  | array elements => if elements.length = names.length then some (elements.map some) else none
  | d => d.namedFields? names

/-- A label, with what is attached to it. -/
def choice? : Document → Option (String × Option Document)
  | string label => some (label, none)
  | object [(label, attached)] => some (label, some attached)
  | _ => none

/-- A label to which nothing is attached. -/
def label? (d : Document) : Option String :=
  match d.choice? with
  | some (label, none) => some label
  | some (label, some null) => some label
  | _ => none

/-- An optional text as a document. -/
def ofOptionalText : Option String → Document
  | some text => string text
  | none => null

end Document

end SsaLowering
