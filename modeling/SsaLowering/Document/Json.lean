/-
# SsaLowering.Document.Json -- documents read from JSON text

`Document.Json.read?` reads one JSON value with nothing but blanks around it.  How
a number is written matters: only digits with an optional sign are an integer, so
`10`, `10.0` and `1e1` are three documents.  The fields of an object are kept in the
order of their names, and of two fields with one name the later counts.
-/
import SsaLowering.Document.Basic
import SsaLowering.Text.Hexadecimal

namespace SsaLowering.Document.Json

set_option autoImplicit false

/-- A reading and what it leaves of the text. -/
abbrev Reading (α : Type) := Option (α × List Char)

def isBlank (c : Char) : Bool := c == ' ' || c == '\t' || c == '\n' || c == '\r'

def skipBlanks (text : List Char) : List Char := text.dropWhile isBlank

/-! ## Strings -/

/-- The character of an escape by number, given what follows the `u`, and how many
characters the digits take.  A character beyond four digits is written as a pair of
surrogates; a surrogate alone is none. -/
def codePoint? (text : List Char) : Option (Char × Nat) := do
  let first ← Text.Hexadecimal.front? 4 text
  if 0xD800 ≤ first ∧ first < 0xDC00 then
    let '\\' :: 'u' :: rest := text.drop 4 | none
    let second ← Text.Hexadecimal.front? 4 rest
    guard (0xDC00 ≤ second ∧ second < 0xE000)
    return (Char.ofNat (0x10000 + (first - 0xD800) * 0x400 + (second - 0xDC00)), 10)
  else
    guard first.isValidChar
    return (Char.ofNat first, 4)

/-- The character of an escape, given what follows the backslash, and how many
characters the escape takes after the backslash. -/
def escape? : List Char → Option (Char × Nat)
  | '"' :: _ => some ('"', 1)
  | '\\' :: _ => some ('\\', 1)
  | '/' :: _ => some ('/', 1)
  | 'b' :: _ => some ('\x08', 1)
  | 'f' :: _ => some ('\x0c', 1)
  | 'n' :: _ => some ('\n', 1)
  | 'r' :: _ => some ('\r', 1)
  | 't' :: _ => some ('\t', 1)
  | 'u' :: rest => (codePoint? rest).map fun (c, count) => (c, count + 1)
  | _ => none

/-- The rest of a string, up to its closing quote; `read` is what came before, last
character first. -/
def string (read : List Char) : List Char → Reading String
  | [] => none
  | '"' :: rest => some (String.ofList read.reverse, rest)
  | '\\' :: rest =>
    match escape? rest with
    | some (c, count) => string (c :: read) (rest.drop count)
    | none => none
  | c :: rest => if c.toNat < 0x20 then none else string (c :: read) rest
termination_by text => text.length
decreasing_by all_goals simp only [List.length_drop, List.length_cons]; omega

/-! ## Numbers -/

/-- One digit or more. -/
def digits (text : List Char) : Reading (List Char) :=
  match text.takeWhile Char.isDigit with
  | [] => none
  | read => some (read, text.dropWhile Char.isDigit)

/-- The digits before the point: zero, or a row that does not begin with it. -/
def whole (text : List Char) : Reading (List Char) :=
  match digits text with
  | some ('0' :: _ :: _, _) => none
  | other => other

/-- The digits after the point; none when there is no point. -/
def places : List Char → Reading (List Char)
  | '.' :: rest => digits rest
  | text => some ([], text)

def natural (digits : List Char) : Nat := Nat.ofDigitChars 10 digits 0

/-- The exponent after its mark. -/
def signedExponent : List Char → Reading Int
  | '-' :: rest => (digits rest).map fun (read, rest) => (-(natural read : Int), rest)
  | '+' :: rest => (digits rest).map fun (read, rest) => ((natural read : Int), rest)
  | rest => (digits rest).map fun (read, rest) => ((natural read : Int), rest)

/-- An exponent, if there is one. -/
def exponent : List Char → Reading (Option Int)
  | 'e' :: rest => (signedExponent rest).map fun (e, rest) => (some e, rest)
  | 'E' :: rest => (signedExponent rest).map fun (e, rest) => (some e, rest)
  | text => some (none, text)

/-- The number that its parts make up. -/
def assemble (negative : Bool) (whole places : List Char) (exponent : Option Int) : Document :=
  let magnitude := natural (whole ++ places)
  let mantissa : Int := if negative then -magnitude else magnitude
  if places.isEmpty && exponent.isNone && !(negative && magnitude == 0) then .integer mantissa
  else .real mantissa (exponent.getD 0 - places.length)

/-- A number after its sign. -/
def unsigned (negative : Bool) (text : List Char) : Reading Document :=
  (whole text).bind fun (front, rest) =>
    (places rest).bind fun (back, rest) =>
      (exponent rest).map fun (power, rest) => (assemble negative front back power, rest)

def number : List Char → Reading Document
  | '-' :: rest => unsigned true rest
  | text => unsigned false text

/-! ## Values -/

/-- Put a field in its place among fields in the order of their names. -/
def insertField (name : String) (value : Document) :
    List (String × Document) → List (String × Document)
  | [] => [(name, value)]
  | (other, known) :: rest =>
    if name < other then (name, value) :: (other, known) :: rest
    else if name = other then (name, value) :: rest
    else (other, known) :: insertField name value rest

mutual

/-- A value, with at most `fuel` steps into and along its lists and objects. -/
def value : Nat → List Char → Reading Document
  | 0, _ => none
  | fuel + 1, text =>
    match skipBlanks text with
    | 'n' :: 'u' :: 'l' :: 'l' :: rest => some (.null, rest)
    | 't' :: 'r' :: 'u' :: 'e' :: rest => some (.bool true, rest)
    | 'f' :: 'a' :: 'l' :: 's' :: 'e' :: rest => some (.bool false, rest)
    | '"' :: rest => (string [] rest).map fun (read, rest) => (.string read, rest)
    | '[' :: rest =>
      match skipBlanks rest with
      | ']' :: rest => some (.array [], rest)
      | rest => elements fuel [] rest
    | '\x7b' :: rest =>
      match skipBlanks rest with
      | '\x7d' :: rest => some (.object [], rest)
      | rest => members fuel [] rest
    | rest => number rest

/-- The elements of a list that is not at its end, after those `read`, last first. -/
def elements : Nat → List Document → List Char → Reading Document
  | 0, _, _ => none
  | fuel + 1, read, text =>
    match value fuel text with
    | none => none
    | some (element, rest) =>
      match skipBlanks rest with
      | ',' :: rest => elements fuel (element :: read) rest
      | ']' :: rest => some (.array (element :: read).reverse, rest)
      | _ => none

/-- The fields of an object that is not at its end, after those `read`. -/
def members : Nat → List (String × Document) → List Char → Reading Document
  | 0, _, _ => none
  | fuel + 1, read, text =>
    match skipBlanks text with
    | '"' :: rest =>
      match string [] rest with
      | none => none
      | some (name, rest) =>
        match skipBlanks rest with
        | ':' :: rest =>
          match value fuel rest with
          | none => none
          | some (content, rest) =>
            let read := insertField name content read
            match skipBlanks rest with
            | ',' :: rest => members fuel read rest
            | '\x7d' :: rest => some (.object read, rest)
            | _ => none
        | _ => none
    | _ => none

end

/-- The document that a text stands for.  Every step takes a character, and at most
two steps share one, so there are fewer steps than the fuel allows. -/
def read? (text : String) : Option Document :=
  let chars := text.toList
  match value (2 * chars.length + 2) chars with
  | some (d, rest) => if (skipBlanks rest).isEmpty then some d else none
  | none => none

end SsaLowering.Document.Json
