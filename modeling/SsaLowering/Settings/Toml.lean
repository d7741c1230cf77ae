/-
# SsaLowering.Settings.Toml -- documents of string entries

`Toml.entries?` reads a TOML document all of whose entries are strings under
simple keys at the top level: the whole language that settings use.  Anything
else has no reading here, be it malformed or a value, key or table of another
kind, and neither has a document that gives a key twice.  A document may begin
with a byte-order mark; a line ends with a line feed, with or without a carriage
return.
-/
import SsaLowering.Text.Hexadecimal

namespace SsaLowering.Settings.Toml

set_option autoImplicit false

/-! ## Characters -/

def isBlank (c : Char) : Bool := c == ' ' || c == '\t'

/-- Characters that may stand in comments and strings: no control but the tab. -/
def isText (c : Char) : Bool := c == '\t' || (0x20 ≤ c.toNat && c.toNat != 0x7F)

def isBareKey (c : Char) : Bool := c.isAlphanum || c == '_' || c == '-'

/-- The character whose number is spelled by `width` hexadecimal digits at the front
of a text. -/
def scalar? (width : Nat) (text : List Char) : Option Char := do
  let n ← Text.Hexadecimal.front? width text
  guard n.isValidChar
  return Char.ofNat n

/-- The character of an escape, given what follows the backslash, and how many
characters the escape takes after the backslash. -/
def escape? : List Char → Option (Char × Nat)
  | 'b' :: _ => some ('\x08', 1)
  | 't' :: _ => some ('\t', 1)
  | 'n' :: _ => some ('\n', 1)
  | 'f' :: _ => some ('\x0c', 1)
  | 'r' :: _ => some ('\r', 1)
  | '"' :: _ => some ('"', 1)
  | '\\' :: _ => some ('\\', 1)
  | 'u' :: rest => (scalar? 4 rest).map (·, 5)
  | 'U' :: rest => (scalar? 8 rest).map (·, 9)
  | _ => none

/-! ## Strings

Each reader takes what follows the opening quotes and gives the contents and what
follows the closing quotes. -/

/-- A reading and what it leaves. -/
abbrev Reading (α : Type) := Option (α × List Char)

/-- Put a character in front of the contents. -/
def push (c : Char) (reading : Reading (List Char)) : Reading (List Char) :=
  reading.map fun (contents, rest) => (c :: contents, rest)

/-- A string on one line with escapes. -/
def basic : List Char → Reading (List Char)
  | [] => none
  | '"' :: rest => some ([], rest)
  | '\\' :: rest =>
    match escape? rest with
    | some (c, count) => push c (basic (rest.drop count))
    | none => none
  | c :: rest => if isText c then push c (basic rest) else none
termination_by text => text.length
decreasing_by all_goals simp only [List.length_drop, List.length_cons]; omega

/-- A string on one line without escapes. -/
def literal : List Char → Reading (List Char)
  | [] => none
  | '\'' :: rest => some ([], rest)
  | c :: rest => if isText c then push c (literal rest) else none

/-- Whether a backslash before this text ends its line: only blanks are left on it. -/
def endsLine (text : List Char) : Bool :=
  match text.dropWhile isBlank with
  | '\n' :: _ => true
  | '\r' :: '\n' :: _ => true
  | _ => false

/-- A string over several lines with escapes.  While `skipping`, after a backslash
at the end of a line, blanks and line ends are dropped.  Up to two quotes may stand
just before the closing ones. -/
def multilineBasic (skipping : Bool) : List Char → Reading (List Char)
  | [] => none
  | '"' :: '"' :: '"' :: '"' :: '"' :: rest => some (['"', '"'], rest)
  | '"' :: '"' :: '"' :: '"' :: rest => some (['"'], rest)
  | '"' :: '"' :: '"' :: rest => some ([], rest)
  | '\r' :: '\n' :: rest =>
    if skipping then multilineBasic true rest else push '\n' (multilineBasic false rest)
  | '\n' :: rest =>
    if skipping then multilineBasic true rest else push '\n' (multilineBasic false rest)
  | '\\' :: rest =>
    if endsLine rest then multilineBasic true rest
    else
      match escape? rest with
      | some (c, count) => push c (multilineBasic false (rest.drop count))
      | none => none
  | c :: rest =>
    if skipping && isBlank c then multilineBasic true rest
    else if isText c then push c (multilineBasic false rest)
    else none
termination_by text => text.length
decreasing_by all_goals simp only [List.length_drop, List.length_cons]; omega

/-- A string over several lines without escapes. -/
def multilineLiteral : List Char → Reading (List Char)
  | [] => none
  | '\'' :: '\'' :: '\'' :: '\'' :: '\'' :: rest => some (['\'', '\''], rest)
  | '\'' :: '\'' :: '\'' :: '\'' :: rest => some (['\''], rest)
  | '\'' :: '\'' :: '\'' :: rest => some ([], rest)
  | '\r' :: '\n' :: rest => push '\n' (multilineLiteral rest)
  | '\n' :: rest => push '\n' (multilineLiteral rest)
  | c :: rest => if isText c then push c (multilineLiteral rest) else none

/-- The line end just after the opening quotes is not part of a string. -/
def dropLineEnd : List Char → List Char
  | '\n' :: rest => rest
  | '\r' :: '\n' :: rest => rest
  | text => text

/-- A string of any of the four kinds, with its opening quotes. -/
def value : List Char → Reading (List Char)
  | '"' :: '"' :: '"' :: rest => multilineBasic false (dropLineEnd rest)
  | '"' :: rest => basic rest
  | '\'' :: '\'' :: '\'' :: rest => multilineLiteral (dropLineEnd rest)
  | '\'' :: rest => literal rest
  | _ => none

/-- A key: bare, or a string on one line. -/
def key : List Char → Reading (List Char)
  | '"' :: rest => basic rest
  | '\'' :: rest => literal rest
  | text =>
    match text.takeWhile isBareKey with
    | [] => none
    | bare => some (bare, text.dropWhile isBareKey)

/-! ## Lines -/

def skipBlanks (text : List Char) : List Char := text.dropWhile isBlank

/-- What follows the end of a line on which only blanks and a comment are left. -/
def lineEnd (text : List Char) : Option (List Char) :=
  let rest := skipBlanks text
  let rest := match rest with
    | '#' :: comment => comment.dropWhile isText
    | other => other
  match rest with
  | [] => some []
  | '\n' :: next => some next
  | '\r' :: '\n' :: next => some next
  | _ => none

/-- A key, an equals sign and a string, up to the end of the line. -/
def entry (text : List Char) : Reading (String × String) :=
  match key text with
  | none => none
  | some (name, rest) =>
    match skipBlanks rest with
    | '=' :: rest =>
      match value (skipBlanks rest) with
      | none => none
      | some (contents, rest) =>
        (lineEnd rest).map ((String.ofList name, String.ofList contents), ·)
    | _ => none

/-- The entries of at most `fuel` lines. -/
def lines (known : List (String × String)) (text : List Char) :
    Nat → Option (List (String × String))
  | 0 => none
  | fuel + 1 =>
    match skipBlanks text with
    | [] => some known
    | start =>
      match lineEnd start with
      | some rest => lines known rest fuel
      | none =>
        match entry start with
        | none => none
        | some ((name, contents), rest) =>
          if (known.lookup name).isSome then none
          else lines ((name, contents) :: known) rest fuel

/-- A document without its byte-order mark. -/
def dropMark : List Char → List Char
  | '\uFEFF' :: rest => rest
  | text => text

/-- The entries of a document, if all of them are strings under simple keys.
Every line takes a character, so there are fewer lines than the fuel allows. -/
def entries? (text : String) : Option (List (String × String)) :=
  let chars := dropMark text.toList
  lines [] chars (chars.length + 1)

end SsaLowering.Settings.Toml
