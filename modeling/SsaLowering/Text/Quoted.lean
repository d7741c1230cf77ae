/-
# SsaLowering.Text.Quoted -- a text between quotes

Quotes, backslashes and the usual controls are written with a backslash, a
character without a shape of its own by its number in lower-case hexadecimal, and
everything else as it is.
-/
import SsaLowering.Text.Invisible

namespace SsaLowering.Text.Quoted

set_option autoImplicit false

/-- The characters that stand for one character. -/
def encodeChar (c : Char) : List Char :=
  match c with
  | '\x00' => ['\\', '0']
  | '\t' => ['\\', 't']
  | '\r' => ['\\', 'r']
  | '\n' => ['\\', 'n']
  | '"' => ['\\', '"']
  | '\\' => ['\\', '\\']
  | _ =>
    if isInvisible c then
      "\\u\x7b".toList ++ Nat.toDigits 16 c.toNat ++ ['\x7d']
    else [c]

/-- The text between quotes. -/
def encode (text : String) : String :=
  "\"" ++ String.ofList (text.toList.flatMap encodeChar) ++ "\""

end SsaLowering.Text.Quoted
