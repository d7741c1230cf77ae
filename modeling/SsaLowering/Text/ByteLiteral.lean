/-
# SsaLowering.Text.ByteLiteral -- bytes between quotes

A byte is written as itself when it is a visible ASCII character other than the
quote and the backslash, or a space, and otherwise as a backslash with two
upper-case hexadecimal digits.
-/
namespace SsaLowering.Text.ByteLiteral

set_option autoImplicit false

/-- Whether a byte stands for itself. -/
def isPlain (byte : UInt8) : Bool :=
  0x20 ≤ byte && byte ≤ 0x7E && byte != 0x22 && byte != 0x5C

/-- The digit of a number below sixteen. -/
def hexDigit (n : Nat) : Char :=
  if n < 10 then Char.ofNat (0x30 + n) else Char.ofNat (0x41 + (n - 10))

/-- The characters of one byte. -/
def encodeByte (byte : UInt8) : List Char :=
  if isPlain byte then [Char.ofNat byte.toNat]
  else ['\\', hexDigit (byte.toNat / 16), hexDigit (byte.toNat % 16)]

/-- The characters between the quotes. -/
def encode (bytes : List UInt8) : List Char := bytes.flatMap encodeByte

end SsaLowering.Text.ByteLiteral
