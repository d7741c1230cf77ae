/-
# SsaLowering.Text.Hexadecimal -- numbers in hexadecimal digits

Digits of either case stand for the numbers below sixteen, and a row of them, the
most significant first, for the number they spell.
-/
namespace SsaLowering.Text.Hexadecimal

set_option autoImplicit false

/-- The value of a digit. -/
def digit? (c : Char) : Option Nat :=
  if '0' ≤ c ∧ c ≤ '9' then some (c.toNat - 0x30)
  else if 'a' ≤ c ∧ c ≤ 'f' then some (c.toNat - 0x61 + 10)
  else if 'A' ≤ c ∧ c ≤ 'F' then some (c.toNat - 0x41 + 10)
  else none

/-- The number that a row of digits spells. -/
def number? (digits : List Char) : Option Nat := do
  let values ← digits.mapM digit?
  return values.foldl (fun n d => 16 * n + d) 0

/-- The number that exactly `width` digits at the front of a text spell. -/
def front? (width : Nat) (text : List Char) : Option Nat :=
  let digits := text.take width
  if digits.length = width then number? digits else none

end SsaLowering.Text.Hexadecimal
