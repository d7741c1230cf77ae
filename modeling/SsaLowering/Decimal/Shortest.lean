/-
# SsaLowering.Decimal.Shortest -- the fewest digits that pick out a number

A `Neighbourhood` is a positive rational together with the interval of reals
that belong to it alone (for a binary floating-point number: those that round to
it).  `Neighbourhood.shortest` is the decimal of fewest digits inside the
interval, and of those the one nearest to the number, an exact tie going to the
larger.  On every grid of decimals only the two neighbours of the number matter:
if any point of a grid lies in the interval, so does one of these.
-/
namespace SsaLowering.Decimal

set_option autoImplicit false

/-- The number `value / scale`, with the interval from `low / scale` to
`high / scale`; the ends belong to the interval when `closed` holds. -/
structure Neighbourhood where
  low : Nat
  value : Nat
  high : Nat
  scale : Nat
  closed : Bool

/-- The decimal `digits · 10 ^ exponent`. -/
structure Numeral where
  digits : Nat
  exponent : Int
deriving DecidableEq, Inhabited

namespace Neighbourhood

/-- Whether the rational `num / den` belongs to the interval. -/
def holds (n : Neighbourhood) (num den : Nat) : Bool :=
  let p := num * n.scale
  if n.closed then n.low * den ≤ p && p ≤ n.high * den
  else n.low * den < p && p < n.high * den

/-- The grid `10 ^ exponent`, as a numerator and a denominator. -/
def unit (exponent : Int) : Nat × Nat := (Nat.pow 10 exponent.toNat, Nat.pow 10 (-exponent).toNat)

/-- The neighbours of the number on the grid `10 ^ exponent` that lie in the
interval; of two, the nearer, and the larger of two equally near. -/
def onGrid? (n : Neighbourhood) (exponent : Int) : Option Numeral :=
  let (num, den) := unit exponent
  let below := n.value * den / (n.scale * num)
  let downIn := n.holds (below * num) den
  let upIn := n.holds ((below + 1) * num) den
  let twice := 2 * (n.value * den)
  let middle := (2 * below + 1) * (n.scale * num)
  if upIn && (!downIn || middle ≤ twice) then some ⟨below + 1, exponent⟩
  else if downIn then some ⟨below, exponent⟩
  else none

/-- The position of the leading digit: the largest `e`, among `fuel` candidates
downwards from `start`, with `10 ^ e` not above the number. -/
def leading (n : Neighbourhood) (start : Int) : Nat → Int
  | 0 => start
  | fuel + 1 =>
    let (num, den) := unit start
    if num * n.scale ≤ n.value * den then start else n.leading (start - 1) fuel

/-- The first grid, from the leading digit downwards, with a hit. -/
def firstHit (n : Neighbourhood) (exponent : Int) : Nat → Numeral
  | 0 => ⟨0, 0⟩
  | fuel + 1 => (n.onGrid? exponent).getD (n.firstHit (exponent - 1) fuel)

/-- The fewest digits that lie in the interval, among at most `digits` of them. -/
def shortest (n : Neighbourhood) (digits : Nat) : Numeral :=
  let top : Int := (Nat.log2 n.value : Int) - Nat.log2 n.scale
  let bound : Int := if 0 ≤ top then top * 302 / 1000 + 2 else top * 301 / 1000 + 2
  n.firstHit (n.leading bound 8) digits

end Neighbourhood

/-- The digits of a numeral without trailing zeros, and the place of the decimal
point counted from their left end. -/
def Numeral.normal (n : Numeral) : List Char × Int :=
  let text := (Nat.toDigits 10 n.digits)
  ((text.reverse.dropWhile (· == '0')).reverse, text.length + n.exponent)

end SsaLowering.Decimal
