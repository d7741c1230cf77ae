/-
# SsaLowering.Double -- double constants and their text

A double constant is kept as its 64 bits, so that two constants are equal
exactly when they are the same datum.  `Double.text` writes the fewest digits
that read back to the number, positionally from `1e-4` up to `1e16` with at
least one digit after the point, and with an exponent elsewhere.  The layout is
one record, `Double.layout`.
-/
import SsaLowering.Decimal.Shortest

namespace SsaLowering

set_option autoImplicit false

open Decimal (Neighbourhood Numeral)

/-- A binary64 datum. -/
structure Double where
  bits : UInt64
deriving DecidableEq, Inhabited

namespace Double

def negative (x : Double) : Bool := x.bits.toNat >>> 63 == 1

/-- The biased exponent field. -/
def exponentField (x : Double) : Nat := (x.bits.toNat >>> 52) % 2048

/-- The fraction field. -/
def fractionField (x : Double) : Nat := x.bits.toNat % (1 <<< 52)

/-- The significand and exponent of the absolute value `m · 2 ^ q`, for a finite datum. -/
def magnitude (x : Double) : Nat × Int :=
  if x.exponentField = 0 then (x.fractionField, -1074)
  else (x.fractionField + (1 <<< 52), (x.exponentField : Int) - 1075)

/-- The reals that round to `m · 2 ^ q`.  Below a power of two the spacing halves,
so the lower gap does too; a bound belongs to the datum with the even significand. -/
def neighbourhood (x : Double) : Neighbourhood :=
  let (m, q) := x.magnitude
  let halved := x.fractionField = 0 ∧ 1 < x.exponentField
  let up := 1 <<< q.toNat
  { low := (4 * m - if halved then 1 else 2) * up
    value := 4 * m * up
    high := (4 * m + 2) * up
    scale := 4 <<< (-q).toNat
    closed := m % 2 == 0 }

/-- Where the written form of a number changes. -/
structure Layout where
  /-- The exponents of the leading digit that are written positionally: from `least`… -/
  least : Int
  /-- …up to and including `greatest`. -/
  greatest : Int

/-- Numbers from `1e-4` up to, and without, `1e16` are written positionally. -/
def layout : Layout := ⟨-4, 15⟩

/-- Digits with a point after the first `point` of them, padded with zeros on either side. -/
def positional (digits : List Char) (point : Int) : String :=
  let padded := List.replicate (1 - point).toNat '0' ++ digits
  let front := if 0 < point then point.toNat else 1
  let whole := padded.take front ++ List.replicate (front - padded.length) '0'
  let rest := padded.drop front
  String.ofList (whole ++ '.' :: if rest.isEmpty then ['0'] else rest)

/-- Digits with a point after the first, and the exponent of the first. -/
def scientific (digits : List Char) (point : Int) : String :=
  let mantissa := match digits with
    | [] => []
    | [d] => [d]
    | d :: rest => d :: '.' :: rest
  String.ofList mantissa ++ "e" ++ toString (point - 1)

/-- The text of the absolute value of a finite datum. -/
def magnitudeText (x : Double) : String :=
  if x.magnitude.1 = 0 then "0.0"
  else
    let (digits, point) := (x.neighbourhood.shortest 17).normal
    if layout.least ≤ point - 1 ∧ point - 1 ≤ layout.greatest then positional digits point
    else scientific digits point

/-- The text of a double constant. -/
def text (x : Double) : String :=
  let unsigned :=
    if x.exponentField = 2047 then (if x.fractionField = 0 then "inf" else "NaN")
    else x.magnitudeText
  if x.negative && unsigned != "NaN" then "-" ++ unsigned else unsigned

end Double

end SsaLowering
