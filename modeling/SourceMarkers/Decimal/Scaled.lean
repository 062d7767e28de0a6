import SourceMarkers.Decimal.Binary64

/-!
# Reading a decimal as a double

The value of a decimal written with an optional fraction and exponent. It is
read in two roundings and not in one. First the leading digits that fit 64
bits are taken as a whole number and rounded to a double; then that double is
multiplied or divided once by the power of ten that is left, itself a rounded
double. Below the table of powers, `10^308`, a division by the last one comes
first, as often as needed.

So the last digit of a long decimal may differ from the nearest double, and
the result depends on how the digits are split between the whole part and the
fraction. A digit that does not fit is dropped: in the whole part it counts as
one power of ten, in the fraction it counts for nothing.

## Main definitions

* `Decimal`: The digits and the exponent of a written number.
* `absorb`: The leading digits that fit 64 bits.
* `scaleUp`, `scaleDown`: Multiplying and dividing by a power of ten.
* `Decimal.units?`: The value, or `none` when it is too large.
-/

namespace SourceMarkers

/-- A written number without its sign: the digits before and after the point
    and the exponent. -/
structure Decimal where
  whole : List Nat
  fraction : List Nat
  exponent : Int
deriving DecidableEq, Repr

namespace Decimal

/-- Appends digits to a whole number while it fits 64 bits, and gives the
    digits that were left. -/
def absorb : Nat → List Nat → Nat × List Nat
  | n, [] => (n, [])
  | n, d :: ds =>
    if n * 10 + d < 0x10000000000000000 then absorb (n * 10 + d) ds else (n, d :: ds)

/-- The double nearest to a power of ten, in units. -/
def powerUnits (e : Nat) : Nat := Binary64.unitsOfNat (Nat.pow 10 e)

/-- The largest power of ten that is used at once. -/
def largestPower : Nat := 308

/-- A magnitude times a power of ten, or `none` when it is too large. -/
def scaleUp (units e : Nat) : Option Nat :=
  if e ≤ largestPower then
    let product := Binary64.mulUnits units (powerUnits e)
    if product < Binary64.limit then some product else none
  else if units = 0 then some 0
  else none

/-- A magnitude over a power of ten. -/
def scaleDown (units e : Nat) : Nat :=
  if e ≤ largestPower then Binary64.divUnits units (powerUnits e)
  else if units = 0 then 0
  else scaleDown (Binary64.divUnits units (powerUnits largestPower)) (e - largestPower)
termination_by e
decreasing_by simp only [largestPower] at *; omega

/-- The digits of the significand, and the power of ten that scales it. -/
def significand (d : Decimal) : Nat × Int :=
  let (whole, dropped) := absorb 0 d.whole
  let (all, unused) := absorb whole d.fraction
  (all, dropped.length - (d.fraction.length - unused.length) + d.exponent)

/-- The value in units, or `none` when it is too large for a double. -/
def units? (d : Decimal) : Option Nat :=
  let (digits, scale) := d.significand
  let units := Binary64.unitsOfNat digits
  match scale with
  | .ofNat e => scaleUp units e
  | .negSucc e => some (scaleDown units (e + 1))

end Decimal

end SourceMarkers
