/-!
# Finite doubles, exactly

The finite numbers of the 64-bit binary format, with the rounding that their
arithmetic makes. Every finite double is a whole number of units of `2^-1074`,
so a double is a sign and a natural number, and rounding is division of
natural numbers. Nothing here rests on a machine's floating point.

A number with leading bit `k` keeps 53 bits: its neighbours are `2^(k - 52)`
units away, and one unit away where that would be less than one.

## Main definitions

* `Binary64`: A finite double.
* `divNearest`: Division to the nearest whole number, ties to even.
* `roundUnits`: The nearest double to a quotient of natural numbers.
* `unitsOfNat`, `mulUnits`, `divUnits`: Conversion, product and quotient, each
  rounded once.
-/

namespace SourceMarkers

/-- A finite double: a sign, and the magnitude in units of `2^-1074`. Zero has
    either sign. -/
structure Binary64 where
  negative : Bool
  units : Nat
deriving DecidableEq, Repr

namespace Binary64

/-- How many units make one. -/
def unitsPerOne : Nat := 1 <<< 1074

/-- The least magnitude that is no finite double, in units: `2^1024`. -/
def limit : Nat := 1 <<< 2098

/-- The quotient to the nearest whole number, a tie going to the even one. -/
def divNearest (num den : Nat) : Nat :=
  let quotient := num / den
  let double := 2 * (num % den)
  if double < den then quotient
  else if den < double then quotient + 1
  else quotient + quotient % 2

/-- The distance in units from a magnitude of `n` units to the next larger
    double. -/
def spacing (n : Nat) : Nat := 1 <<< (n.log2 - 52)

/-- The double nearest to `num / den` units. -/
def roundUnits (num den : Nat) : Nat :=
  let step := spacing (num / den)
  divNearest num (den * step) * step

/-- The double nearest to a natural number, in units. -/
def unitsOfNat (n : Nat) : Nat := roundUnits (n * unitsPerOne) 1

/-- The rounded product of two magnitudes in units. -/
def mulUnits (a b : Nat) : Nat := roundUnits (a * b) unitsPerOne

/-- The rounded quotient of two magnitudes in units. -/
def divUnits (a b : Nat) : Nat := roundUnits (a * unitsPerOne) b

end Binary64

end SourceMarkers
