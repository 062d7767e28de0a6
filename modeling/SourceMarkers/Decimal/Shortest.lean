import SourceMarkers.Decimal.Binary64

/-!
# The shortest decimal of a double

The text of a double is the decimal with the fewest digits among those that
are nearer to it than to any other double, and of these the nearest.

A decimal with its last digit at `10^k` is a point of a grid. The grids are
tried from a coarse one to a fine one, and on each only the two neighbours of
the value can be nearest, so only these are tried. The distances are compared
in quarter units, in which the ends of the interval are whole numbers. An end
belongs to the interval when the double's significand is even, since a tie is
read as the even one.

## Main definitions

* `lowEnd`, `highEnd`: The decimals between them read back as the double.
* `onGrid?`: The best decimal of one grid.
* `gridExponents`: The grids to try.
* `shortest`: The best decimal.
* `render`: Its text, positional while the leading digit stands between
  `10^-5` and `10^15` and with an exponent otherwise.
-/

namespace SourceMarkers

namespace Binary64

/-- The upper end of the interval that rounds to `units`, in quarter units. -/
def highEnd (units : Nat) : Nat := 4 * units + 2 * spacing units

/-- The lower end. Below a power of two the doubles are twice as dense, unless
    they are as dense as they can be. -/
def lowEnd (units : Nat) : Nat :=
  let step := spacing units
  if 1 < step && units == 1 <<< units.log2 then 4 * units - step
  else 4 * units - 2 * step

/-- The interval holds its ends. -/
def holdsEnds (units : Nat) : Bool := units / spacing units % 2 == 0

/-- The value `numerator / denominator` in quarter units lies in the
    interval. -/
def inInterval (units numerator denominator : Nat) : Bool :=
  let low := lowEnd units * denominator
  let high := highEnd units * denominator
  if holdsEnds units then low ≤ numerator && numerator ≤ high
  else low < numerator && numerator < high

/-- The best multiple of `10^k` that reads back as the double, if there is
    one. -/
def onGrid? (units : Nat) (k : Int) : Option Nat :=
  -- One grid step is `stepNum / stepDen` quarter units.
  let stepNum := Nat.pow 10 k.toNat * (4 * unitsPerOne)
  let stepDen := Nat.pow 10 (-k).toNat
  let value := 4 * units * stepDen
  let below := value / stepNum
  let above := below + 1
  match inInterval units (below * stepNum) stepDen,
      inInterval units (above * stepNum) stepDen with
  | true, false => some below
  | false, true => some above
  | false, false => none
  | true, true =>
    let down := value - below * stepNum
    let up := above * stepNum - value
    if down < up then some below
    else if up < down then some above
    else if below % 2 = 0 then some below
    else some above

/-- An exponent whose grid has no point near the value but zero, or one that is
    close to it. The value is below `2^(log2 - 1073)`, and `30103 / 100000` is
    the logarithm of 2 to base 10 up to less than the two that are added. -/
def coarsestExponent (units : Nat) : Int :=
  (Int.ofNat units.log2 - 1073) * 30103 / 100000 + 2

/-- The exponents of the grids to try, the coarsest first. A grid that cuts the
    value after 17 digits always has a decimal that reads back, and the last of
    these is finer. -/
def gridExponents (units : Nat) : List Int :=
  (List.range 24).map fun (i : Nat) => coarsestExponent units - Int.ofNat i

/-- The digits of the shortest decimal and the place of the last one. -/
def shortest (units : Nat) : Nat × Int :=
  ((gridExponents units).findSome? fun k => (onGrid? units k).map fun digits => (digits, k)).getD
    (0, 0)

/-- The text of an exponent: its sign and its digits. -/
def renderExponent (e : Int) : List Char :=
  'e' :: (if e < 0 then '-' else '+') :: Nat.toDigits 10 e.natAbs

/-- The text of a positive decimal with the given digits, the last one at
    `10^place`. -/
def layOut (digits : List Char) (place : Int) : List Char :=
  let lead := place + (digits.length - 1)
  if -5 ≤ lead && lead ≤ 15 then
    if 0 ≤ place then digits ++ List.replicate place.toNat '0' ++ ['.', '0']
    else if 0 ≤ lead then
      digits.take (lead.toNat + 1) ++ '.' :: digits.drop (lead.toNat + 1)
    else ['0', '.'] ++ List.replicate (-lead - 1).toNat '0' ++ digits
  else
    match digits with
    | [] => []
    | [d] => d :: renderExponent lead
    | d :: ds => d :: '.' :: ds ++ renderExponent lead

/-- The text of a double. -/
def render (x : Binary64) : List Char :=
  let magnitude :=
    if x.units = 0 then ['0', '.', '0']
    else
      let (digits, place) := shortest x.units
      layOut (Nat.toDigits 10 digits) place
  if x.negative then '-' :: magnitude else magnitude

end Binary64

end SourceMarkers
