import FilterQuery.Double.Basic

/-!
# Shortest decimals of doubles

The decimal text of a double has the fewest digits that still round to the double, and among the
decimals with that many digits it is the one nearest to it, a tie going to the even digit.

The reals that round to `mantissa · 2 ^ exponent` form an interval; its ends belong to it exactly
if the mantissa is even. A grid of decimals `c · 10 ^ power` that meets the interval meets it in
one of the two grid points next to the number, so `Double.shortest` tries these two points on
finer and finer grids, in exact arithmetic. Seventeen digits always suffice.
-/

namespace FilterQuery

/-- **Decimals.** The number `digits · 10 ^ power`. -/
structure Decimal where
  /-- The significant digits, read as a number. -/
  digits : Nat
  /-- The power of ten of the last digit. -/
  power : Int
deriving DecidableEq, Repr

/-- The same number without trailing zeros among at most `steps` digits. -/
def Decimal.strip : Nat → Decimal → Decimal
  | 0, x => x
  | steps + 1, x =>
    if x.digits ≠ 0 ∧ x.digits % 10 = 0 then strip steps ⟨x.digits / 10, x.power + 1⟩ else x

namespace Double

/-- The number of decimal digits of a natural number. -/
def digitCount (n : Nat) : Nat := (Nat.toDigits 10 n).length

/-- The integer part of the decimal logarithm of the positive fraction `n / d`. -/
def floorLog10 (n d : Nat) : Int :=
  if d ≤ n then digitCount (n / d) - 1
  else
    let above := (d + n - 1) / n
    Int.negOfNat (digitCount (above - 1))

/-- **Rounding intervals.** The reals that round to a double, in quarters of its last significant
bit: the lower end, the number itself, the upper end. -/
def interval (x : Double) : Nat × Nat × Nat :=
  let lowerGap := if x.mantissa = Nat.pow 2 52 ∧ x.exponent ≠ -1074 then 1 else 2
  (4 * x.mantissa - lowerGap, 4 * x.mantissa, 4 * x.mantissa + 2)

/-- The grid point `c · 10 ^ power` next to the number that rounds to it, if there is one; of two,
the nearer, and of two equally near ones the even. -/
def onGrid? (x : Double) (power : Int) : Option Nat :=
  let (lower, middle, upper) := x.interval
  let (bitNum, bitDen) := scaleFraction 1 1 (x.exponent - 2)
  let (gridNum, gridDen) :=
    if 0 ≤ power then (Nat.pow 10 power.toNat, 1) else (1, Nat.pow 10 (-power).toNat)
  let unit := bitNum * gridDen
  let step := gridNum * bitDen
  let below := middle * unit / step
  let rounds (c : Nat) : Bool :=
    if x.mantissa % 2 = 0 then lower * unit ≤ c * step && c * step ≤ upper * unit
    else lower * unit < c * step && c * step < upper * unit
  match rounds below, rounds (below + 1) with
  | false, false => none
  | true, false => some below
  | false, true => some (below + 1)
  | true, true =>
    match compare (middle * unit - below * step) ((below + 1) * step - middle * unit) with
    | .lt => some below
    | .gt => some (below + 1)
    | .eq => some (if below % 2 = 0 then below else below + 1)

/-- **Shortest decimals.** The decimal of fewest digits that rounds to the magnitude of a nonzero
double, and of these the nearest to it. -/
def shortest (x : Double) : Decimal :=
  let (n, d) := scaleFraction x.mantissa 1 x.exponent
  let leading := floorLog10 n d
  let found := (List.range 17).findSome? fun (finer : Nat) =>
    let power := leading - finer
    (x.onGrid? power).map (Decimal.mk · power)
  (found.getD ⟨0, 0⟩).strip 17

end Double

end FilterQuery
