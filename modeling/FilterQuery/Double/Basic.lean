/-!
# Finite binary64 numbers

A `Double` is a finite IEEE 754 binary64 number, given by its sign, its mantissa and its
exponent: it stands for `± mantissa · 2 ^ exponent`. The representation is canonical, so equal
numbers are equal terms; the two zeros differ by their sign. Infinities and NaN are no values of
the type.

Every operation is exact rational arithmetic followed by one rounding, `Double.nearest?`, to the
nearest number (a tie goes to the even mantissa). An operation answers `none` when the rounded
result would lie beyond the greatest finite number.
-/

namespace FilterQuery

/-- **Finite doubles.** `± mantissa · 2 ^ exponent`, with the mantissa in 53 bits and as long as
the exponent admits. -/
structure Double where
  /-- Is there a minus sign? -/
  negative : Bool
  /-- The significant bits. -/
  mantissa : Nat
  /-- The power of two of the last significant bit. -/
  exponent : Int
  /-- The mantissa fits 53 bits. -/
  mantissa_lt : mantissa < Nat.pow 2 53
  /-- The exponent is not below the least one. -/
  le_exponent : -1074 ≤ exponent
  /-- The exponent is not above the greatest one. -/
  exponent_le : exponent ≤ 971
  /-- The mantissa has all 53 bits, unless the exponent is the least one. -/
  canonical : exponent = -1074 ∨ Nat.pow 2 52 ≤ mantissa
deriving DecidableEq

namespace Double

/-- The zero of a sign. -/
def zero (negative : Bool) : Double :=
  ⟨negative, 0, -1074, by decide, by decide, by decide, .inl rfl⟩

instance : Inhabited Double := ⟨zero false⟩

/-- Is the number one of the two zeros? -/
def isZero (x : Double) : Bool := x.mantissa == 0

/-- The number with a minus sign in place of its sign. -/
def withMinus (x : Double) : Double := { x with negative := true }

/-- The number without its sign. -/
def abs (x : Double) : Double := { x with negative := false }

/-- The number of given parts, when they are the parts of a finite double. -/
def ofParts? (negative : Bool) (mantissa : Nat) (exponent : Int) : Option Double :=
  if h : mantissa < Nat.pow 2 53 ∧ -1074 ≤ exponent ∧ exponent ≤ 971 ∧
      (exponent = -1074 ∨ Nat.pow 2 52 ≤ mantissa) then
    some ⟨negative, mantissa, exponent, h.1, h.2.1, h.2.2.1, h.2.2.2⟩
  else none

/-! ### Rounding -/

/-- The quotient rounded to the nearest natural number, a tie to the even one. -/
def roundQuotient (n d : Nat) : Nat :=
  let q := n / d
  match compare (2 * (n % d)) d with
  | .lt => q
  | .gt => q + 1
  | .eq => if q % 2 = 0 then q else q + 1

/-- The rounded quotient is no further than one half from the quotient. -/
theorem roundQuotient_near (n : Nat) {d : Nat} (pos : 0 < d) :
    2 * (roundQuotient n d * d) ≤ 2 * n + d ∧ 2 * n ≤ 2 * (roundQuotient n d * d) + d := by
  have whole : n / d * d + n % d = n := Nat.div_add_mod' n d
  have rest : n % d < d := Nat.mod_lt n pos
  have next : (n / d + 1) * d = n / d * d + d := Nat.succ_mul ..
  rw [roundQuotient]
  split
  · next h => rw [Nat.compare_eq_lt] at h; omega
  · next h => rw [Nat.compare_eq_gt] at h; omega
  · next h =>
    rw [Nat.compare_eq_eq] at h
    split <;> omega

/-- The fraction `n / d` times a power of two, as numerator and denominator. -/
def scaleFraction (n d : Nat) (power : Int) : Nat × Nat :=
  if 0 ≤ power then (n * Nat.pow 2 power.toNat, d)
  else (n, d * Nat.pow 2 (-power).toNat)

/-- The integer part of the binary logarithm of the positive fraction `n / d`. -/
def floorLog2 (n d : Nat) : Int :=
  let estimate : Int := n.log2 - d.log2
  let (n', d') := scaleFraction n d (-estimate)
  if d' ≤ n' then estimate else estimate - 1

/-- **Rounding.** The double nearest to the fraction `n / d`, a tie to the even mantissa; `none`
beyond the greatest double. -/
def nearest? (n d : Nat) : Option Double :=
  if n = 0 then some (zero false)
  else
    let exponent := max (-1074) (floorLog2 n d - 52)
    let (n', d') := scaleFraction n d (-exponent)
    let mantissa := roundQuotient n' d'
    if mantissa = Nat.pow 2 53 then ofParts? false (Nat.pow 2 52) (exponent + 1)
    else ofParts? false mantissa exponent

/-! ### Arithmetic on magnitudes -/

/-- The rounded product of two magnitudes. -/
def mul? (x y : Double) : Option Double :=
  let (n, d) := scaleFraction (x.mantissa * y.mantissa) 1 (x.exponent + y.exponent)
  nearest? n d

/-- The rounded quotient of two magnitudes. -/
def div? (x y : Double) : Option Double :=
  let (n, d) := scaleFraction x.mantissa y.mantissa (x.exponent - y.exponent)
  nearest? n d

/-! ### Decimal scaling -/

/-- The greatest power of ten that is a double has this exponent. -/
def maxTenPower : Nat := 308

/-- Divides by the greatest power of ten, the given number of times or until nothing is left. -/
def shrink : Nat → Double → Option Double
  | 0, x => some x
  | steps + 1, x =>
    if x.isZero then some x
    else do shrink steps (← x.div? (← nearest? (Nat.pow 10 maxTenPower) 1))

/-- **Decimal scaling.** The magnitude of `significand · 10 ^ exponent` in working precision: the
significand is rounded, then multiplied or divided by rounded powers of ten. For exponents
beyond the powers of ten that are doubles, a division takes several steps; a nonzero significand
that would have to grow by more than the greatest power is out of range. -/
def ofDecimal? (significand : Nat) (exponent : Int) : Option Double := do
  let x ← nearest? significand 1
  if 0 ≤ exponent then
    let power := exponent.toNat
    if power ≤ maxTenPower then x.mul? (← nearest? (Nat.pow 10 power) 1)
    else if x.isZero then some x
    else none
  else
    let power := (-exponent).toNat
    let steps := (power - 1) / maxTenPower
    let shrunk ← shrink steps x
    if shrunk.isZero then some shrunk
    else shrunk.div? (← nearest? (Nat.pow 10 (power - steps * maxTenPower)) 1)

end Double

end FilterQuery
