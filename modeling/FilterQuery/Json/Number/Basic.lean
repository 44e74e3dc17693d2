import FilterQuery.Double.Shortest

/-!
# JSON numbers

A number is an integer, kept exactly, or a double. Numbers are only carried from input to output:
they are read, written and compared with zero, and no other operation looks into them.

## Main definitions

* `Number.isZero`: the one question that lowering asks about a number;
* `Number.text`: the written form.
-/

namespace FilterQuery

/-- **JSON numbers.** Reading gives an integer for a literal without fraction and exponent that
fits 64 bits, signed or unsigned, and a double for every other literal. -/
inductive Number
  /-- An integer. -/
  | int (value : Int)
  /-- A finite binary64 number. -/
  | double (value : Double)
deriving DecidableEq

namespace Number

/-- Is the number zero? Both zeros of the doubles are. -/
def isZero : Number → Bool
  | .int value => value == 0
  | .double value => value.isZero

/-! ### Written form -/

/-- Decimals whose value is at least 1 have up to this many digits before the point. -/
def maxWholeDigits : Int := 16

/-- Decimals below 1 have up to this many zeros after the point before the first other digit. -/
def maxLeadingZeros : Int := 4

/-- An exponent with its sign. -/
def exponentText (exponent : Int) : String :=
  if exponent < 0 then s!"e-{exponent.natAbs}" else s!"e+{exponent.natAbs}"

/-- **Layout.** A decimal in positional form with at least one digit on both sides of the point,
or, where that form would be long, as a leading digit, the other digits after the point, and an
exponent. -/
def decimalText (x : Decimal) : String :=
  let digits := Nat.toDigits 10 x.digits
  let point : Int := digits.length + x.power
  let zeros (n : Int) := List.replicate n.toNat '0'
  if 0 ≤ x.power ∧ point ≤ maxWholeDigits then
    .ofList (digits ++ zeros x.power ++ ['.', '0'])
  else if 0 < point ∧ point ≤ maxWholeDigits then
    .ofList (digits.take point.toNat ++ '.' :: digits.drop point.toNat)
  else if -maxLeadingZeros ≤ point ∧ point ≤ 0 then
    .ofList ('0' :: '.' :: zeros (-point) ++ digits)
  else
    let fraction := if digits.length ≤ 1 then [] else '.' :: digits.drop 1
    .ofList (digits.take 1 ++ fraction) ++ exponentText (point - 1)

/-- A double as the shortest decimal that reads back, with its sign. -/
def doubleText (x : Double) : String :=
  let magnitude := if x.isZero then "0.0" else decimalText x.shortest
  if x.negative then "-" ++ magnitude else magnitude

/-- **Written form.** An integer in decimal digits, a double in its shortest form. -/
def text : Number → String
  | .int value => toString value
  | .double value => doubleText value

end Number

end FilterQuery
