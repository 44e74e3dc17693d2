import FilterQuery.Json.Number.Basic

/-!
# Number literals

A literal is an optional minus sign, a whole part without leading zeros, an optional fraction and
an optional exponent. `Number.Literal.ofChars?` recognises the form and `Number.ofLiteral?` gives
its value.

A value that is no exact integer is read in working precision. The significand takes digits as
long as it fits 64 bits. Whole digits that no longer fit only raise the power of ten; fraction
digits that no longer fit are dropped. What remains is scaled by `Double.ofDecimal?`.
-/

namespace FilterQuery

namespace Number

/-- **Literals.** The parts of a number as written, digits as their values. -/
structure Literal where
  /-- Is there a minus sign? -/
  negative : Bool
  /-- The digits before the point. -/
  whole : List Nat
  /-- The digits after the point, if there is one. -/
  fraction : Option (List Nat)
  /-- The exponent, if there is one. -/
  exponent : Option Int
deriving DecidableEq

/-! ### Form -/

/-- The values of the leading digits, and the rest. -/
def digitsOf (cs : List Char) : List Nat × List Char :=
  ((cs.takeWhile Char.isDigit).map fun c => c.toNat - '0'.toNat, cs.dropWhile Char.isDigit)

/-- The number that a list of digits denotes. -/
def ofDigits (digits : List Nat) : Nat := digits.foldl (fun n digit => 10 * n + digit) 0

/-- The exponent part of a literal, which ends it. -/
def exponentOf? : List Char → Option (Option Int)
  | [] => some none
  | mark :: cs =>
    if mark = 'e' ∨ mark = 'E' then
      let (negative, cs) := match cs with
        | '-' :: cs => (true, cs)
        | '+' :: cs => (false, cs)
        | cs => (false, cs)
      match digitsOf cs with
      | ([], _) => none
      | (digits, []) =>
        let size : Int := ofDigits digits
        some (some (if negative then -size else size))
      | _ => none
    else none

/-- The literal that the characters form, if they form one. -/
def Literal.ofChars? (cs : List Char) : Option Literal := do
  let (negative, cs) := match cs with
    | '-' :: cs => (true, cs)
    | cs => (false, cs)
  let (whole, cs) := digitsOf cs
  if whole = [] ∨ (whole.head? = some 0 ∧ whole ≠ [0]) then none
  else match cs with
    | '.' :: cs =>
      let (fraction, cs) := digitsOf cs
      if fraction = [] then none
      else do return ⟨negative, whole, some fraction, ← exponentOf? cs⟩
    | cs => do return ⟨negative, whole, none, ← exponentOf? cs⟩

/-! ### Value -/

/-- **Significands.** The digits that were taken, as a number, and how many were not. -/
structure Significand where
  /-- The digits that were taken. -/
  value : Nat
  /-- How many digits were taken. -/
  taken : Nat
  /-- How many digits were left. -/
  left : Nat
deriving DecidableEq

/-- The number with one more digit, if it still fits 64 bits. -/
def pushDigit? (n digit : Nat) : Option Nat :=
  let next := 10 * n + digit
  if next < UInt64.size then some next else none

/-- Takes digits onto a number until one does not fit. -/
def takeDigits (n : Nat) : List Nat → Significand
  | [] => ⟨n, 0, 0⟩
  | digit :: digits =>
    match pushDigit? n digit with
    | none => ⟨n, 0, digits.length + 1⟩
    | some next =>
      let s := takeDigits next digits
      { s with taken := s.taken + 1 }

/-- The double of a significand, a power of ten and a sign; `none` out of range. -/
def scaled? (negative : Bool) (significand : Nat) (power : Int) : Option Number := do
  let x ← Double.ofDecimal? significand power
  return .double (if negative then x.withMinus else x)

/-- **Values.** The number that a literal stands for; `none` for one beyond the range of the
doubles. -/
def ofLiteral? (l : Literal) : Option Number :=
  let whole := takeDigits 0 l.whole
  match l.fraction, l.exponent with
  | none, none =>
    if whole.left ≠ 0 then scaled? l.negative whole.value whole.left
    else if ¬ l.negative then some (.int whole.value)
    else if whole.value ≠ 0 ∧ whole.value ≤ Nat.pow 2 63 then some (.int (-whole.value))
    else scaled? true whole.value 0
  | fraction, exponent =>
    let s := takeDigits whole.value (fraction.getD [])
    scaled? l.negative s.value (whole.left - s.taken + exponent.getD 0)

end Number

end FilterQuery
