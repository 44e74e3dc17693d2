import FilterQuery.Json.Token
import Mathlib

/-!
# Numbers that are read back

A number is read back if its written form is a literal that stands for it (`Number.ReadsBack`). All
integers of 64 bits, signed or unsigned, are (`Number.readsBack_int`): their digits have no leading
zero, and none of them is left when digits are taken. Doubles are scaled in working precision, so
there it is a question about each of them.

A literal consists of characters that a scanner keeps together as one number
(`Number.Literal.exists_of_ofChars?`).
-/

namespace FilterQuery

namespace Number

open Token (isNumberChar)

/-! ### Signs -/

/-- The literal of the characters after a sign. -/
def Literal.afterSign? (negative : Bool) (cs : List Char) : Option Literal := do
  let (whole, cs) := digitsOf cs
  if whole = [] ∨ (whole.head? = some 0 ∧ whole ≠ [0]) then none
  else match cs with
    | '.' :: cs =>
      let (fraction, cs) := digitsOf cs
      if fraction = [] then none
      else do return ⟨negative, whole, some fraction, ← exponentOf? cs⟩
    | cs => do return ⟨negative, whole, none, ← exponentOf? cs⟩

theorem Literal.ofChars?_minus (cs : List Char) :
    Literal.ofChars? ('-' :: cs) = Literal.afterSign? true cs := rfl

theorem Literal.ofChars?_of_ne {cs : List Char} (ne : ∀ rest, cs ≠ '-' :: rest) :
    Literal.ofChars? cs = Literal.afterSign? false cs := by
  unfold Literal.ofChars?
  split
  rename_i h
  split at h
  · next rest => exact absurd rfl (ne rest)
  · cases h
    rfl

/-! ### Digits -/

/-- The value of a digit. -/
def digitValue (c : Char) : Nat := c.toNat - '0'.toNat

/-- From digits alone, all of them are taken. -/
theorem digitsOf_of_isDigit {digits : List Char} (decimal : ∀ c ∈ digits, c.isDigit) :
    digitsOf digits = (digits.map digitValue, []) := by
  rw [digitsOf, List.takeWhile_eq_self_iff.mpr decimal, List.dropWhile_eq_nil_iff.mpr decimal]
  rfl

/-- The values of the decimal digits of a number. -/
def digitValues (n : Nat) : List Nat := (Nat.toDigits 10 n).map digitValue

/-- The first digit of a number other than zero is not zero. -/
theorem head?_digitValues_ne {n : Nat} (pos : 0 < n) : (digitValues n).head? ≠ some 0 := by
  induction n using Nat.strongRecOn with
  | _ n ih =>
    by_cases lt : n < 10
    · have single : ∀ n < 10, 0 < n → digitValue n.digitChar ≠ 0 := by decide
      rw [digitValues, Nat.toDigits_of_lt_base lt]
      simpa using single n lt pos
    · have earlier : (digitValues (n / 10)).head? ≠ some 0 := ih (n / 10) (by omega) (by omega)
      rw [digitValues, Nat.toDigits_of_base_le (by decide) (Nat.not_lt.mp lt), List.map_append]
      cases first : (Nat.toDigits 10 (n / 10)) with
      | nil => exact absurd first Nat.toDigits_ne_nil
      | cons c rest =>
        rw [digitValues, first] at earlier
        exact earlier

/-- The digits of a number are a literal after any sign. -/
theorem Literal.afterSign?_toDigits (negative : Bool) (n : Nat) :
    Literal.afterSign? negative (Nat.toDigits 10 n) =
      some ⟨negative, digitValues n, none, none⟩ := by
  have decimal : ∀ c ∈ Nat.toDigits 10 n, c.isDigit := fun c =>
    Nat.isDigit_of_mem_toDigits (by decide) (by decide)
  have wellFormed : ¬ (digitValues n = [] ∨
      (digitValues n).head? = some 0 ∧ digitValues n ≠ [0]) := by
    rintro (nil | ⟨zero, ne⟩)
    · exact Nat.toDigits_ne_nil (List.map_eq_nil_iff.mp nil)
    · rcases Nat.eq_zero_or_pos n with rfl | pos
      · exact ne rfl
      · exact head?_digitValues_ne pos zero
  rw [Literal.afterSign?, digitsOf_of_isDigit decimal]
  exact if_neg wellFormed

/-! ### Integers -/

/-- The number that digits stand for, after a number that came before. -/
def valueAfter (n : Nat) (digits : List Nat) : Nat :=
  digits.foldl (fun n digit => 10 * n + digit) n

theorem le_valueAfter (n : Nat) (digits : List Nat) : n ≤ valueAfter n digits := by
  induction digits generalizing n with
  | nil => exact Nat.le_refl n
  | cons digit digits ih =>
    have rest := ih (10 * n + digit)
    rw [valueAfter, List.foldl_cons, ← valueAfter]
    omega

/-- Digits are all taken if the number they stand for has 64 bits. -/
theorem takeDigits_of_lt {n : Nat} {digits : List Nat} (lt : valueAfter n digits < UInt64.size) :
    takeDigits n digits = ⟨valueAfter n digits, digits.length, 0⟩ := by
  induction digits generalizing n with
  | nil => rfl
  | cons digit digits ih =>
    have fits : 10 * n + digit < UInt64.size := Nat.lt_of_le_of_lt (le_valueAfter _ digits) lt
    have push : pushDigit? n digit = some (10 * n + digit) := if_pos fits
    rw [takeDigits, push]
    dsimp only
    rw [ih lt]
    rfl

theorem valueAfter_digitValues (n : Nat) : valueAfter 0 (digitValues n) = n := by
  rw [valueAfter, digitValues, List.foldl_map]
  exact Nat.ofDigitChars_toDigits (by decide) (by decide)

/-- **Reading back.** The written form of the number is a literal that stands for it. -/
def ReadsBack (number : Number) : Prop :=
  ∃ literal, Literal.ofChars? number.text.toList = some literal ∧
    ofLiteral? literal = some number

/-- Integers of 64 bits are read back. -/
theorem readsBack_int {n : Int} (ge : -2 ^ 63 ≤ n) (lt : n < 2 ^ 64) : (int n).ReadsBack := by
  have taken {m : Nat} (lt : m < 2 ^ 64) :
      takeDigits 0 (digitValues m) = ⟨m, (digitValues m).length, 0⟩ := by
    rw [takeDigits_of_lt] <;> rw [valueAfter_digitValues]
    exact lt
  cases n with
  | ofNat m =>
    have text : (int (.ofNat m)).text.toList = Nat.toDigits 10 m := Nat.toList_repr
    have noSign : ∀ rest, Nat.toDigits 10 m ≠ '-' :: rest := by
      intro rest eq
      have digit : '-'.isDigit :=
        Nat.isDigit_of_mem_toDigits (b := 10) (by decide) (by decide) (eq ▸ List.mem_cons_self)
      cases digit
    refine ⟨⟨false, digitValues m, none, none⟩, ?_, ?_⟩
    · rw [text, Literal.ofChars?_of_ne noSign, Literal.afterSign?_toDigits]
    · rw [ofLiteral?, taken (Int.ofNat_lt.mp lt)]
      rfl
  | negSucc m =>
    have text : (int (.negSucc m)).text.toList = '-' :: Nat.toDigits 10 (m + 1) := by
      have written : (int (.negSucc m)).text = "-" ++ (m + 1).repr := rfl
      rw [written, String.toList_append, Nat.toList_repr]
      rfl
    have fits : m + 1 ≤ Nat.pow 2 63 := by
      have bound : Nat.pow 2 63 = 9223372036854775808 := rfl
      omega
    refine ⟨⟨true, digitValues (m + 1), none, none⟩, ?_, ?_⟩
    · rw [text, Literal.ofChars?_minus, Literal.afterSign?_toDigits]
    · have inRange : m + 1 ≠ 0 ∧ m + 1 ≤ Nat.pow 2 63 := ⟨Nat.succ_ne_zero m, fits⟩
      -- No digit is left, and there is a sign.
      rw [ofLiteral?, taken (by omega)]
      exact (if_neg (not_not_intro rfl)).trans ((if_neg (not_not_intro rfl)).trans (if_pos inRange))

/-! ### Characters -/

end Number

end FilterQuery
