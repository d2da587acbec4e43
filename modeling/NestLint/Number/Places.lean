import NestLint.Number.Shortest

/-!
# Numbers with a given number of digits

A number rounded to so many digits, and written by position or with an exponent. All rounding is to
the nearest, a tie going to the even digit, and happens once, from the exact value.

* `length_wholeDigits`: digits are filled up with zeros, never cut off.
-/

namespace NestLint.Binary64

/-- The digits of a natural number, at least `n` of them. -/
def wholeDigits (n value : Nat) : List Char :=
  let digits := Nat.toDigits 10 value
  List.replicate (n - digits.length) '0' ++ digits

/-- Digits with a point before the last `places` ones. Without places there is a point only if it is
`kept`. -/
def pointed (kept : Bool) (places : Nat) (digits : List Char) : List Char :=
  let whole := digits.take (digits.length - places)
  if places = 0 then (if kept then whole ++ ['.'] else whole) else whole ++ '.' :: digits.drop (digits.length - places)

/-- A quotient with `places` digits behind the point. -/
def fixed (kept : Bool) (places num den : Nat) : List Char :=
  pointed kept places (wholeDigits (places + 1) (roundQuotient (num * Nat.pow 10 places) den))

/-- The first `places + 1` digits of a quotient, rounded, and the exponent of the first one. -/
def leading (places num den : Nat) : Nat × Int :=
  if num = 0 then (0, 0)
  else
    let exponent := firstPlace num den - 1
    let shift := (places : Int) - exponent
    let n := if 0 ≤ shift then roundQuotient (num * Nat.pow 10 shift.toNat) den
      else roundQuotient num (den * Nat.pow 10 (-shift).toNat)
    if n = Nat.pow 10 (places + 1) then (Nat.pow 10 places, exponent + 1) else (n, exponent)

/-- An exponent: the letter, the sign, and at least two digits. -/
def exponentText (exponent : Int) : List Char :=
  'e' :: (if exponent < 0 then '-' else '+') :: wholeDigits 2 exponent.natAbs

/-- A quotient with one digit before the point, `places` behind it, and an exponent. -/
def scientific (kept : Bool) (places num den : Nat) : List Char :=
  let (n, exponent) := leading places num den
  pointed kept places (wholeDigits (places + 1) n) ++ exponentText exponent

/-- Without the zeros at the end of the places, and without a point that nothing follows. -/
def withoutZeros (digits : List Char) : List Char :=
  if digits.contains '.' then ((digits.reverse.dropWhile (· == '0')).dropWhile (· == '.')).reverse else digits

/-- A quotient with `size` digits that count, by position unless it is very large or very small.
Zeros at the end are written only if they are `kept`. -/
def general (kept : Bool) (size num den : Nat) : List Char :=
  let size := max size 1
  let (n, exponent) := leading (size - 1) num den
  let trimmed (digits : List Char) := if kept then digits else withoutZeros digits
  if -4 ≤ exponent ∧ exponent < size then trimmed (fixed kept (size - 1 - exponent).toNat num den)
  else trimmed (pointed kept (size - 1) (wholeDigits size n)) ++ exponentText exponent

theorem length_wholeDigits (n value : Nat) : n ≤ (wholeDigits n value).length := by
  simp [wholeDigits]; omega

end NestLint.Binary64
