import NestLint.Number.Binary64

/-!
# The shortest decimal that reads back

A number is written with the fewest decimal digits from which it can be read back; of two such
numerals of one length the nearer one is taken, and of two equally near ones the even one. `layout`
then places the decimal point.

* `readsBack_shortest`: what is written is read back as the same number.
-/

namespace NestLint.Binary64

/-- A decimal numeral `digits * 10 ^ exponent`. -/
structure Numeral where
  digits : Nat
  exponent : Int
  deriving DecidableEq, Repr

/-- Whether reading the numeral gives the number back. -/
def readsBack (m : Nat) (e : Int) (numeral : Numeral) : Bool :=
  ofDecimal false numeral.digits numeral.exponent == .finite false m e

/-- The place of the first digit of a positive quotient: the least `p` with `num / den < 10 ^ p`. -/
def firstPlace (num den : Nat) : Int :=
  if den ≤ num then decimalLength (num / den)
  else
    let p : Int := 1 - decimalLength (den / num)
    if num * Nat.pow 10 (1 - p).toNat < den then p - 1 else p

/-- The two numerals of `n` digits around a positive quotient, the nearer one first. -/
def neighbours (num den n : Nat) : List Numeral :=
  let exponent := firstPlace num den - n
  let (a, b) :=
    if 0 ≤ exponent then (num, den * Nat.pow 10 exponent.toNat) else (num * Nat.pow 10 (-exponent).toNat, den)
  let q := a / b
  let r := a % b
  let below : Numeral := ⟨q, exponent⟩
  let above : Numeral := ⟨q + 1, exponent⟩
  if 2 * r < b || (2 * r == b && q % 2 == 0) then [below, above] else [above, below]

/-- All digits of a finite number. -/
def allDigits (m : Nat) (e : Int) : Numeral :=
  if 0 ≤ e then ⟨m * Nat.pow 2 e.toNat, 0⟩ else ⟨m * Nat.pow 5 (-e).toNat, e⟩

/-- The shortest numeral that reads back, if one of at most 17 digits does, and all digits
otherwise. -/
def shortest (m : Nat) (e : Int) : Numeral :=
  let (num, den) := ratio m e
  let candidates := (List.range 17).flatMap fun n => neighbours num den (n + 1)
  (candidates.find? (readsBack m e)).getD (allDigits m e)

/-- The digits of a numeral without zeros at the end, and the place of the decimal point counted
from the first digit. -/
def significant (numeral : Numeral) : List Char × Int :=
  let digits := Nat.toDigits 10 numeral.digits
  ((digits.reverse.dropWhile (· == '0')).reverse, digits.length + numeral.exponent)

/-- Digits with a decimal point: positional from 0.0001 up to below 10^16, with an exponent of at
least two digits elsewhere. A number without a fraction keeps one zero behind the point in
positional form. -/
def layout (digits : List Char) (point : Int) : List Char :=
  if -4 < point && point ≤ 16 then
    if point ≤ 0 then '0' :: '.' :: List.replicate (-point).toNat '0' ++ digits
    else if digits.length ≤ point.toNat then
      digits ++ List.replicate (point.toNat - digits.length) '0' ++ ['.', '0']
    else digits.take point.toNat ++ '.' :: digits.drop point.toNat
  else
    let power := point - 1
    let size := Nat.toDigits 10 power.natAbs
    let exponent := 'e' :: (if power < 0 then '-' else '+') :: (if size.length < 2 then '0' :: size else size)
    match digits with
    | [d] => d :: exponent
    | d :: rest => d :: '.' :: rest ++ exponent
    | [] => exponent

/-- How a number is written in a message. -/
def text : Binary64 → String
  | .notANumber => "nan"
  | .infinite negative => if negative then "-inf" else "inf"
  | .finite negative m e =>
    let body := if m = 0 then ['0', '.', '0'] else
      let (digits, point) := significant (shortest m e)
      layout digits point
    String.ofList (if negative then '-' :: body else body)

theorem readsBack_shortest {m : Nat} {e : Int} (h : readsBack m e (allDigits m e) = true) :
    readsBack m e (shortest m e) = true := by
  simp only [shortest]
  cases hf : List.find? (readsBack m e) _ with
  | none => exact h
  | some numeral => exact List.find?_some hf

end NestLint.Binary64
