/-!
# Binary numbers of 64 bits

The numbers with a fraction that occur in documents: a sign, a significand below 2^53 and a power of
two from -1074 to 971, or one of the special values. All arithmetic is exact on natural numbers,
followed by one rounding.

* `roundRatio`: the nearest significand for a quotient, with ties to the even one;
* `ofDecimal`: the number that a decimal numeral stands for;
* `add`: the rounded sum.
-/

namespace NestLint

/-- A binary number: `significand * 2 ^ exponent` with a sign, or a special value. -/
inductive Binary64 where
  | finite (negative : Bool) (significand : Nat) (exponent : Int)
  | infinite (negative : Bool)
  | notANumber
  deriving DecidableEq, Repr, Inhabited

namespace Binary64

/-- The least exponent. -/
def minExponent : Int := -1074

/-- The greatest exponent. -/
def maxExponent : Int := 971

/-- Zero with a sign. -/
def zero (negative : Bool) : Binary64 := .finite negative 0 minExponent

/-- `num / den` with the power of two `2 ^ e` moved from the quotient to the denominator: `num /
(den * 2 ^ e)`. -/
def scale (num den : Nat) (e : Int) : Nat × Nat :=
  if 0 ≤ e then (num, den * Nat.pow 2 e.toNat) else (num * Nat.pow 2 (-e).toNat, den)

/-- `num / den` to the nearest natural number, a half going to the even one. -/
def roundQuotient (num den : Nat) : Nat :=
  let q := num / den
  let r := num % den
  if den < 2 * r then q + 1
  else if 2 * r = den then q + q % 2
  else q

/-- The significand and exponent nearest to `num / den`, for positive `num` and `den`. -/
def roundRatio (num den : Nat) : Nat × Int :=
  let guess : Int := num.log2 - den.log2
  let top := let (n, d) := scale num den guess; if n < d then guess - 1 else guess
  let e := max (top - 52) minExponent
  let (n, d) := scale num den e
  let q := roundQuotient n d
  if q = Nat.pow 2 53 then (Nat.pow 2 52, e + 1) else (q, e)

/-- The number nearest to `num / den`, with a sign. -/
def ofRatio (negative : Bool) (num den : Nat) : Binary64 :=
  if num = 0 then zero negative
  else
    let (m, e) := roundRatio num den
    if maxExponent < e then .infinite negative
    else if m = 0 then zero negative
    else .finite negative m e

/-- The number of decimal digits of `n`. -/
def decimalLength (n : Nat) : Nat := (Nat.toDigits 10 n).length

/-- The number that `digits * 10 ^ exponent` stands for. Numerals far outside the range are settled
by their length, so that no huge power is ever computed. -/
def ofDecimal (negative : Bool) (digits : Nat) (exponent : Int) : Binary64 :=
  if digits = 0 then zero negative
  else
    let size := decimalLength digits + exponent
    if 400 < size then .infinite negative
    else if size < -400 then zero negative
    else if 0 ≤ exponent then ofRatio negative (digits * Nat.pow 10 exponent.toNat) 1
    else ofRatio negative digits (Nat.pow 10 (-exponent).toNat)

/-- The size of a finite number as a quotient. -/
def ratio (significand : Nat) (exponent : Int) : Nat × Nat :=
  if 0 ≤ exponent then (significand * Nat.pow 2 exponent.toNat, 1) else (significand, Nat.pow 2 (-exponent).toNat)

/-- The number nearest to an integer. -/
def ofInt (n : Int) : Binary64 := ofRatio (decide (n < 0)) n.natAbs 1

/-- The number nearest to the sum. Zeros of different signs add up to the positive one. -/
def add : Binary64 → Binary64 → Binary64
  | .notANumber, _ | _, .notANumber => .notANumber
  | .infinite s, .infinite t => if s = t then .infinite s else .notANumber
  | .infinite s, _ | _, .infinite s => .infinite s
  | .finite s m e, .finite t k f =>
    let low := min e f
    let signed (neg : Bool) (size : Nat) : Int := if neg then -size else size
    let sum := signed s (m * Nat.pow 2 (e - low).toNat) + signed t (k * Nat.pow 2 (f - low).toNat)
    if sum = 0 then zero (s && t)
    else
      let (num, den) := ratio sum.natAbs low
      ofRatio (decide (sum < 0)) num den

/-- Whether the number is zero. -/
def isZero : Binary64 → Bool
  | .finite _ m _ => m == 0
  | _ => false

/-- A finite number as a quotient with its sign. -/
def quotient (negative : Bool) (significand : Nat) (exponent : Int) : Int × Nat :=
  let (num, den) := ratio significand exponent
  (if negative then -num else num, den)

/-- Whether two numbers have the same value. The two zeros do; what is not a number is the same as
nothing. -/
def same : Binary64 → Binary64 → Bool
  | .infinite s, .infinite t => s == t
  | .finite s m e, .finite t k f =>
    let (a, b) := quotient s m e
    let (c, d) := quotient t k f
    a * d == c * b
  | _, _ => false

/-- Whether a number is less than another. What is not a number is neither less nor greater. -/
def less : Binary64 → Binary64 → Bool
  | .notANumber, _ | _, .notANumber => false
  | .infinite s, .infinite t => s && !t
  | .infinite s, _ => s
  | _, .infinite t => !t
  | .finite s m e, .finite t k f =>
    let (a, b) := quotient s m e
    let (c, d) := quotient t k f
    decide (a * d < c * b)

/-- A whole number without any rounding, however large it is. -/
def exactly (n : Int) : Binary64 := .finite (decide (n < 0)) n.natAbs 0

/-- Whether the number is a whole number. -/
def isInt (x : Binary64) (n : Int) : Bool :=
  match x with
  | .finite s m e => let (a, b) := quotient s m e; a == n * b
  | _ => false

end Binary64

end NestLint
