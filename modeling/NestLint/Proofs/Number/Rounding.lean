import Mathlib.Algebra.Order.Field.Power
import Mathlib.Data.Int.Log
import Mathlib.Data.Rat.Floor
import Mathlib.Tactic.NormNum
import Mathlib.Tactic.Positivity
import Mathlib.Tactic.Ring
import NestLint.Number.Shortest

/-!
# Rounding

Rounding depends on the value of a quotient alone, whatever its parts are, and a value that is a number already is
not changed. A decimal numeral is a quotient, so two numerals of the same value are read as the same number; and
since all digits of a number are its exact value, the numeral that is written for it is read as that number.

* `Fits`, `Canonical`: the numbers as they are kept;
* `roundRatio_congr`, `roundRatio_of_fits`: rounding by value;
* `canonical_ofRatio`, `canonical_ofDecimal`: what comes of rounding;
* `ofDecimal_congr`: numerals by value;
* `ofDecimal_shortest`: what is written for a number.
-/

namespace NestLint.Binary64

/-- The significand is below 2^53 and the exponent within its range, and the significand is no smaller than 2^52
unless the exponent is the least one. -/
structure Fits (m : Nat) (e : Int) : Prop where
  lt : m < 2 ^ 53
  least : minExponent ≤ e
  greatest : e ≤ maxExponent
  full : 2 ^ 52 ≤ m ∨ e = minExponent

/-- The number is kept as every number is: by a significand and an exponent that fit. -/
def Canonical : Binary64 → Prop
  | .finite _ m e => Fits m e
  | _ => True

theorem canonical_zero (negative : Bool) : (zero negative).Canonical :=
  ⟨by decide, Int.le_refl _, by decide, .inr rfl⟩

/-! ## Quotients by value -/

section Quotients

variable {a b c d num den m : Nat} {e : Int}

theorem pow_toNat {b : Nat} (h : 0 ≤ e) : ((Nat.pow b e.toNat : Nat) : ℚ) = (b : ℚ) ^ e := by
  rw [Nat.pow_eq, Nat.cast_pow, ← zpow_natCast, Int.toNat_of_nonneg h]

theorem pow_neg_toNat {b : Nat} (h : e < 0) : ((Nat.pow b (-e).toNat : Nat) : ℚ) = ((b : ℚ) ^ e)⁻¹ := by
  rw [pow_toNat (by omega), zpow_neg]

theorem scale_pos (h : 0 < den) : 0 < (scale num den e).2 := by
  rw [scale]
  split
  · exact Nat.mul_pos h (Nat.pow_pos (by decide))
  · exact h

/-- Scaling divides the value by the power of two. -/
theorem scale_value (num den : Nat) (e : Int) :
    ((scale num den e).1 : ℚ) / (scale num den e).2 = num / den / 2 ^ e := by
  rw [scale]
  split
  · rename_i h
    rw [Nat.cast_mul, pow_toNat h, div_div]
    rfl
  · rename_i h
    rw [Nat.cast_mul, pow_neg_toNat (by omega), div_right_comm]
    rfl

theorem div_eq_div_iff_mul (hb : 0 < b) (hd : 0 < d) : (a : ℚ) / b = c / d ↔ a * d = c * b := by
  rw [div_eq_div_iff (by positivity) (by positivity)]
  exact_mod_cast Iff.rfl

theorem roundQuotient_mul (num den : Nat) {k : Nat} (hk : 0 < k) :
    roundQuotient (k * num) (k * den) = roundQuotient num den := by
  have hcompare : ∀ x y : Nat, k * x < 2 * (k * y) ↔ x < 2 * y := by
    intro x y
    rw [Nat.mul_left_comm, Nat.mul_lt_mul_left hk]
  have hsame : ∀ x y : Nat, 2 * (k * y) = k * x ↔ 2 * y = x := by
    intro x y
    rw [Nat.mul_left_comm, Nat.mul_right_inj (by omega)]
  simp only [roundQuotient, Nat.mul_div_mul_left _ _ hk, Nat.mul_mod_mul_left, hcompare, hsame]

theorem roundQuotient_congr (hb : 0 < b) (hd : 0 < d) (h : (a : ℚ) / b = c / d) :
    roundQuotient a b = roundQuotient c d := by
  rw [div_eq_div_iff_mul hb hd] at h
  rw [← roundQuotient_mul a b hd, ← roundQuotient_mul c d hb, Nat.mul_comm d a, h, Nat.mul_comm c b, Nat.mul_comm d b]

/-- A whole value is not rounded. -/
theorem roundQuotient_of_whole (hb : 0 < b) (h : (a : ℚ) / b = m) : roundQuotient a b = m := by
  have hone : (a : ℚ) / b = m / (1 : Nat) := by rw [h, Nat.cast_one, div_one]
  rw [roundQuotient_congr hb Nat.one_pos hone]
  simp [roundQuotient, Nat.mod_one]

theorem roundQuotient_le (a b : Nat) : a / b ≤ roundQuotient a b ∧ roundQuotient a b ≤ a / b + 1 := by
  simp only [roundQuotient]
  split
  · omega
  · split <;> omega

end Quotients

/-! ## The place of the first digit -/

section Places

variable {b : Nat} {q : ℚ}

theorem log_eq_iff (hb : 1 < b) (hq : 0 < q) (t : Int) : Int.log b q = t ↔ (b : ℚ) ^ t ≤ q ∧ q < (b : ℚ) ^ (t + 1) := by
  rw [Int.zpow_le_iff_le_log hb hq, Int.lt_zpow_iff_log_lt hb hq]
  omega

/-- The value of a quotient lies between the quotients of powers of two around its parts. -/
theorem zpow_log2_sub_lt {num den : Nat} (hnum : 0 < num) (hden : 0 < den) :
    (2 : ℚ) ^ ((num.log2 : Int) - den.log2 - 1) < num / den ∧
      (num / den : ℚ) < 2 ^ ((num.log2 : Int) - den.log2 + 1) := by
  have hd : (0 : ℚ) < den := Nat.cast_pos.2 hden
  have hn₁ : (2 : ℚ) ^ num.log2 ≤ num := by exact_mod_cast Nat.log2_self_le (by omega)
  have hn₂ : (num : ℚ) < 2 ^ (num.log2 + 1) := by exact_mod_cast Nat.lt_log2_self
  have hd₁ : (2 : ℚ) ^ den.log2 ≤ den := by exact_mod_cast Nat.log2_self_le (by omega)
  have hd₂ : (den : ℚ) < 2 ^ (den.log2 + 1) := by exact_mod_cast Nat.lt_log2_self
  have hlow : (2 : ℚ) ^ ((num.log2 : Int) - den.log2 - 1) = 2 ^ num.log2 / 2 ^ (den.log2 + 1) := by
    rw [← zpow_natCast, ← zpow_natCast, ← zpow_sub₀ (by norm_num)]
    congr 1
    push_cast
    ring
  have hhigh : (2 : ℚ) ^ ((num.log2 : Int) - den.log2 + 1) = 2 ^ (num.log2 + 1) / 2 ^ den.log2 := by
    rw [← zpow_natCast, ← zpow_natCast, ← zpow_sub₀ (by norm_num)]
    congr 1
    push_cast
    ring
  rw [hlow, hhigh, div_lt_div_iff₀ (by positivity) hd, div_lt_div_iff₀ hd (by positivity)]
  constructor
  · calc (2 : ℚ) ^ num.log2 * den ≤ num * den := by gcongr
      _ < num * 2 ^ (den.log2 + 1) := by gcongr
  · calc (num : ℚ) * 2 ^ den.log2 ≤ num * den := by gcongr
      _ < 2 ^ (num.log2 + 1) * den := by gcongr

/-- The guess from the logarithms of the parts, corrected by one if it is too high, is the logarithm of the value. -/
theorem top_eq_log {num den : Nat} (hnum : 0 < num) (hden : 0 < den) :
    (if (scale num den ((num.log2 : Int) - den.log2)).1 < (scale num den ((num.log2 : Int) - den.log2)).2 then
        (num.log2 : Int) - den.log2 - 1 else (num.log2 : Int) - den.log2) = Int.log 2 (num / den : ℚ) := by
  obtain ⟨hlow, hhigh⟩ := zpow_log2_sub_lt hnum hden
  generalize (num.log2 : Int) - den.log2 = t at hlow hhigh ⊢
  have hq : (0 : ℚ) < num / den := by positivity
  have hpower : (0 : ℚ) < 2 ^ t := by positivity
  have hpos : (0 : ℚ) < (scale num den t).2 := Nat.cast_pos.2 (scale_pos hden)
  have hbelow : (scale num den t).1 < (scale num den t).2 ↔ (num / den : ℚ) < 2 ^ t := by
    rw [← Nat.cast_lt (α := ℚ), ← div_lt_one hpos, scale_value, div_lt_one hpower]
  symm
  split
  · rename_i h
    rw [log_eq_iff (by decide) hq, sub_add_cancel]
    exact ⟨hlow.le, hbelow.1 h⟩
  · rename_i h
    rw [log_eq_iff (by decide) hq]
    exact ⟨not_lt.1 fun hlt => h (hbelow.2 hlt), hhigh⟩

end Places

/-! ## Rounding to a significand -/

section Rounding

variable {a b c d num den m : Nat} {e : Int}

/-- The exponent that a value is rounded to. -/
def exponentOf (value : ℚ) : Int := max (Int.log 2 value - 52) minExponent

theorem roundRatio_eq (hnum : 0 < num) (hden : 0 < den) :
    roundRatio num den =
      let e := exponentOf (num / den)
      let q := roundQuotient (scale num den e).1 (scale num den e).2
      if q = 2 ^ 53 then (2 ^ 52, e + 1) else (q, e) := by
  simp only [roundRatio, top_eq_log hnum hden, Nat.pow_eq]
  rfl

/-- Rounding depends on the value alone. -/
theorem roundRatio_congr (ha : 0 < a) (hb : 0 < b) (hc : 0 < c) (hd : 0 < d) (h : (a : ℚ) / b = c / d) :
    roundRatio a b = roundRatio c d := by
  have hquotient (e : Int) : roundQuotient (scale a b e).1 (scale a b e).2 =
      roundQuotient (scale c d e).1 (scale c d e).2 :=
    roundQuotient_congr (scale_pos hb) (scale_pos hd) (by rw [scale_value, scale_value, h])
  simp only [roundRatio_eq ha hb, roundRatio_eq hc hd, h, hquotient]

theorem exponentOf_of_fits (hm : 0 < m) (h : Fits m e) : exponentOf (m * 2 ^ e) = e := by
  have hlog : Int.log 2 ((m : ℚ) * 2 ^ e) = m.log2 + e := by
    rw [log_eq_iff (by decide) (by positivity)]
    have hlow : (2 : ℚ) ^ m.log2 ≤ m := by exact_mod_cast Nat.log2_self_le (by omega)
    have hhigh : (m : ℚ) < 2 ^ (m.log2 + 1) := by exact_mod_cast Nat.lt_log2_self
    have hpower : (0 : ℚ) < 2 ^ e := by positivity
    rw [add_right_comm]
    push_cast
    rw [zpow_add₀ (by norm_num), zpow_add₀ (by norm_num), zpow_natCast, mul_le_mul_iff_left₀ hpower,
      mul_lt_mul_iff_left₀ hpower]
    exact ⟨hlow, by exact_mod_cast hhigh⟩
  have hbelow : m.log2 < 53 := (Nat.log2_lt (by omega)).2 h.lt
  have hleast := h.least
  rw [exponentOf, hlog]
  obtain hfull | rfl := h.full
  · have habove : 52 ≤ m.log2 := (Nat.le_log2 (by omega)).2 hfull
    omega
  · omega

/-- A value that fits is not changed. -/
theorem roundRatio_of_fits (hm : 0 < m) (h : Fits m e) (hnum : 0 < num) (hden : 0 < den)
    (hvalue : (num : ℚ) / den = m * 2 ^ e) : roundRatio num den = (m, e) := by
  have hwhole : ((scale num den e).1 : ℚ) / (scale num den e).2 = m := by
    rw [scale_value, hvalue, mul_div_assoc, div_self (by positivity), mul_one]
  rw [roundRatio_eq hnum hden, hvalue, exponentOf_of_fits hm h]
  simp only [roundQuotient_of_whole (scale_pos hden) hwhole]
  exact if_neg h.lt.ne

/-- A value over the power of two that it is rounded to is below 2^53, and at least 2^52 if the exponent is not the
least one. -/
theorem div_zpow_exponentOf {value : ℚ} (h : 0 < value) :
    value / 2 ^ exponentOf value < 2 ^ 53 ∧
      (exponentOf value ≠ minExponent → 2 ^ 52 ≤ value / 2 ^ exponentOf value) := by
  have hlow := Int.zpow_log_le_self (b := 2) (by decide) h
  have hhigh := Int.lt_zpow_succ_log_self (b := 2) (by decide) value
  push_cast at hlow hhigh
  rw [div_lt_iff₀ (by positivity), le_div_iff₀ (by positivity), ← zpow_natCast, ← zpow_natCast,
    ← zpow_add₀ (by norm_num), ← zpow_add₀ (by norm_num), exponentOf]
  refine ⟨hhigh.trans_le (zpow_le_zpow_right₀ (by norm_num) (by omega)), fun hleast => ?_⟩
  have hexponent : ((52 : Nat) : Int) + max (Int.log 2 value - 52) minExponent = Int.log 2 value := by omega
  rwa [hexponent]

/-- What comes of rounding fits, but for an exponent that may be too high. -/
theorem fits_roundRatio (hnum : 0 < num) (hden : 0 < den) (h : (roundRatio num den).2 ≤ maxExponent) :
    Fits (roundRatio num den).1 (roundRatio num den).2 := by
  rw [roundRatio_eq hnum hden] at h ⊢
  have hvalue : (0 : ℚ) < num / den := by positivity
  obtain ⟨hbelow, habove⟩ := div_zpow_exponentOf hvalue
  have hleast : minExponent ≤ exponentOf (num / den) := le_max_right ..
  rw [← scale_value] at hbelow habove
  have hpos : 0 < (scale num den (exponentOf (num / den))).2 := scale_pos hden
  revert h
  dsimp only
  generalize exponentOf (num / den) = e at hbelow habove hleast hpos ⊢
  generalize scale num den e = s at hbelow habove hpos ⊢
  have hpos' : (0 : ℚ) < s.2 := Nat.cast_pos.2 hpos
  rw [div_lt_iff₀ hpos'] at hbelow
  rw [le_div_iff₀ hpos'] at habove
  have hquotient : s.1 / s.2 < 2 ^ 53 := (Nat.div_lt_iff_lt_mul hpos).2 (by exact_mod_cast hbelow)
  have hrounded := roundQuotient_le s.1 s.2
  intro h
  by_cases hcarry : roundQuotient s.1 s.2 = 2 ^ 53
  · rw [if_pos hcarry] at h ⊢
    exact ⟨Nat.pow_lt_pow_right (by decide) (by decide), hleast.trans (Int.le_add_one (Int.le_refl e)), h,
      .inl (Nat.le_refl _)⟩
  · rw [if_neg hcarry] at h ⊢
    refine ⟨by omega, hleast, h, or_iff_not_imp_right.2 fun he => ?_⟩
    have hquotient' : 2 ^ 52 ≤ s.1 / s.2 := (Nat.le_div_iff_mul_le hpos).2 (by exact_mod_cast habove he)
    omega

/-! ## Numbers from quotients -/

theorem ofRatio_congr (negative : Bool) (hb : 0 < b) (hd : 0 < d) (h : (a : ℚ) / b = c / d) :
    ofRatio negative a b = ofRatio negative c d := by
  have hcross := (div_eq_div_iff_mul hb hd).1 h
  by_cases ha : a = 0
  · subst ha
    obtain rfl : c = 0 := by
      rw [Nat.zero_mul] at hcross
      exact (Nat.mul_eq_zero.1 hcross.symm).resolve_right hb.ne'
    rw [ofRatio, ofRatio, if_pos rfl, if_pos rfl]
  · have hc : c ≠ 0 := by
      rintro rfl
      rw [Nat.zero_mul] at hcross
      exact (Nat.mul_ne_zero ha hd.ne') hcross
    rw [ofRatio, ofRatio, if_neg ha, if_neg hc,
      roundRatio_congr (Nat.pos_of_ne_zero ha) hb (Nat.pos_of_ne_zero hc) hd h]

/-- A number is read off its exact value. -/
theorem ofRatio_of_fits (negative : Bool) (hm : 0 < m) (h : Fits m e) (hden : 0 < den)
    (hvalue : (num : ℚ) / den = m * 2 ^ e) : ofRatio negative num den = .finite negative m e := by
  have hnum : num ≠ 0 := by
    rintro rfl
    have hpos : (0 : ℚ) < m * 2 ^ e := by positivity
    rw [← hvalue, Nat.cast_zero, zero_div] at hpos
    exact lt_irrefl _ hpos
  have hgreatest := h.greatest
  simp only [ofRatio, if_neg hnum, roundRatio_of_fits hm h (Nat.pos_of_ne_zero hnum) hden hvalue]
  rw [if_neg (by omega), if_neg (by omega)]

theorem canonical_ofRatio (negative : Bool) (num : Nat) (hden : 0 < den) : (ofRatio negative num den).Canonical := by
  simp only [ofRatio]
  split
  · exact canonical_zero negative
  · rename_i hnum
    have hfits := fits_roundRatio (Nat.pos_of_ne_zero hnum) hden
    split
    · trivial
    split
    · exact canonical_zero negative
    · exact hfits (by omega)

/-- The number with a sign in place of its own. -/
def withSign (negative : Bool) : Binary64 → Binary64
  | .finite _ m e => .finite negative m e
  | .infinite _ => .infinite negative
  | .notANumber => .notANumber

theorem ofRatio_withSign (negative : Bool) (num den : Nat) :
    (ofRatio false num den).withSign negative = ofRatio negative num den := by
  simp only [ofRatio, apply_ite (withSign negative)]
  rfl

end Rounding

/-! ## Decimal numerals -/

section Decimals

variable {digits digits' m : Nat} {exponent exponent' e : Int}

theorem pow_decimalLength_le (h : digits ≠ 0) : 10 ^ (decimalLength digits - 1) ≤ digits := by
  by_contra hlt
  rw [not_le] at hlt
  have hlength : decimalLength digits - 1 ≠ 0 := by
    intro hzero
    rw [hzero] at hlt
    omega
  have hle := (Nat.length_toDigits_le_iff (by decide) (Nat.pos_of_ne_zero hlength)).2 hlt
  rw [← decimalLength] at hle
  omega

theorem lt_pow_decimalLength (digits : Nat) : digits < 10 ^ decimalLength digits :=
  (Nat.length_toDigits_le_iff (by decide) Nat.length_toDigits_pos).1 (Nat.le_refl _)

/-- The place of the first digit is told by the value. -/
theorem decimalLength_add (h : digits ≠ 0) (exponent : Int) :
    (decimalLength digits : Int) + exponent = Int.log 10 ((digits : ℚ) * 10 ^ exponent) + 1 := by
  have hpower : (0 : ℚ) < 10 ^ exponent := by positivity
  have hpos : 0 < digits := Nat.pos_of_ne_zero h
  have hlength : 0 < decimalLength digits := Nat.length_toDigits_pos
  have hlow : (10 : ℚ) ^ (decimalLength digits - 1) ≤ digits := by exact_mod_cast pow_decimalLength_le h
  have hhigh : (digits : ℚ) < 10 ^ decimalLength digits := by exact_mod_cast lt_pow_decimalLength digits
  suffices hlog : Int.log 10 ((digits : ℚ) * 10 ^ exponent) = ((decimalLength digits - 1 : Nat) : Int) + exponent by
    omega
  have hnext : ((decimalLength digits - 1 : Nat) : Int) + exponent + 1 = decimalLength digits + exponent := by omega
  rw [log_eq_iff (by decide) (by positivity), hnext]
  push_cast
  rw [zpow_add₀ (by norm_num), zpow_add₀ (by norm_num), zpow_natCast, zpow_natCast, mul_le_mul_iff_left₀ hpower,
    mul_lt_mul_iff_left₀ hpower]
  exact ⟨hlow, hhigh⟩

/-- The quotient that a numeral is. -/
def decimalRatio (digits : Nat) (exponent : Int) : Nat × Nat :=
  if 0 ≤ exponent then (digits * Nat.pow 10 exponent.toNat, 1) else (digits, Nat.pow 10 (-exponent).toNat)

theorem decimalRatio_pos (digits : Nat) (exponent : Int) : 0 < (decimalRatio digits exponent).2 := by
  rw [decimalRatio]
  split
  · exact Nat.one_pos
  · exact Nat.pow_pos (by decide)

theorem decimalRatio_value (digits : Nat) (exponent : Int) :
    ((decimalRatio digits exponent).1 : ℚ) / (decimalRatio digits exponent).2 = digits * 10 ^ exponent := by
  rw [decimalRatio]
  split
  · rename_i h
    rw [Nat.cast_mul, pow_toNat h, Nat.cast_one, div_one]
    rfl
  · rename_i h
    rw [pow_neg_toNat (by omega), div_inv_eq_mul]
    rfl

theorem ofDecimal_eq (negative : Bool) (h : digits ≠ 0) (exponent : Int) :
    ofDecimal negative digits exponent =
      let size := Int.log 10 ((digits : ℚ) * 10 ^ exponent) + 1
      if 400 < size then .infinite negative
      else if size < -400 then zero negative
      else ofRatio negative (decimalRatio digits exponent).1 (decimalRatio digits exponent).2 := by
  simp only [ofDecimal, if_neg h, decimalLength_add h, decimalRatio]
  split
  · rfl
  split
  · rfl
  split <;> rfl

/-- Numerals of the same value are read as the same number. -/
theorem ofDecimal_congr (negative : Bool) (h : (digits : ℚ) * 10 ^ exponent = digits' * 10 ^ exponent') :
    ofDecimal negative digits exponent = ofDecimal negative digits' exponent' := by
  have hzero : digits = 0 ↔ digits' = 0 := by
    have hpower (n : Int) : (10 : ℚ) ^ n ≠ 0 := zpow_ne_zero _ (by norm_num)
    rw [← Nat.cast_eq_zero (R := ℚ), ← Nat.cast_eq_zero (R := ℚ), ← mul_eq_zero_iff_right (hpower exponent), h,
      mul_eq_zero_iff_right (hpower exponent')]
  by_cases hdigits : digits = 0
  · rw [ofDecimal, ofDecimal, if_pos hdigits, if_pos (hzero.1 hdigits)]
  · have hratio := ofRatio_congr negative (decimalRatio_pos digits exponent) (decimalRatio_pos digits' exponent')
      (by rw [decimalRatio_value, decimalRatio_value, h])
    rw [ofDecimal_eq negative hdigits, ofDecimal_eq negative (mt hzero.2 hdigits), h, hratio]

theorem canonical_ofDecimal (negative : Bool) (digits : Nat) (exponent : Int) :
    (ofDecimal negative digits exponent).Canonical := by
  by_cases h : digits = 0
  · rw [ofDecimal, if_pos h]
    exact canonical_zero negative
  · rw [ofDecimal_eq negative h]
    dsimp only
    split
    · trivial
    split
    · exact canonical_zero negative
    · exact canonical_ofRatio negative _ (decimalRatio_pos digits exponent)

theorem ofDecimal_withSign (negative : Bool) (digits : Nat) (exponent : Int) :
    (ofDecimal false digits exponent).withSign negative = ofDecimal negative digits exponent := by
  simp only [ofDecimal, apply_ite (withSign negative), ofRatio_withSign]
  rfl

theorem zpow_neg_le_zpow_neg {k n : Nat} (h : 2 ^ k ≤ 10 ^ n) : (10 : ℚ) ^ (-(n : Int)) ≤ 2 ^ (-(k : Int)) := by
  rw [zpow_neg, zpow_neg, zpow_natCast, zpow_natCast]
  exact inv_anti₀ (by positivity) (by exact_mod_cast h)

theorem zpow_lt_zpow {k n : Nat} (h : 2 ^ k < 10 ^ n) : (2 : ℚ) ^ (k : Int) < 10 ^ (n : Int) := by
  rw [zpow_natCast, zpow_natCast]
  exact_mod_cast h

/-- The places of digits that the numbers reach. -/
theorem log_of_fits (hm : 0 < m) (h : Fits m e) :
    -400 ≤ Int.log 10 ((m : ℚ) * 2 ^ e) + 1 ∧ Int.log 10 ((m : ℚ) * 2 ^ e) + 1 ≤ 400 := by
  have hvalue : (0 : ℚ) < m * 2 ^ e := by positivity
  have hpower : (0 : ℚ) < 2 ^ e := by positivity
  have hone : (1 : ℚ) ≤ m := by exact_mod_cast hm
  have hlt : (m : ℚ) < 2 ^ ((53 : Nat) : Int) := by
    rw [zpow_natCast]
    exact_mod_cast h.lt
  have hsmall : (10 : ℚ) ^ (-((401 : Nat) : Int)) ≤ 2 ^ minExponent :=
    zpow_neg_le_zpow_neg (k := 1074) (by decide +kernel)
  have hlarge : (2 : ℚ) ^ (((53 : Nat) : Int) + maxExponent) < 10 ^ ((400 : Nat) : Int) :=
    zpow_lt_zpow (k := 1024) (by decide +kernel)
  have hlow : -((401 : Nat) : Int) ≤ Int.log 10 ((m : ℚ) * 2 ^ e) := by
    rw [← Int.zpow_le_iff_le_log (by decide) hvalue]
    calc (10 : ℚ) ^ (-((401 : Nat) : Int)) ≤ 2 ^ minExponent := hsmall
      _ ≤ 2 ^ e := zpow_le_zpow_right₀ (by norm_num) h.least
      _ ≤ m * 2 ^ e := le_mul_of_one_le_left hpower.le hone
  have hhigh : Int.log 10 ((m : ℚ) * 2 ^ e) < ((400 : Nat) : Int) := by
    rw [← Int.lt_zpow_iff_log_lt (by decide) hvalue]
    calc (m : ℚ) * 2 ^ e < 2 ^ ((53 : Nat) : Int) * 2 ^ e := mul_lt_mul_of_pos_right hlt hpower
      _ = 2 ^ (((53 : Nat) : Int) + e) := (zpow_add₀ (by norm_num) _ _).symm
      _ ≤ 2 ^ (((53 : Nat) : Int) + maxExponent) :=
        zpow_le_zpow_right₀ (by norm_num) (Int.add_le_add_left h.greatest _)
      _ < 10 ^ ((400 : Nat) : Int) := hlarge
  omega

/-- A numeral of the exact value of a number is read as that number. -/
theorem ofDecimal_of_fits (negative : Bool) (hm : 0 < m) (h : Fits m e)
    (hvalue : (digits : ℚ) * 10 ^ exponent = m * 2 ^ e) :
    ofDecimal negative digits exponent = .finite negative m e := by
  have hdigits : digits ≠ 0 := by
    rintro rfl
    have hpos : (0 : ℚ) < m * 2 ^ e := by positivity
    rw [← hvalue, Nat.cast_zero, zero_mul] at hpos
    exact lt_irrefl _ hpos
  obtain ⟨hlow, hhigh⟩ := log_of_fits hm h
  rw [ofDecimal_eq negative hdigits, hvalue]
  dsimp only
  rw [if_neg (by omega), if_neg (by omega)]
  exact ofRatio_of_fits negative hm h (decimalRatio_pos digits exponent) (by rw [decimalRatio_value, hvalue])

theorem allDigits_value (m : Nat) (e : Int) :
    ((allDigits m e).digits : ℚ) * 10 ^ (allDigits m e).exponent = m * 2 ^ e := by
  rw [allDigits]
  split
  · rename_i h
    rw [Nat.cast_mul, pow_toNat h, zpow_zero, mul_one]
    rfl
  · rename_i h
    have hten : (10 : ℚ) ^ e = (5 : Nat) ^ e * 2 ^ e := by
      rw [← mul_zpow]
      norm_num
    have hfive : (5 : Nat) ^ e ≠ (0 : ℚ) := zpow_ne_zero _ (by norm_num)
    rw [Nat.cast_mul, pow_neg_toNat (by omega), hten, mul_assoc, inv_mul_cancel_left₀ hfive]

/-- What is written for a number is read as that number, with its sign. -/
theorem ofDecimal_shortest (negative : Bool) (hm : 0 < m) (h : Fits m e) :
    ofDecimal negative (shortest m e).digits (shortest m e).exponent = .finite negative m e := by
  have hall : readsBack m e (allDigits m e) :=
    beq_iff_eq.2 (ofDecimal_of_fits false hm h (allDigits_value m e))
  have hread : ofDecimal false (shortest m e).digits (shortest m e).exponent = .finite false m e :=
    beq_iff_eq.1 (readsBack_shortest hall)
  rw [← ofDecimal_withSign, hread]
  rfl

end Decimals

end NestLint.Binary64
