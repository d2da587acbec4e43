import Mathlib.Data.List.TakeWhile
import NestLint.Proofs.Json.RoundTrip
import NestLint.Proofs.Number.Rounding

/-!
# Numbers with a fraction read back

However the decimal point of a number is placed, behind zeros, in front of them, between digits, or by an exponent,
the text is read as a numeral of the same value as the digits that are laid out. So a number is read back from what
is written for it.

* `parseNumber_of_parts`: a number from its whole part, its fraction and its exponent;
* `natOfDigits_append`: digits as a number, in parts;
* `numeralRead_layout`: all the places of the point;
* `significant_value`: the digits that are laid out;
* `readsAs_float`: every number.
-/

namespace NestLint.Json

open Binary64 (Canonical layout significant)

/-! ## Digits as a number -/

theorem natOfDigits_eq (ds : List Char) : natOfDigits ds = Nat.ofDigitChars 10 ds 0 := by
  simp only [natOfDigits, Nat.ofDigitChars, Nat.mul_comm]

theorem ofDigitChars_eq (ds : List Char) (n : Nat) :
    Nat.ofDigitChars 10 ds n = n * 10 ^ ds.length + Nat.ofDigitChars 10 ds 0 := by
  induction ds generalizing n with
  | nil => simp [Nat.ofDigitChars]
  | cons d ds ih =>
    rw [Nat.ofDigitChars_cons, Nat.ofDigitChars_cons, ih, ih (10 * 0 + _), List.length_cons, Nat.pow_succ]
    ring

theorem natOfDigits_append (ds ds' : List Char) :
    natOfDigits (ds ++ ds') = natOfDigits ds * 10 ^ ds'.length + natOfDigits ds' := by
  rw [natOfDigits_eq, natOfDigits_eq, natOfDigits_eq, Nat.ofDigitChars_append, ofDigitChars_eq]

theorem natOfDigits_zeros (k : Nat) : natOfDigits (List.replicate k '0') = 0 := by
  rw [natOfDigits_eq, Nat.ofDigitChars_replicate_zero, Nat.mul_zero]

theorem natOfDigits_zeros_append (k : Nat) (ds : List Char) :
    natOfDigits (List.replicate k '0' ++ ds) = natOfDigits ds := by
  rw [natOfDigits_append, natOfDigits_zeros, Nat.zero_mul, Nat.zero_add]

theorem natOfDigits_append_zeros (ds : List Char) (k : Nat) :
    natOfDigits (ds ++ List.replicate k '0') = natOfDigits ds * 10 ^ k := by
  rw [natOfDigits_append, natOfDigits_zeros, List.length_replicate, Nat.add_zero]

/-! ## The parts of a number -/

theorem parseFraction_digits {ds rest : List Char} (hne : ds ≠ []) (hds : ∀ c ∈ ds, c.isDigit)
    (hrest : ∀ c ∈ rest.head?, c.isDigit = false) : parseFraction ('.' :: (ds ++ rest)) = some (ds, rest) := by
  simp only [parseFraction, spanDigits_append hds hrest]
  rw [if_neg (by simpa using hne)]

/-- The exponent that is written for a power of ten is read as that power. -/
theorem parseExponent_digits {ds rest : List Char} (negative : Bool) (hne : ds ≠ []) (hds : ∀ c ∈ ds, c.isDigit)
    (hrest : Stops rest) :
    parseExponent ('e' :: (if negative then '-' else '+') :: (ds ++ rest)) =
      some (if negative then -(natOfDigits ds : Int) else natOfDigits ds, rest) := by
  have hspan := spanDigits_append hds fun c hc => (hrest c hc).1
  cases negative with
  | false =>
    simp only [parseExponent, Bool.false_eq_true, if_false]
    rw [if_pos (by decide), hspan]
    exact if_neg (by simpa using hne)
  | true =>
    simp only [parseExponent, if_true]
    rw [if_pos (by decide), hspan]
    exact if_neg (by simpa using hne)

/-- A number is read from its parts, of which the fraction or the exponent is there. -/
theorem parseNumber_of_parts (negative : Bool) (fraction : Option (List Char)) (exponent : Option Int)
    {cs whole behindWhole behindFraction rest : List Char} (hwhole : parseWhole cs = some (whole, behindWhole))
    (hfraction : ((parseFraction behindWhole).map fun (ds, rest) => (some ds, rest)).getD (none, behindWhole) =
      (fraction, behindFraction))
    (hexponent : ((parseExponent behindFraction).map fun (n, rest) => (some n, rest)).getD (none, behindFraction) =
      (exponent, rest))
    (hthere : (fraction.isNone && exponent.isNone) = false) :
    parseNumber negative cs =
      .ok (.float (.ofDecimal negative (natOfDigits (whole ++ fraction.getD []))
        (exponent.getD 0 - (fraction.getD []).length)), rest) := by
  simp only [parseNumber, hwhole, hfraction, hexponent, hthere]
  rfl

/-- The text is read as a numeral of the value, whatever its sign and whatever comes behind it. -/
def NumeralRead (text : List Char) (value : ℚ) : Prop :=
  ∀ (negative : Bool) {rest : List Char}, Stops rest → ∃ (digits : Nat) (exponent : Int),
    parseNumber negative (text ++ rest) = .ok (.float (.ofDecimal negative digits exponent), rest) ∧
      (digits : ℚ) * 10 ^ exponent = value

/-- There are digits, and the first of them is not a zero. -/
structure Leading (ds : List Char) : Prop where
  ne : ds ≠ []
  digits : ∀ c ∈ ds, c.isDigit
  head : ds.head? ≠ some '0'

variable {ds ds' frac whole : List Char}

theorem Leading.append (h : Leading ds) (h' : ∀ c ∈ ds', c.isDigit) : Leading (ds ++ ds') where
  ne := List.append_ne_nil_of_left_ne_nil h.ne _
  digits c hc := (List.mem_append.1 hc).elim (h.digits c) (h' c)
  head := by
    rw [List.head?_append_of_ne_nil _ h.ne]
    exact h.head

theorem Leading.take (h : Leading ds) {n : Nat} (hn : 0 < n) : Leading (ds.take n) where
  ne := by simpa [List.take_eq_nil_iff, h.ne] using hn.ne'
  digits c hc := h.digits c (List.mem_of_mem_take hc)
  head := by
    rw [List.head?_take, if_neg hn.ne']
    exact h.head

theorem value_shift (n k : Nat) (exponent : Int) :
    ((n * 10 ^ k : Nat) : ℚ) * 10 ^ exponent = n * 10 ^ (k + exponent) := by
  rw [Nat.cast_mul, mul_assoc, Nat.cast_pow, ← zpow_natCast, zpow_add₀ (by norm_num)]
  rfl

/-- A whole part and a fraction. -/
theorem numeralRead_point (hwhole : ∀ rest, parseWhole (whole ++ '.' :: rest) = some (whole, '.' :: rest))
    (hne : frac ≠ []) (hfrac : ∀ c ∈ frac, c.isDigit) :
    NumeralRead (whole ++ '.' :: frac) (natOfDigits (whole ++ frac) * 10 ^ (-(frac.length : Int))) := by
  intro negative rest hrest
  have hfraction := parseFraction_digits hne hfrac fun c hc => (hrest c hc).1
  refine ⟨natOfDigits (whole ++ frac), 0 - frac.length, ?_, by rw [zero_sub]⟩
  rw [List.append_assoc, List.cons_append]
  exact parseNumber_of_parts negative (some frac) none (hwhole _) (by rw [hfraction]; rfl)
    (by rw [parseExponent_of_stops hrest]; rfl) rfl

/-- The exponent for a power of ten: the letter, the sign, and at least two digits. -/
def powerText (power : Int) : List Char :=
  'e' :: (if power < 0 then '-' else '+') ::
    (if (Nat.toDigits 10 power.natAbs).length < 2 then '0' :: Nat.toDigits 10 power.natAbs
      else Nat.toDigits 10 power.natAbs)

theorem parseExponent_powerText (power : Int) {rest : List Char} (hrest : Stops rest) :
    parseExponent (powerText power ++ rest) = some (power, rest) := by
  have hsize := isDigit_toDigits (n := power.natAbs)
  have hnat := natOfDigits_toDigits power.natAbs
  have hne : Nat.toDigits 10 power.natAbs ≠ [] := Nat.toDigits_ne_nil
  rw [powerText]
  generalize Nat.toDigits 10 power.natAbs = size at hsize hnat hne ⊢
  obtain ⟨ds, hds, hdigits, hvalue, hnil⟩ : ∃ ds, (if size.length < 2 then '0' :: size else size) = ds ∧
      (∀ c ∈ ds, c.isDigit) ∧ natOfDigits ds = power.natAbs ∧ ds ≠ [] := by
    refine ⟨_, rfl, ?_⟩
    split
    · refine ⟨fun c hc => ?_, ?_, List.cons_ne_nil _ _⟩
      · rcases List.mem_cons.1 hc with rfl | hc
        · decide
        · exact hsize c hc
      · rw [← List.singleton_append, natOfDigits_append, hnat]
        simp [natOfDigits]
    · exact ⟨hsize, hnat, hne⟩
  have hexponent := parseExponent_digits (decide (power < 0)) hnil hdigits hrest
  simp only [decide_eq_true_eq] at hexponent
  rw [hds, List.cons_append, List.cons_append, hexponent, hvalue]
  congr 2
  split <;> omega

/-- One digit before the point, and a power of ten. -/
theorem numeralRead_power {d : Char} (hd : Leading [d]) (hfrac : ∀ c ∈ frac, c.isDigit) (power : Int) :
    NumeralRead ((if frac = [] then [d] else d :: '.' :: frac) ++ powerText power)
      (natOfDigits (d :: frac) * 10 ^ (power - frac.length)) := by
  intro negative rest hrest
  have hexponent := parseExponent_powerText power hrest
  have hopens : ∀ c ∈ (powerText power ++ rest).head?, c = 'e' := fun c hc => (Option.some.inj hc).symm
  have hdigit : ∀ c ∈ (powerText power ++ rest).head?, c.isDigit = false := by
    intro c hc
    rw [hopens c hc]
    decide
  refine ⟨natOfDigits (d :: frac), power - frac.length, ?_, rfl⟩
  rw [List.append_assoc]
  split
  · subst frac
    have hwhole : parseWhole ([d] ++ (powerText power ++ rest)) = some ([d], powerText power ++ rest) :=
      parseWhole_digits hd.ne hd.digits hd.head hdigit
    have hfraction : parseFraction (powerText power ++ rest) = none :=
      parseFraction_of_head fun h => absurd (hopens '.' h) (by decide)
    exact parseNumber_of_parts negative none (some power) hwhole (by rw [hfraction]; rfl) (by rw [hexponent]; rfl) rfl
  · rename_i hne
    have hwhole : parseWhole ([d] ++ '.' :: (frac ++ (powerText power ++ rest))) =
        some ([d], '.' :: (frac ++ (powerText power ++ rest))) :=
      parseWhole_digits hd.ne hd.digits hd.head fun c hc => Option.some.inj hc ▸ rfl
    have hfraction := parseFraction_digits hne hfrac hdigit
    exact parseNumber_of_parts negative (some frac) (some power) hwhole (by rw [hfraction]; rfl)
      (by rw [hexponent]; rfl) rfl

/-! ## The place of the point -/

theorem parseWhole_point (h : Leading whole) (rest : List Char) :
    parseWhole (whole ++ '.' :: rest) = some (whole, '.' :: rest) :=
  parseWhole_digits h.ne h.digits h.head fun _ hc => Option.some.inj hc ▸ rfl

theorem isDigit_zeros (k : Nat) : ∀ c ∈ List.replicate k '0', c.isDigit := by
  intro c hc
  rw [(List.mem_replicate.1 hc).2]
  decide

/-- The point, zeros, and the digits. -/
theorem numeralRead_behind (h : Leading ds) (k : Nat) :
    NumeralRead ('0' :: '.' :: List.replicate k '0' ++ ds) (natOfDigits ds * 10 ^ (-(k : Int) - ds.length)) := by
  have hfrac : ∀ c ∈ List.replicate k '0' ++ ds, c.isDigit := fun c hc =>
    (List.mem_append.1 hc).elim (isDigit_zeros k c) (h.digits c)
  have hread : NumeralRead (['0'] ++ '.' :: (List.replicate k '0' ++ ds)) _ :=
    numeralRead_point (fun _ => rfl) (List.append_ne_nil_of_right_ne_nil _ h.ne) hfrac
  have hvalue : natOfDigits (['0'] ++ (List.replicate k '0' ++ ds)) = natOfDigits ds :=
    natOfDigits_zeros_append (k + 1) ds
  have hplaces : -(((List.replicate k '0' ++ ds).length : Nat) : Int) = -(k : Int) - ds.length := by
    rw [List.length_append, List.length_replicate]
    omega
  rwa [hvalue, hplaces] at hread

/-- The digits, zeros, the point, and one more zero. -/
theorem numeralRead_before (h : Leading ds) (k : Nat) :
    NumeralRead (ds ++ List.replicate k '0' ++ ['.', '0']) (natOfDigits ds * 10 ^ (k : Int)) := by
  have hread : NumeralRead (ds ++ List.replicate k '0' ++ '.' :: ['0']) _ :=
    numeralRead_point (parseWhole_point (h.append (isDigit_zeros k))) (List.cons_ne_nil _ _) (isDigit_zeros 1)
  have hvalue : natOfDigits (ds ++ List.replicate k '0' ++ ['0']) = natOfDigits ds * 10 ^ (k + 1) := by
    rw [List.append_assoc, ← natOfDigits_append_zeros, List.replicate_succ']
  have hplaces : ((k + 1 : Nat) : Int) + -((['0'].length : Nat) : Int) = k := by
    rw [List.length_singleton]
    omega
  rwa [hvalue, value_shift, hplaces] at hread

/-- The point with digits on both sides. -/
theorem numeralRead_between (h : Leading ds) {n : Nat} (hn : 0 < n) (hlt : n < ds.length) :
    NumeralRead (ds.take n ++ '.' :: ds.drop n) (natOfDigits ds * 10 ^ ((n : Int) - ds.length)) := by
  have hne : ds.drop n ≠ [] := by simpa [List.drop_eq_nil_iff] using hlt
  have hread := numeralRead_point (parseWhole_point (h.take hn)) hne fun c hc => h.digits c (List.mem_of_mem_drop hc)
  have hplaces : -((ds.drop n).length : Int) = (n : Int) - ds.length := by
    rw [List.length_drop]
    omega
  rwa [List.take_append_drop, hplaces] at hread

/-- Wherever the point of digits is put, the text is a numeral of their value. -/
theorem numeralRead_layout (h : Leading ds) (point : Int) :
    NumeralRead (layout ds point) (natOfDigits ds * 10 ^ (point - ds.length)) := by
  rw [layout]
  split
  · split
    · have hpoint : -((-point).toNat : Int) = point := by omega
      have hread := numeralRead_behind h (-point).toNat
      rwa [hpoint] at hread
    split
    · have hpoint : ((point.toNat - ds.length : Nat) : Int) = point - ds.length := by omega
      have hread := numeralRead_before h (point.toNat - ds.length)
      rwa [hpoint] at hread
    · have hpoint : (point.toNat : Int) = point := by omega
      have hread := numeralRead_between h (n := point.toNat) (by omega) (by omega)
      rwa [hpoint] at hread
  · obtain ⟨d, frac, rfl⟩ := List.exists_cons_of_ne_nil h.ne
    have hread := numeralRead_power (h.take (n := 1) Nat.one_pos) (fun c hc => h.digits c (List.mem_cons_of_mem d hc))
      (point - 1)
    have hpoint : point - 1 - frac.length = point - ((d :: frac).length : Int) := by
      rw [List.length_cons]
      omega
    rw [hpoint] at hread
    cases frac with
    | nil => exact hread
    | cons c frac => exact hread

theorem layout_opens (h : Leading ds) (point : Int) : ∃ d cs, layout ds point = d :: cs ∧ d.isDigit := by
  obtain ⟨d, frac, rfl⟩ := List.exists_cons_of_ne_nil h.ne
  have hd : d.isDigit := h.digits d List.mem_cons_self
  rw [layout]
  split
  · split
    · exact ⟨'0', _, rfl, rfl⟩
    split
    · exact ⟨d, _, rfl, hd⟩
    · obtain ⟨n, hn⟩ : ∃ n, point.toNat = n + 1 := ⟨point.toNat - 1, by omega⟩
      rw [hn]
      exact ⟨d, _, rfl, hd⟩
  · cases frac with
    | nil => exact ⟨d, _, rfl, hd⟩
    | cons c frac => exact ⟨d, _, rfl, hd⟩

/-! ## The digits of a number -/

/-- Digits are those that count and the zeros behind them. -/
theorem exists_append_zeros (cs : List Char) :
    ∃ k, cs = (cs.reverse.dropWhile (· == '0')).reverse ++ List.replicate k '0' := by
  have hzeros : cs.reverse.takeWhile (· == '0') = List.replicate (cs.reverse.takeWhile (· == '0')).length '0' :=
    List.eq_replicate_iff.2 ⟨rfl, fun c hc => by simpa using List.mem_takeWhile_imp hc⟩
  refine ⟨(cs.reverse.takeWhile (· == '0')).length, ?_⟩
  rw [← List.reverse_replicate, ← hzeros, ← List.reverse_append, List.takeWhile_append_dropWhile, List.reverse_reverse]

/-- The digits of a numeral without zeros at the end, and the place of the point, have the value of the numeral. -/
theorem significant_value {numeral : Binary64.Numeral} (h : numeral.digits ≠ 0) :
    Leading (significant numeral).1 ∧
      (natOfDigits (significant numeral).1 : ℚ) *
          10 ^ ((significant numeral).2 - ((significant numeral).1.length : Int)) =
        numeral.digits * 10 ^ numeral.exponent := by
  obtain ⟨k, hk⟩ := exists_append_zeros (Nat.toDigits 10 numeral.digits)
  have hne : Nat.toDigits 10 numeral.digits ≠ [] := Nat.toDigits_ne_nil
  have hdigits := isDigit_toDigits (n := numeral.digits)
  have hhead := head?_toDigits h
  have hvalue := natOfDigits_toDigits numeral.digits
  simp only [significant]
  generalize (List.dropWhile (· == '0') (Nat.toDigits 10 numeral.digits).reverse).reverse = ds at hk ⊢
  rw [hk] at hne hdigits hhead hvalue ⊢
  have hds : ds ≠ [] := by
    rintro rfl
    cases k with
    | zero => exact hne rfl
    | succ k => exact hhead rfl
  refine ⟨⟨hds, fun c hc => hdigits c (List.mem_append_left _ hc), ?_⟩, ?_⟩
  · rwa [List.head?_append_of_ne_nil _ hds] at hhead
  · have hplaces : (((ds ++ List.replicate k '0').length : Nat) : Int) + numeral.exponent - ds.length =
        k + numeral.exponent := by
      rw [List.length_append, List.length_replicate]
      omega
    rw [hplaces, ← hvalue, natOfDigits_append_zeros, value_shift]

/-! ## Every number -/

/-- A text that starts with a digit and is read with either sign. -/
theorem readsAs_signed {body : List Char} {x : Bool → Binary64} (hopens : ∃ d cs, body = d :: cs ∧ d.isDigit)
    (hread : ∀ negative {rest : List Char}, Stops rest →
      parseNumber negative (body ++ rest) = .ok (.float (x negative), rest)) (negative : Bool) :
    ReadsAs ValueRead (if negative then '-' :: body else body) (.float (x negative)) := by
  obtain ⟨d, cs, rfl, hd⟩ := hopens
  cases negative with
  | false =>
    refine readsAs_atom ⟨d, cs, rfl, isSpace_of_isDigit hd, not_mem_of_isDigit hd rfl⟩ fun {rest} hrest => ?_
    exact (parseAtom_digit hd (cs ++ rest)).1.trans (hread false hrest)
  | true =>
    refine readsAs_atom ⟨'-', _, rfl, by decide⟩ fun {rest} hrest => ?_
    exact (parseAtom_digit hd (cs ++ rest)).2.trans (hread true hrest)

/-- The digits of a number, laid out, are read as the number with either sign. -/
theorem parseNumber_shortest {m : Nat} {e : Int} (hm : 0 < m) (h : Binary64.Fits m e) :
    ∃ ds point, significant (Binary64.shortest m e) = (ds, point) ∧ Leading ds ∧
      ∀ negative {rest : List Char}, Stops rest →
        parseNumber negative (layout ds point ++ rest) = .ok (.float (.finite negative m e), rest) := by
  have hshortest := fun negative => Binary64.ofDecimal_shortest negative hm h
  have hdigits : (Binary64.shortest m e).digits ≠ 0 := by
    intro hzero
    have hread := hshortest false
    rw [hzero, Binary64.ofDecimal, if_pos rfl] at hread
    cases hread
    exact lt_irrefl 0 hm
  obtain ⟨hleading, hvalue⟩ := significant_value hdigits
  refine ⟨(significant (Binary64.shortest m e)).1, (significant (Binary64.shortest m e)).2, rfl, hleading,
    fun negative rest hrest => ?_⟩
  obtain ⟨digits, exponent, hread, hsame⟩ := numeralRead_layout hleading _ negative hrest
  rw [hread, Binary64.ofDecimal_congr negative (hsame.trans hvalue), hshortest]

theorem parseNumber_zero (negative : Bool) {rest : List Char} (hrest : Stops rest) :
    parseNumber negative (['0', '.', '0'] ++ rest) = .ok (.float (.zero negative), rest) := by
  have hnumeral : NumeralRead (['0'] ++ '.' :: ['0']) _ :=
    numeralRead_point (fun _ => rfl) (List.cons_ne_nil _ _) (isDigit_zeros 1)
  obtain ⟨digits, exponent, hread, hvalue⟩ := hnumeral negative hrest
  have hzero : (digits : ℚ) * 10 ^ exponent = (0 : Nat) * 10 ^ (0 : Int) := by
    rw [hvalue, show natOfDigits (['0'] ++ ['0']) = 0 from natOfDigits_zeros 2]
    simp
  exact hread.trans (by rw [Binary64.ofDecimal_congr negative hzero]; rfl)

/-- A number is read back from what is written for it. -/
theorem readsAs_float {x : Binary64} (h : x.Canonical) : ReadsAs ValueRead (printFloat x) (.float x) := by
  cases x with
  | notANumber => exact readsAs_atom ⟨'N', _, rfl, by decide⟩ fun _ => rfl
  | infinite negative =>
    cases negative with
    | false => exact readsAs_atom ⟨'I', _, rfl, by decide⟩ fun _ => rfl
    | true => exact readsAs_atom ⟨'-', _, rfl, by decide⟩ fun _ => rfl
  | finite negative m e =>
    show ReadsAs ValueRead (Binary64.text (.finite negative m e)).toList _
    rw [Binary64.text, String.toList_ofList]
    by_cases hm : m = 0
    · subst hm
      obtain rfl : e = Binary64.minExponent := h.full.resolve_left (by decide)
      rw [if_pos rfl]
      exact readsAs_signed (x := Binary64.zero) ⟨'0', _, rfl, rfl⟩ parseNumber_zero negative
    · obtain ⟨ds, point, hsignificant, hleading, hread⟩ := parseNumber_shortest (Nat.pos_of_ne_zero hm) h
      rw [if_neg hm, hsignificant]
      exact readsAs_signed (layout_opens hleading point) hread negative

end NestLint.Json
