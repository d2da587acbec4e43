import Mathlib.Tactic.SplitIfs
import NestLint.Json.Parser
import NestLint.Json.Printer

/-!
# Strings and numbers read back

What is written for a string or for a whole number is read as that string or that number again, whatever comes
behind it in the text; behind a number there must be nothing that could be a part of it.

* `parseUnit_hexDigits`, `parseEscapedUnit_pair`: escapes with numbers, alone and in pairs;
* `parseChars_escapeChar`, `parseString_escaped`: one character and a string of any characters;
* `parseAtom_printInt`: a whole number that is not too long.
-/

namespace NestLint

/-- A digit in front, and the others as those of the quotient. -/
theorem Text.hexDigits_succ (width n : Nat) :
    hexDigits (width + 2) n = hexDigits (width + 1) (n / 16) ++ [Nat.digitChar (n % 16)] := by
  simp only [hexDigits]
  rw [Nat.toDigits_eq_if (n := n) (by decide)]
  split
  · rename_i h
    rw [Nat.div_eq_of_lt h, Nat.mod_eq_of_lt h, Nat.toDigits_zero, ← List.replicate_succ']
    rfl
  · have hpadding : width + 2 - ((Nat.toDigits 16 (n / 16)).length + 1) =
        width + 1 - (Nat.toDigits 16 (n / 16)).length := by omega
    rw [List.length_append, List.length_singleton, hpadding, List.append_assoc]

theorem Text.hexDigits_one {n : Nat} (h : n < 16) : hexDigits 1 n = [Nat.digitChar n] := by
  rw [hexDigits, Nat.toDigits_of_lt_base h]
  rfl

namespace Json

/-! ## Escapes -/

theorem hexValue?_digitChar {d : Nat} (h : d < 16) : hexValue? (Nat.digitChar d) = some d := by
  have hall : ∀ d < 16, hexValue? (Nat.digitChar d) = some d := by decide
  exact hall d h

theorem parseUnit_hexDigits {n : Nat} (h : n < 0x10000) (rest : List Char) :
    parseUnit (Text.hexDigits 4 n ++ rest) = some (n, rest) := by
  rw [Text.hexDigits_succ, Text.hexDigits_succ, Text.hexDigits_succ, Text.hexDigits_one (by omega)]
  simp only [List.cons_append, List.nil_append, parseUnit]
  rw [hexValue?_digitChar (by omega), hexValue?_digitChar (by omega), hexValue?_digitChar (by omega),
    hexValue?_digitChar (by omega)]
  simp only [Option.bind_eq_bind, Option.bind_some, Option.some.injEq, Prod.mk.injEq, and_true]
  omega

/-- A unit that is no surrogate is a character. -/
theorem parseEscapedUnit_hexDigits {n : Nat} (h : n < 0xD800 ∨ 0xDFFF < n ∧ n < 0x10000) (rest : List Char) :
    parseEscapedUnit (Text.hexDigits 4 n ++ rest) = some (Char.ofNat n, rest) := by
  rw [parseEscapedUnit, parseUnit_hexDigits (by omega)]
  simp only [Option.bind_eq_bind, Option.bind_some]
  rw [if_neg (by simp; omega), if_neg (by simp; omega)]

theorem escapeUnit_append (n : Nat) (rest : List Char) :
    escapeUnit n ++ rest = '\\' :: 'u' :: (Text.hexDigits 4 n ++ rest) := rfl

theorem parseEscape_unit (rest : List Char) : parseEscape ('u' :: rest) = parseEscapedUnit rest := rfl

/-- Two surrogates are a character above the first plane. -/
theorem parseEscapedUnit_pair {n : Nat} (h : n < 0x100000) (rest : List Char) :
    parseEscapedUnit (Text.hexDigits 4 (0xD800 + n / 0x400) ++ (escapeUnit (0xDC00 + n % 0x400) ++ rest)) =
      some (Char.ofNat (n + 0x10000), rest) := by
  have hlow : parseLowSurrogate (escapeUnit (0xDC00 + n % 0x400) ++ rest) = some (0xDC00 + n % 0x400, rest) := by
    rw [escapeUnit_append, parseLowSurrogate, parseUnit_hexDigits (by omega)]
    exact Option.filter_some_pos (by simp; omega)
  have hsum : 0x10000 + (0xD800 + n / 0x400 - 0xD800) * 0x400 + (0xDC00 + n % 0x400 - 0xDC00) = n + 0x10000 := by
    omega
  rw [parseEscapedUnit, parseUnit_hexDigits (by omega)]
  simp only [Option.bind_eq_bind, Option.bind_some]
  rw [if_pos (by simp; omega), hlow]
  simp only [hsum]

/-! ## Strings -/

/-- What is written for a character is read as that character. -/
theorem parseChars_escapeChar (fuel : Nat) (acc : List Char) (c : Char) (rest : List Char) :
    parseChars (fuel + 1) acc (escapeChar c ++ rest) = parseChars fuel (c :: acc) rest := by
  -- all but plain characters start with a backslash, and then it is up to the escape
  have hescape {cs : List Char} (h : parseEscape cs = some (c, rest)) :
      parseChars (fuel + 1) acc ('\\' :: cs) = parseChars fuel (c :: acc) rest := by
    rw [parseChars, if_neg (by decide), if_pos rfl, h]
  have hvalid : c.toNat < 0xD800 ∨ 0xDFFF < c.toNat ∧ c.toNat < 0x110000 := c.valid
  have hchar {n : Nat} (h : c.toNat = n) : Char.ofNat n = c := h ▸ Char.ofNat_toNat c
  rw [escapeChar]
  split
  · rename_i h
    refine hescape ?_
    obtain rfl | rfl : c = '"' ∨ c = '\\' := by simpa using h
    · rfl
    · rfl
  split
  · rename_i h
    exact hescape (h ▸ rfl)
  split
  · rename_i h
    exact hescape (h ▸ rfl)
  split
  · rename_i h
    exact hescape (h ▸ rfl)
  split
  · rename_i h
    exact hescape (congrArg some (congrArg (·, rest) (hchar h)))
  split
  · rename_i h
    exact hescape (congrArg some (congrArg (·, rest) (hchar h)))
  split
  · rename_i hquote _ _ _ _ _ hplain
    simp only [Bool.or_eq_true, decide_eq_true_eq, not_or] at hquote
    simp only [Bool.and_eq_true, decide_eq_true_eq] at hplain
    rw [List.singleton_append, parseChars, if_neg hquote.1, if_neg hquote.2, if_neg (Nat.not_lt.2 hplain.1)]
  split
  · rename_i hfirst
    rw [escapeUnit_append]
    refine hescape ?_
    rw [parseEscape_unit, parseEscapedUnit_hexDigits (by omega), Char.ofNat_toNat]
  · rename_i habove
    obtain ⟨n, hn⟩ : ∃ n, c.toNat = n + 0x10000 := ⟨c.toNat - 0x10000, by omega⟩
    rw [hn, Nat.add_sub_cancel, List.append_assoc, escapeUnit_append]
    refine hescape ?_
    rw [parseEscape_unit, parseEscapedUnit_pair (by omega), hchar hn]

theorem length_le_flatMap_escapeChar (cs : List Char) : cs.length ≤ (cs.flatMap escapeChar).length := by
  have hone : ∀ c : Char, 1 ≤ (escapeChar c).length := by
    intro c
    simp only [escapeChar]
    split_ifs <;> exact Nat.succ_le_succ (Nat.zero_le _)
  induction cs with
  | nil => exact Nat.le_refl 0
  | cons c rest ih =>
    have := hone c
    rw [List.flatMap_cons, List.length_append, List.length_cons]
    omega

theorem parseChars_flatMap {fuel : Nat} {cs : List Char} (h : cs.length < fuel) (acc rest : List Char) :
    parseChars fuel acc (cs.flatMap escapeChar ++ '"' :: rest) = some (cs.reverse ++ acc, rest) := by
  induction cs generalizing fuel acc with
  | nil =>
    obtain ⟨fuel, rfl⟩ : ∃ k, fuel = k + 1 := ⟨fuel - 1, by simp at h; omega⟩
    rfl
  | cons c cs ih =>
    obtain ⟨fuel, rfl⟩ : ∃ k, fuel = k + 1 := ⟨fuel - 1, by simp at h; omega⟩
    rw [List.flatMap_cons, List.append_assoc, parseChars_escapeChar, ih (by simpa using h), List.reverse_cons,
      List.append_assoc]
    rfl

/-- What is written for a string, behind its opening quote, is read as that string. -/
theorem parseString_escaped (text : String) (rest : List Char) :
    parseString (text.toList.flatMap escapeChar ++ '"' :: rest) = some (text, rest) := by
  have hfuel : text.toList.length < (text.toList.flatMap escapeChar ++ '"' :: rest).length + 1 := by
    have := length_le_flatMap_escapeChar text.toList
    rw [List.length_append]
    omega
  rw [parseString, parseChars_flatMap hfuel, Option.map_some, List.append_nil]
  simp only [List.reverse_reverse, String.ofList_toList]

/-! ## Whole numbers -/

/-- Nothing in the text can go on with a number that ends in front of it. -/
def Stops (rest : List Char) : Prop :=
  ∀ c ∈ rest.head?, c.isDigit = false ∧ c ≠ '.' ∧ c ≠ 'e' ∧ c ≠ 'E'

theorem natOfDigits_toDigits (n : Nat) : natOfDigits (Nat.toDigits 10 n) = n := by
  have hof : natOfDigits (Nat.toDigits 10 n) = Nat.ofDigitChars 10 (Nat.toDigits 10 n) 0 := by
    simp only [natOfDigits, Nat.ofDigitChars, Nat.mul_comm]
  rw [hof, Nat.ofDigitChars_toDigits (by decide) (by decide)]

/-- Only zero is written with a zero in front. -/
theorem head?_toDigits {n : Nat} (h : n ≠ 0) : (Nat.toDigits 10 n).head? ≠ some '0' := by
  induction n using Nat.strongRecOn with
  | ind n ih =>
    rw [Nat.toDigits_eq_if (by decide)]
    split
    · rename_i hlt
      have hall : ∀ d < 10, d ≠ 0 → Nat.digitChar d ≠ '0' := by decide
      simpa using hall n hlt h
    · have hquotient := ih (n / 10) (by omega) (by omega)
      obtain ⟨d, ds, hds⟩ := List.exists_cons_of_ne_nil (Nat.toDigits_ne_nil (n := n / 10) (b := 10))
      rw [hds] at hquotient ⊢
      exact hquotient

/-- The digits at the start of a text end where something else begins. -/
theorem spanDigits_append {ds rest : List Char} (hds : ∀ c ∈ ds, c.isDigit)
    (hrest : ∀ c ∈ rest.head?, c.isDigit = false) : spanDigits (ds ++ rest) = (ds, rest) := by
  have htake : rest.takeWhile Char.isDigit = [] ∧ rest.dropWhile Char.isDigit = rest := by
    cases rest with
    | nil => exact ⟨rfl, rfl⟩
    | cons c rest =>
      have hc := hrest c rfl
      exact ⟨by rw [List.takeWhile_cons, hc]; rfl, by rw [List.dropWhile_cons, hc]; rfl⟩
  rw [spanDigits, List.takeWhile_append_of_pos hds, List.dropWhile_append_of_pos hds, htake.1, htake.2,
    List.append_nil]

theorem parseWhole_digits {ds rest : List Char} (hne : ds ≠ []) (hds : ∀ c ∈ ds, c.isDigit)
    (hhead : ds.head? ≠ some '0') (hrest : ∀ c ∈ rest.head?, c.isDigit = false) :
    parseWhole (ds ++ rest) = some (ds, rest) := by
  have hspan := spanDigits_append hds hrest
  cases ds with
  | nil => exact absurd rfl hne
  | cons d ds =>
    rw [parseWhole.eq_def]
    split
    · rename_i heq
      rw [List.cons_append] at heq
      cases heq
      exact absurd rfl hhead
    · rw [hspan]
      rfl

theorem isDigit_toDigits {n : Nat} : ∀ c ∈ Nat.toDigits 10 n, c.isDigit :=
  fun _ hc => Nat.isDigit_of_mem_toDigits (by decide) (by decide) hc

theorem parseWhole_toDigits (n : Nat) {rest : List Char} (hrest : Stops rest) :
    parseWhole (Nat.toDigits 10 n ++ rest) = some (Nat.toDigits 10 n, rest) := by
  by_cases h : n = 0
  · subst h
    rfl
  · exact parseWhole_digits Nat.toDigits_ne_nil isDigit_toDigits (head?_toDigits h) fun c hc => (hrest c hc).1

theorem parseFraction_of_head {rest : List Char} (h : rest.head? ≠ some '.') : parseFraction rest = none := by
  rw [parseFraction.eq_def]
  split
  · exact absurd rfl h
  · rfl

theorem parseExponent_of_stops {rest : List Char} (h : Stops rest) : parseExponent rest = none := by
  cases rest with
  | nil => rfl
  | cons c rest =>
    obtain ⟨-, -, hlower, hupper⟩ := h c rfl
    simp only [parseExponent.eq_def]
    rw [if_neg (by simp [hlower, hupper])]

theorem length_toDigits_le {n k : Nat} (hk : 0 < k) (h : n < Nat.pow 10 k) : (Nat.toDigits 10 n).length ≤ k :=
  (Nat.length_toDigits_le_iff (by decide) hk).2 h

theorem parseNumber_toDigits (negative : Bool) {n : Nat} (h : n < Nat.pow 10 digitLimit) {rest : List Char}
    (hrest : Stops rest) :
    parseNumber negative (Nat.toDigits 10 n ++ rest) = .ok (.int (if negative then -(n : Int) else n), rest) := by
  have hlength : ¬digitLimit < (Nat.toDigits 10 n).length := Nat.not_lt.2 (length_toDigits_le (by decide) h)
  have hfraction : parseFraction rest = none := parseFraction_of_head fun h => (hrest '.' h).2.1 rfl
  have hexponent : parseExponent rest = none := parseExponent_of_stops hrest
  simp only [parseNumber, parseWhole_toDigits n hrest, hfraction, hexponent, Option.map_none, Option.getD_none,
    Option.isNone_none, Bool.and_self, if_true]
  rw [if_neg hlength, natOfDigits_toDigits]
  rfl

theorem not_mem_of_isDigit {c : Char} (hc : c.isDigit) {cs : List Char} (hcs : cs.any Char.isDigit = false) :
    c ∉ cs := fun hmem => List.any_eq_false.1 hcs c hmem hc

theorem parseName_of_head {c : Char} (h : c ∉ ['n', 't', 'f', 'N', 'I', '-']) (rest : List Char) :
    parseName (c :: rest) = none := by
  simp only [List.mem_cons, List.not_mem_nil, or_false, not_or] at h
  obtain ⟨hn, ht, hf, hN, hI, hminus⟩ := h
  simp [parseName, after?, Ne.symm hn, Ne.symm ht, Ne.symm hf, Ne.symm hN, Ne.symm hI, Ne.symm hminus]

theorem parseName_of_negative {c : Char} (h : c ≠ 'I') (rest : List Char) : parseName ('-' :: c :: rest) = none := by
  simp [parseName, after?, h.symm]

/-- A number in digits starts with none of the letters of the named values. -/
theorem parseAtom_digit {d : Char} (hd : d.isDigit) (cs : List Char) :
    parseAtom (d :: cs) = parseNumber false (d :: cs) ∧ parseAtom ('-' :: d :: cs) = parseNumber true (d :: cs) := by
  have hnames : d ∉ ['n', 't', 'f', 'N', 'I', '-'] := not_mem_of_isDigit hd rfl
  constructor
  · have hminus : d ≠ '-' := fun h => hnames (by simp [h])
    rw [parseAtom, parseName_of_head hnames]
    exact fun _ heq => hminus (List.cons.inj heq).1
  · rw [parseAtom, parseName_of_negative fun h => hnames (by simp [h])]

theorem parseAtom_toDigits {n : Nat} (h : n < Nat.pow 10 digitLimit) {rest : List Char} (hrest : Stops rest) :
    parseAtom (Nat.toDigits 10 n ++ rest) = .ok (.int n, rest) ∧
      parseAtom ('-' :: (Nat.toDigits 10 n ++ rest)) = .ok (.int (-n), rest) := by
  have hplain := parseNumber_toDigits false h hrest
  have hnegative := parseNumber_toDigits true h hrest
  rw [if_neg Bool.false_ne_true] at hplain
  rw [if_pos rfl] at hnegative
  obtain ⟨d, ds, hds⟩ := List.exists_cons_of_ne_nil (Nat.toDigits_ne_nil (n := n) (b := 10))
  have hd : d.isDigit := isDigit_toDigits d (hds ▸ List.mem_cons_self)
  rw [hds, List.cons_append] at hplain hnegative ⊢
  exact ⟨(parseAtom_digit hd _).1.trans hplain, (parseAtom_digit hd _).2.trans hnegative⟩

/-- A whole number that is not too long is read as that number. -/
theorem parseAtom_printInt {n : Int} (h : isTooLong n = false) {rest : List Char} (hrest : Stops rest) :
    parseAtom (printInt n ++ rest) = .ok (.int n, rest) := by
  have hlimit : n.natAbs < Nat.pow 10 digitLimit := Nat.not_le.1 (of_decide_eq_false h)
  obtain ⟨hplain, hnegative⟩ := parseAtom_toDigits hlimit hrest
  rw [printInt]
  split
  · rename_i hneg
    have habs : -(n.natAbs : Int) = n := by omega
    rw [List.cons_append, hnegative, habs]
  · rename_i hpos
    have habs : (n.natAbs : Int) = n := by omega
    rw [hplain, habs]

end Json

end NestLint
