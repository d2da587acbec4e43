import NestLint.Proofs.Json.Numbers

/-!
# Documents in plain characters

Whatever is in a document, its text has no other characters than newlines and the visible characters and blanks of
ASCII: everything else is written by an escape. So no encoding and no convention for the ends of lines can touch it.

* `Plain`: texts of such characters only;
* `plain_escapeChar`, `plain_printFloat`: strings and numbers;
* `plain_printLines`: documents.
-/

namespace NestLint

namespace Json

/-- The character is a newline, a blank or a visible character of ASCII. -/
def IsPlain (c : Char) : Prop := c = '\n' ∨ 0x20 ≤ c.toNat ∧ c.toNat < 0x7F

instance (c : Char) : Decidable (IsPlain c) := inferInstanceAs (Decidable (_ ∨ _))

/-- All characters are such. -/
def Plain (cs : List Char) : Prop := ∀ c ∈ cs, IsPlain c

instance (cs : List Char) : Decidable (Plain cs) :=
  decidable_of_iff (cs.all fun c => decide (IsPlain c)) (by simp only [List.all_eq_true, decide_eq_true_eq, Plain])

theorem plain_nil : Plain [] := nofun

@[simp]
theorem plain_cons {c : Char} {cs : List Char} : Plain (c :: cs) ↔ IsPlain c ∧ Plain cs := List.forall_mem_cons

@[simp]
theorem plain_append {cs cs' : List Char} : Plain (cs ++ cs') ↔ Plain cs ∧ Plain cs' := List.forall_mem_append

theorem plain_replicate {c : Char} (h : IsPlain c) (n : Nat) : Plain (List.replicate n c) := by
  intro d hd
  rw [(List.mem_replicate.1 hd).2]
  exact h

theorem plain_flatten {texts : List (List Char)} (h : ∀ text ∈ texts, Plain text) : Plain texts.flatten := by
  intro c hc
  obtain ⟨text, htext, hc⟩ := List.mem_flatten.1 hc
  exact h text htext c hc

/-! ## Strings -/

/-- The digits of a number up to base 16. -/
theorem plain_toDigits {b : Nat} (hb : 1 < b) (hb' : b ≤ 16) (n : Nat) : Plain (Nat.toDigits b n) := by
  have hdigit : ∀ d < 16, IsPlain (Nat.digitChar d) := by decide
  induction n using Nat.strongRecOn with
  | ind n ih =>
    rw [Nat.toDigits_eq_if hb]
    split
    · exact plain_cons.2 ⟨hdigit n (by omega), plain_nil⟩
    · have hquotient := ih (n / b) (Nat.div_lt_self (by omega) hb)
      have hlast := hdigit (n % b) (Nat.lt_of_lt_of_le (Nat.mod_lt n (by omega)) hb')
      exact plain_append.2 ⟨hquotient, plain_cons.2 ⟨hlast, plain_nil⟩⟩

theorem plain_hexDigits (width n : Nat) : Plain (Text.hexDigits width n) :=
  plain_append.2 ⟨plain_replicate (by decide) _, plain_toDigits (by decide) (by decide) n⟩

theorem plain_escapeUnit (n : Nat) : Plain (escapeUnit n) :=
  plain_cons.2 ⟨by decide, plain_cons.2 ⟨by decide, plain_hexDigits 4 n⟩⟩

/-- What is written for a character, whichever it is. -/
theorem plain_escapeChar (c : Char) : Plain (escapeChar c) := by
  rw [escapeChar]
  split
  · rename_i h
    obtain rfl | rfl : c = '"' ∨ c = '\\' := by simpa using h
    · decide
    · decide
  split
  · decide
  split
  · decide
  split
  · decide
  split
  · decide
  split
  · decide
  split
  · rename_i h
    simp only [Bool.and_eq_true, decide_eq_true_eq] at h
    exact plain_cons.2 ⟨.inr h, plain_nil⟩
  split
  · exact plain_escapeUnit _
  · exact plain_append.2 ⟨plain_escapeUnit _, plain_escapeUnit _⟩

theorem plain_printString (text : String) : Plain (printString text) := by
  have hchars : Plain (text.toList.flatMap escapeChar) := by
    intro c hc
    obtain ⟨d, -, hd⟩ := List.mem_flatMap.1 hc
    exact plain_escapeChar d c hd
  have hquote : IsPlain '"' := by decide
  simp only [printString, plain_append, plain_cons]
  exact ⟨⟨hquote, hchars⟩, hquote, plain_nil⟩

/-! ## Numbers -/

theorem plain_printInt (n : Int) : Plain (printInt n) := by
  have hdigits := plain_toDigits (b := 10) (by decide) (by decide) n.natAbs
  rw [printInt]
  split
  · exact plain_cons.2 ⟨by decide, hdigits⟩
  · exact hdigits

theorem plain_powerText (power : Int) : Plain (powerText power) := by
  have hsize := plain_toDigits (b := 10) (by decide) (by decide) power.natAbs
  refine plain_cons.2 ⟨by decide, plain_cons.2 ⟨?_, ?_⟩⟩
  · split <;> decide
  · split
    · exact plain_cons.2 ⟨by decide, hsize⟩
    · exact hsize

/-- Digits with a point, wherever it stands, and with an exponent. -/
theorem plain_layout {ds : List Char} (h : Plain ds) (point : Int) : Plain (Binary64.layout ds point) := by
  have hzeros (n : Nat) : Plain (List.replicate n '0') := plain_replicate (by decide) n
  have hzero : IsPlain '0' := by decide
  have hpoint : IsPlain '.' := by decide
  simp only [Binary64.layout]
  split
  · split
    · simp only [plain_append, plain_cons]
      exact ⟨⟨hzero, hpoint, hzeros _⟩, h⟩
    split
    · simp only [plain_append, plain_cons]
      exact ⟨⟨h, hzeros _⟩, hpoint, hzero, plain_nil⟩
    · simp only [plain_append, plain_cons]
      exact ⟨fun c hc => h c (List.mem_of_mem_take hc), hpoint, fun c hc => h c (List.mem_of_mem_drop hc)⟩
  · have hpower := plain_powerText (point - 1)
    cases ds with
    | nil => exact hpower
    | cons d frac =>
      have hd := plain_cons.1 h
      cases frac with
      | nil => exact plain_cons.2 ⟨hd.1, hpower⟩
      | cons c frac => exact plain_append.2 ⟨plain_cons.2 ⟨hd.1, plain_cons.2 ⟨hpoint, hd.2⟩⟩, hpower⟩

theorem plain_significant (numeral : Binary64.Numeral) : Plain (Binary64.significant numeral).1 := by
  intro c hc
  have hdigit := (List.dropWhile_sublist _).subset (List.mem_reverse.1 hc)
  exact plain_toDigits (b := 10) (by decide) (by decide) _ c (List.mem_reverse.1 hdigit)

theorem plain_printFloat (x : Binary64) : Plain (printFloat x) := by
  cases x with
  | notANumber => decide
  | infinite negative => cases negative <;> decide
  | finite negative m e =>
    show Plain (Binary64.text (.finite negative m e)).toList
    rw [Binary64.text, String.toList_ofList]
    have hbody : Plain (if m = 0 then ['0', '.', '0'] else
        Binary64.layout (Binary64.significant (Binary64.shortest m e)).1
          (Binary64.significant (Binary64.shortest m e)).2) := by
      split
      · decide
      · exact plain_layout (plain_significant _) _
    cases negative with
    | false => exact hbody
    | true => exact plain_cons.2 ⟨by decide, hbody⟩

/-! ## Documents -/

theorem plain_printAtom (value : Json) : Plain (printAtom value) := by
  cases value with
  | bool b => cases b <;> decide
  | int n => exact plain_printInt n
  | float x => exact plain_printFloat x
  | str text => exact plain_printString text
  | null => decide
  | list items => exact plain_nil
  | object members => exact plain_nil

theorem plain_separated {separator : List Char} (h : Plain separator) {parts : List (List Char)}
    (hparts : ∀ part ∈ parts, Plain part) : Plain (separated separator parts) := by
  induction parts with
  | nil => exact plain_nil
  | cons part parts ih =>
    have hpart := hparts part List.mem_cons_self
    have hrest := ih fun part hpart => hparts part (List.mem_cons_of_mem _ hpart)
    cases parts with
    | nil => exact hpart
    | cons next parts =>
      rw [separated_cons_cons]
      exact plain_append.2 ⟨plain_append.2 ⟨hpart, h⟩, hrest⟩

section

variable {unit : List Char}

theorem plain_lineStart (hunit : Plain unit) (level : Nat) : Plain (lineStart unit level) := by
  refine plain_cons.2 ⟨by decide, plain_flatten fun text htext => ?_⟩
  rw [(List.mem_replicate.1 htext).2]
  exact hunit

theorem plain_bracketed (hunit : Plain unit) (level : Nat) {opening closing : Char} (hopening : IsPlain opening)
    (hclosing : IsPlain closing) {parts : List (List Char)} (h : ∀ part ∈ parts, Plain part) :
    Plain (bracketed unit level opening closing parts) := by
  have hline := plain_lineStart hunit
  have hcomma : Plain (',' :: lineStart unit (level + 1)) := plain_cons.2 ⟨by decide, hline _⟩
  rw [bracketed]
  split
  · exact plain_cons.2 ⟨hopening, plain_cons.2 ⟨hclosing, plain_nil⟩⟩
  · simp only [plain_append, plain_cons]
    exact ⟨⟨⟨⟨hopening, hline _⟩, plain_separated hcomma h⟩, hline _⟩, hclosing, plain_nil⟩

mutual

/-- A document over several lines. -/
theorem plain_printLines (hunit : Plain unit) (level : Nat) : (value : Json) → Plain (printLines unit level value)
  | .list items =>
    plain_bracketed hunit level (by decide) (by decide) (plain_printItemLines hunit (level + 1) items)
  | .object members =>
    plain_bracketed hunit level (by decide) (by decide) (plain_printMemberLines hunit (level + 1) members)
  | .null => plain_printAtom .null
  | .bool b => plain_printAtom (.bool b)
  | .int n => plain_printAtom (.int n)
  | .float x => plain_printAtom (.float x)
  | .str text => plain_printAtom (.str text)

theorem plain_printItemLines (hunit : Plain unit) (level : Nat) :
    (items : List Json) → ∀ part ∈ printItemLines unit level items, Plain part
  | [] => nofun
  | item :: rest => List.forall_mem_cons.2 ⟨plain_printLines hunit level item, plain_printItemLines hunit level rest⟩

theorem plain_printMemberLines (hunit : Plain unit) (level : Nat) :
    (members : List (String × Json)) → ∀ part ∈ printMemberLines unit level members, Plain part
  | [] => nofun
  | (key, value) :: rest => by
    refine List.forall_mem_cons.2 ⟨?_, plain_printMemberLines hunit level rest⟩
    simp only [plain_append, plain_cons]
    exact ⟨plain_printString key, by decide, by decide, plain_printLines hunit level value⟩

end

end

end Json

end NestLint
