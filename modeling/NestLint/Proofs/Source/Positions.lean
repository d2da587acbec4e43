import Mathlib.Algebra.GroupWithZero.Nat
import NestLint.Source.Text
import NestLint.Text.Lines

/-!
# Lines and columns of positions

A position is found in the table of line starts: the starts at or before it are those of its line and of
the lines above. The table is compared with the lines that the text is cut into, where a line starts
behind the lines above it and their newlines.

The line and column are those of `lookup_line_col`.

* `Text.lineStart`: where a line starts;
* `Text.lineStart_le_iff`: which lines start at or before a position;
* `SourceText.lineStarts_eq`: what the table holds;
* `SourceText.lex_lineCol`: positions in the order of their lines and columns;
* `SourceText.lineCol_inverts`: a position from its line and column, and their order.
-/

namespace NestLint

namespace Text

/-- Where line `i` of a text starts, counted from 0: behind the lines above, each with its newline. -/
def lineStart (text : List Char) (i : Nat) : Nat :=
  (((splitLines text).take i).map fun line => line.length + 1).sum

@[simp] theorem lineStart_zero (text : List Char) : lineStart text 0 = 0 := by simp [lineStart]

/-- A newline in front is one more line. -/
theorem lineStart_newline (rest : List Char) (i : Nat) :
    lineStart ('\n' :: rest) (i + 1) = lineStart rest i + 1 := by
  simp [lineStart, splitLines]
  omega

/-- Any other character in front makes the first line longer. -/
theorem lineStart_cons {c : Char} (hc : c ≠ '\n') (rest : List Char) (i : Nat) :
    lineStart (c :: rest) (i + 1) = lineStart rest (i + 1) + 1 := by
  obtain ⟨line, lines, hlines⟩ := List.exists_cons_of_ne_nil (split_ne_nil rest)
  simp [lineStart, splitLines, hc, hlines]
  omega

theorem length_splitLines (text : List Char) : (splitLines text).length = text.count '\n' + 1 := by
  induction text with
  | nil => rfl
  | cons c rest ih =>
    by_cases hc : c = '\n'
    · simp [splitLines, hc, ih]
    · obtain ⟨line, lines, hlines⟩ := List.exists_cons_of_ne_nil (split_ne_nil rest)
      rw [hlines] at ih
      simpa [splitLines, hc, hlines] using ih

theorem count_take_lt_length (text : List Char) (pos : Nat) :
    (text.take pos).count '\n' < (splitLines text).length := by
  have := (List.take_sublist pos text).count_le '\n'
  rw [length_splitLines]
  omega

/-- The lines that start at or before a position are the one behind as many newlines as stand in front of it, and those
above. -/
theorem lineStart_le_iff {text : List Char} {i : Nat} (hi : i < (splitLines text).length) (pos : Nat) :
    lineStart text i ≤ pos ↔ i ≤ (text.take pos).count '\n' := by
  rw [length_splitLines] at hi
  induction text generalizing i pos with
  | nil =>
    obtain rfl : i = 0 := by simpa using hi
    simp
  | cons c rest ih =>
    cases i with
    | zero => simp
    | succ i =>
      by_cases hc : c = '\n'
      · subst hc
        rw [List.count_cons_self] at hi
        rw [lineStart_newline]
        cases pos with
        | zero => simp
        | succ pos =>
          have := ih (show i < rest.count '\n' + 1 by omega) pos
          rw [List.take_succ_cons, List.count_cons_self]
          omega
      · rw [List.count_cons_of_ne hc] at hi
        rw [lineStart_cons hc]
        cases pos with
        | zero => simp
        | succ pos =>
          have := ih hi pos
          rw [List.take_succ_cons, List.count_cons_of_ne hc]
          omega

end Text

namespace SourceText

open Text (lineStart splitLines)

/-- Behind each newline starts the next line. -/
theorem startsAfter_eq (k : Int) (text : List Char) :
    startsAfter k text = (List.range (text.count '\n')).map fun i => k + lineStart text (i + 1) := by
  induction text generalizing k with
  | nil => rfl
  | cons c rest ih =>
    by_cases hc : c = '\n'
    · subst hc
      rw [startsAfter, if_pos rfl, ih, List.count_cons_self, List.range_succ_eq_map, List.map_cons, List.map_map]
      simp [Text.lineStart_newline, Function.comp_def]
      omega
    · rw [startsAfter, if_neg hc, ih, List.count_cons_of_ne hc]
      simp only [Text.lineStart_cons hc]
      refine List.map_congr_left fun i _ => ?_
      omega

variable (source : SourceText)

/-- The table holds where the lines start, in order. -/
theorem lineStarts_eq : source.lineStarts =
    (List.range (splitLines source.chars).length).map fun i => (lineStart source.chars i : Int) := by
  rw [Text.length_splitLines, List.range_succ_eq_map, List.map_cons, List.map_map, lineStarts, startsAfter_eq]
  simp [Function.comp_def]

/-- Of the table, the starts at or before a position are those of its line and of the lines above. -/
theorem length_filter_lineStarts (pos : Nat) :
    (source.lineStarts.filter fun start => start ≤ (pos : Int)).length = (source.chars.take pos).count '\n' + 1 := by
  have hstarts : ∀ i < (splitLines source.chars).length,
      lineStart source.chars i ≤ pos ↔ i ≤ (source.chars.take pos).count '\n' :=
    fun i hi => Text.lineStart_le_iff hi pos
  have hline := Text.count_take_lt_length source.chars pos
  revert hstarts hline
  generalize (source.chars.take pos).count '\n' = line
  intro hstarts hline
  obtain ⟨below, hbelow⟩ := Nat.exists_eq_add_of_lt hline
  rw [hbelow, Nat.add_right_comm] at hstarts
  rw [lineStarts_eq, hbelow, Nat.add_right_comm, List.range_add, List.map_append, List.filter_append,
    List.filter_eq_self.2, List.filter_eq_nil_iff.2]
  · simp
  · intro start hstart
    simp only [List.map_map, List.mem_map, List.mem_range, Function.comp_apply] at hstart
    obtain ⟨i, hi, rfl⟩ := hstart
    have := hstarts (line + 1 + i) (by omega)
    simp
    omega
  · intro start hstart
    simp only [List.mem_map, List.mem_range] at hstart
    obtain ⟨i, hi, rfl⟩ := hstart
    have := hstarts i (by omega)
    simp
    omega

/-- The line of a position is the one behind the newlines in front of it, and the column counts from where that line
starts. -/
theorem lineCol_eq (pos : Nat) :
    let line := (source.chars.take pos).count '\n'
    source.lineCol pos = (1 + (line : Int), pos - (lineStart source.chars line : Int) + 1) := by
  intro line
  have hstart : source.lineStarts[line]? = some (lineStart source.chars line : Int) := by
    rw [lineStarts_eq, List.getElem?_map, List.getElem?_range (Text.count_take_lt_length source.chars pos)]
    rfl
  simp only [lineCol, length_filter_lineStarts, Nat.add_one_ne_zero, if_false, Nat.add_sub_cancel, Prod.mk.injEq]
  constructor
  · omega
  · rw [hstart, Option.getD_some]

/-- A position behind another one is on a later line, or behind it on the same line. -/
theorem lex_lineCol {p q : Nat} (hpq : p < q) :
    Prod.Lex (· < ·) (· < ·) (source.lineCol p) (source.lineCol q) := by
  have hlines : (source.chars.take p).count '\n' ≤ (source.chars.take q).count '\n' :=
    (List.take_sublist_take_left (Nat.le_of_lt hpq)).count_le '\n'
  simp only [Prod.lex_def, lineCol_eq]
  obtain hline | hline := Nat.lt_or_eq_of_le hlines
  · left
    omega
  · right
    rw [hline]
    omega

/-- The table holds where each line starts. The line of any position, be it in the text or behind its end, is the one
behind the newlines in front of the position; it is a line of the text, and it and the lines above are those that start
at or before the position. The column tells how far behind that start the position is, so line and column give the
position back, and they grow with it. -/
theorem lineCol_inverts :
    source.lineStarts = (List.range (splitLines source.chars).length).map (fun i => (lineStart source.chars i : Int)) ∧
    (∀ pos : Nat,
      let line := (source.chars.take pos).count '\n'
      let start := lineStart source.chars line
      line < (splitLines source.chars).length ∧
      (∀ i < (splitLines source.chars).length, lineStart source.chars i ≤ pos ↔ i ≤ line) ∧
      source.lineCol pos = (1 + (line : Int), pos - (start : Int) + 1) ∧
      (start : Int) + (source.lineCol pos).2 - 1 = pos) ∧
    ∀ p q : Nat, p < q → Prod.Lex (· < ·) (· < ·) (source.lineCol p) (source.lineCol q) := by
  refine ⟨lineStarts_eq source, fun pos => ?_, fun p q => source.lex_lineCol⟩
  intro line start
  have hlineCol : source.lineCol pos = (1 + (line : Int), pos - (start : Int) + 1) := lineCol_eq source pos
  refine ⟨Text.count_take_lt_length source.chars pos, fun i hi => Text.lineStart_le_iff hi pos, hlineCol, ?_⟩
  rw [hlineCol]
  omega

/-- On newlines, on an empty line, at the end of the text and behind it. -/
theorem lineCol_inverts_emptyLine :
    let source := SourceText.mk "a\n\nb\n" "main.rs"
    ([0, 1, 2, 3, 4, 5, 6] : List Int).map source.lineCol =
        [(1, 1), (1, 2), (2, 1), (3, 1), (3, 2), (4, 1), (4, 2)] ∧
      (lineStart source.chars 3 : Int) + (source.lineCol 6).2 - 1 = 6 ∧
      Prod.Lex (· < ·) (· < ·) (source.lineCol 2) (source.lineCol 6) := by
  intro source
  obtain ⟨-, hpositions, hgrows⟩ := lineCol_inverts source
  have hline : (source.chars.take 6).count '\n' = 3 := by decide
  have hback := (hpositions 6).2.2.2
  rw [hline] at hback
  exact ⟨by decide, hback, hgrows 2 6 (by decide)⟩

end SourceText

end NestLint
