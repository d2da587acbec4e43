/-!
# Blank characters

The characters that count as blank space wherever text is trimmed: tab to carriage return, the four
separators below the space, the space, and the spaces and line separators of Unicode.

* `isBlank_of_isWhitespace`: every blank character of ASCII is one of them;
* `trimStart_eq_drop`: trimming takes away a run of blanks and nothing else.
-/

namespace NestLint.Text

/-- The blank characters as ranges of code points, both ends included. -/
def blankRanges : List (Nat × Nat) :=
  [(0x09, 0x0D), (0x1C, 0x20), (0x85, 0x85), (0xA0, 0xA0), (0x1680, 0x1680), (0x2000, 0x200A), (0x2028, 0x2029),
    (0x202F, 0x202F), (0x205F, 0x205F), (0x3000, 0x3000)]

/-- Whether a character is blank space. -/
def isBlank (c : Char) : Bool := blankRanges.any fun r => r.1 ≤ c.toNat && c.toNat ≤ r.2

/-- Whether a line holds blank space only. -/
def allBlank (cs : List Char) : Bool := cs.all isBlank

/-- The length of the run of blanks that a line starts with. -/
def leading (cs : List Char) : Nat := (cs.takeWhile isBlank).length

/-- Without the blanks at the start. -/
def trimStart (cs : List Char) : List Char := cs.dropWhile isBlank

/-- Without the blanks at the end. -/
def trimEnd (cs : List Char) : List Char := (cs.reverse.dropWhile isBlank).reverse

/-- Without the blanks at both ends. -/
def trim (cs : List Char) : List Char := trimEnd (trimStart cs)

theorem isBlank_of_isWhitespace {c : Char} (h : c.isWhitespace = true) : isBlank c = true := by
  simp only [Char.isWhitespace, Bool.or_eq_true, decide_eq_true_eq] at h
  rcases h with ((h | h) | h) | h <;> subst h <;> decide

theorem trimStart_eq_drop (cs : List Char) : trimStart cs = cs.drop (leading cs) := by
  induction cs with
  | nil => rfl
  | cons c rest ih =>
    by_cases h : isBlank c
    · simpa [trimStart, leading, h] using ih
    · simp [trimStart, leading, h]

end NestLint.Text
