/-!
# Searching in texts

* `occursIn_iff`: what it means that a word occurs in a text.
-/

namespace NestLint.Text

/-- Whether a word occurs in a text. -/
def occursIn (word : List Char) : List Char → Bool
  | [] => word.isEmpty
  | c :: rest => word.isPrefixOf (c :: rest) || occursIn word rest

theorem occursIn_iff {word text : List Char} : occursIn word text = true ↔ word <:+: text := by
  induction text with
  | nil => simp [occursIn, List.isEmpty_iff]
  | cons c rest ih => simp [occursIn, ih, List.infix_cons_iff]

end NestLint.Text
