/-!
# Lines

A text is a list of lines with a newline between each two. A text always has at least one line, and
a text that ends in a newline has an empty last line.

Indenting all lines is `_indent`.

* `join_split`: cutting a text into lines and joining them again gives the text back;
* `split_ne_nil`: there is always a first line.
-/

namespace NestLint.Text

/-- The lines of a text. -/
def splitLines : List Char → List (List Char)
  | [] => [[]]
  | c :: rest =>
    if c = '\n' then [] :: splitLines rest
    else match splitLines rest with
      | [] => [[c]]
      | line :: lines => (c :: line) :: lines

/-- The text with these lines. -/
def joinLines : List (List Char) → List Char
  | [] => []
  | [line] => line
  | line :: lines => line ++ '\n' :: joinLines lines

/-- Every line of a text changed by `f`. -/
def mapLines (f : List Char → List Char) (text : List Char) : List Char := joinLines ((splitLines text).map f)

/-- Each line of `text` with four blanks in front. -/
def indent (text : String) : String :=
  String.ofList (mapLines (fun line => ' ' :: ' ' :: ' ' :: ' ' :: line) text.toList)

theorem split_ne_nil (text : List Char) : splitLines text ≠ [] := by
  induction text with
  | nil => simp [splitLines]
  | cons c rest ih =>
    unfold splitLines
    split
    · simp
    · split <;> simp

theorem joinLines_cons {line : List Char} {lines : List (List Char)} (h : lines ≠ []) :
    joinLines (line :: lines) = line ++ '\n' :: joinLines lines := by
  cases lines with
  | nil => contradiction
  | cons _ _ => rfl

theorem join_split (text : List Char) : joinLines (splitLines text) = text := by
  induction text with
  | nil => rfl
  | cons c rest ih =>
    have hne := split_ne_nil rest
    unfold splitLines
    split
    · rename_i h
      rw [joinLines_cons hne, ih, h]; rfl
    · split
      · rename_i h; exact absurd h hne
      · rename_i line lines h
        rw [h] at ih
        cases lines with
        | nil => simpa [joinLines] using ih
        | cons _ _ => simpa [joinLines] using ih

end NestLint.Text
