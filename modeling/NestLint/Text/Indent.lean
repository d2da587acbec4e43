import NestLint.Text.Blank
import NestLint.Text.Lines

/-!
# Common indentation

Two ways to take away indentation that the lines of a text share.

`reindent` is for code that starts in the middle of a line: it counts blank characters of any kind,
and its first line takes no part unless asked to. `dedent` is for a whole snippet written inside
other text: it takes the longest start that all lines share, and only spaces and tabs count.

The first is `trim_multiline`; the second is what a `CollapseCase` does to its texts.

* `reindent_of_width_eq_none`: without a line to measure, the text stays as it is;
* `commonStart_length_le`: the shared start is never longer than either line.
-/

namespace NestLint.Text

/-! ## Re-indenting code -/

/-- The least number of blanks that a line with something on it starts with; none if no line has
anything on it. -/
def width (lines : List (List Char)) : Option Nat :=
  ((lines.filter fun line => !allBlank line).map leading).min?

/-- A line without its first `k` characters; a blank line becomes empty. -/
def outdent (k : Nat) (line : List Char) : List Char := if allBlank line then [] else line.drop k

/-- Take the shared indentation off every line, or off every line but the first. -/
def reindentLines (ignoreFirst : Bool) (text : List Char) : List Char :=
  let lines := splitLines text
  let measured := if ignoreFirst then lines.drop 1 else lines
  match width measured with
  | none | some 0 => text
  | some k =>
    joinLines (if ignoreFirst then lines.take 1 ++ measured.map (outdent k) else lines.map (outdent k))

/-- Strip the indentation that the lines of `text` share. The first line usually starts in the
middle of a line of the file, so by default it takes no part. -/
def reindent (text : String) (ignoreFirst : Bool := true) : String :=
  String.ofList (reindentLines ignoreFirst text.toList)

theorem reindent_of_width_eq_none {text : List Char} (h : width (splitLines text) = none) :
    reindentLines false text = text := by
  simp [reindentLines, h]

/-! ## Dedenting a snippet -/

/-- The longest start that two lines share. -/
def commonStart : List Char → List Char → List Char
  | a :: as, b :: bs => if a = b then a :: commonStart as bs else []
  | _, _ => []

theorem commonStart_length_le (as bs : List Char) :
    (commonStart as bs).length ≤ as.length ∧ (commonStart as bs).length ≤ bs.length := by
  induction as generalizing bs with
  | nil => simp [commonStart]
  | cons a as ih =>
    cases bs with
    | nil => simp [commonStart]
    | cons b bs =>
      unfold commonStart
      split
      · have := ih bs; simp only [List.length_cons]; omega
      · simp

/-- Whether a character is a space or a tab. -/
def isIndent (c : Char) : Bool := c = ' ' || c = '\t'

/-- The spaces and tabs that every line with something else on it starts with. -/
def margin (lines : List (List Char)) : List Char :=
  match (lines.filter fun line => !line.all isIndent).map fun line => line.takeWhile isIndent with
  | [] => []
  | first :: rest => rest.foldl commonStart first

/-- Take the shared margin off every line; a line of spaces and tabs becomes empty. -/
def dedent (text : List Char) : List Char :=
  let k := (margin (splitLines text)).length
  mapLines (fun line => if line.all isIndent then [] else line.drop k) text

/-- A snippet as it is kept: dedented, without blanks at its ends. -/
def snippet (text : String) : String := String.ofList (trim (dedent text.toList))

end NestLint.Text
