import NestLint.Log.Note
import NestLint.Report.Applicability
import NestLint.Text.Indent
import NestLint.Text.Quoted
import NestLint.Text.Slice
import NestLint.Tree.Span

/-!
# Source text

The text of one file, which spans point into. A span is readable if it lies inside the text with its
bounds in order; a default stands in for the text of any other span, and lowers the rating of a fix
that is built from it.

The text is a `SourceMap` with `snippet_opt`, `snippet`, `snippet_block`,
`snippet_with_applicability`, `snippet_block_with_applicability` and `lookup_line_col`.

* `snippet?_isSome`: exactly the readable spans have a text;
* `lineCol`: the line and column of a position.
-/

namespace NestLint

/-- The text of one file, with the file's name. -/
structure SourceText where
  text : String
  name : String := "<input>"
  deriving DecidableEq, Repr, Inhabited

namespace SourceText

/-- The characters of the text. -/
def chars (source : SourceText) : List Char := source.text.toList

/-- Whether a span lies inside the text. -/
def readable (source : SourceText) (span : Span) : Bool :=
  0 ≤ span.lo && span.hi ≤ source.chars.length && span.lo ≤ span.hi

/-- The text of a readable span. -/
def snippet? (source : SourceText) (span : Span) : Option String :=
  if source.readable span then some (String.ofList ((source.chars.take span.hi.toNat).drop span.lo.toNat)) else none

/-- What is noted when the text of a span is asked for. -/
def notes (source : SourceText) (span : Span) : List Note :=
  if source.readable span then []
  else [.debug Note.engineChannel ("Span " ++ span.text ++ " is outside of " ++ source.name)]

/-- The text of a span, or `default`. -/
def snippet (source : SourceText) (span : Span) (default : String) : String := (source.snippet? span).getD default

/-- The text of a span, or `default`, with its continuation lines re-indented. -/
def snippetBlock (source : SourceText) (span : Span) (default : String) : String :=
  Text.reindent (source.snippet span default)

/-- The text of a span with the rating of a fix that uses it. Text from a macro may not be what its
author wrote, so it lowers the rating; a span that cannot be read leaves it unspecified. -/
def ratedSnippet (source : SourceText) (span : Span) (default : String) (rating : Applicability) :
    String × Applicability :=
  let rating := if span.fromExpansion then rating.degrade .maybeIncorrect else rating
  match source.snippet? span with
  | some text => (text, rating)
  | none => (default, rating.degrade .unspecified)

/-- Like `ratedSnippet`, with the continuation lines re-indented. -/
def ratedSnippetBlock (source : SourceText) (span : Span) (default : String) (rating : Applicability) :
    String × Applicability :=
  let (text, rating) := source.ratedSnippet span default rating
  (Text.reindent text, rating)

/-! ## Lines and columns -/

/-- The positions behind each newline, counted from `at`. -/
def startsAfter : Int → List Char → List Int
  | _, [] => []
  | pos, c :: rest => if c = '\n' then (pos + 1) :: startsAfter (pos + 1) rest else startsAfter (pos + 1) rest

/-- The positions at which the lines of the text start. -/
def lineStarts (source : SourceText) : List Int := 0 :: startsAfter 0 source.chars

/-- The line and the column of a position, both counted from 1. The line is the last one that starts
at or before the position; a position before the text is placed on line 0 and measured from the last
line. -/
def lineCol (source : SourceText) (pos : Int) : Int × Int :=
  let starts := source.lineStarts
  let line := (starts.filter fun start => start ≤ pos).length
  let start := if line = 0 then starts.getLast?.getD 0 else starts[line - 1]?.getD 0
  (line, pos - start + 1)

/-- The source as it is shown in messages. -/
def display (source : SourceText) : String :=
  "SourceMap(" ++ Text.quoted source.name ++ ", " ++ toString source.chars.length ++ " bytes)"

theorem snippet?_isSome (source : SourceText) (span : Span) :
    (source.snippet? span).isSome = source.readable span := by
  unfold snippet?; split <;> simp_all

end SourceText

end NestLint
