import NestLint.Lint.Statistics
import NestLint.Match.Matcher
import NestLint.Report.Diagnostic
import NestLint.Source.Text

/-!
# Lint passes

A lint pass is a list of patterns with a handler that turns matches into findings of the pass's
lint. What it tells on the way is what is counted.

A pass is a `LintPass` with `accepts`, `is_candidate`, `reject` and `span_lint_and_sugg`.

* `Pass.scheme`: a pass at work on a file.
-/

namespace NestLint

/-- What a handler of a pass can answer with: a finding, or a value that is none. -/
inductive Finding where
  | diagnostic (d : Diagnostic)
  | value (v : Json)
  deriving Repr, Inhabited

namespace Finding

/-- The diagnostic, if the finding is one. -/
def diagnostic? : Finding → Option Diagnostic
  | .diagnostic d => some d
  | .value _ => none

/-- Only diagnostics are wanted of a pass. -/
def wanted : Wanted Finding := ⟨"Diagnostic", fun f => f.diagnostic?.isSome⟩

end Finding

/-- What a handler does with a match. -/
abbrev Handling : Type := List (Step Occurrence) × Reply Finding

/-- A lint pass as it is declared. -/
structure Pass where
  /-- The name of the pass. -/
  title : String
  /-- The name under which rules and registries know the pass. -/
  key : String := title
  lint : Lint
  patterns : List Pattern
  /-- Whether the patterns are tried on a node at all. -/
  isCandidate : Site → Except MatchFault Bool := fun _ => .ok true
  /-- The handler, with the lint at the level in force and the text of the file. -/
  handle : Lint → SourceText → Nat → Site → Captures Site → Handling

namespace Pass

/-- The pass with its lint at the level in force. -/
def atLevel (p : Pass) (level : Option Level) : Pass :=
  match level with
  | none => p
  | some level => { p with lint := p.lint.withLevel level }

/-- The pass at work on a file. -/
def scheme (p : Pass) (source : SourceText) : Scheme Occurrence Finding where
  title := p.lint.name
  patterns := p.patterns
  accepts := fun
    | none => .error (.noNode "kind")
    | some site => p.isCandidate site
  onAccept := fun _ => [.told (.candidate (.text p.lint.name))]
  handle := fun number item captures =>
    match item with
    | none => ([], .nothing)
    | some site => p.handle p.lint source number site captures

/-- The finding with a single suggestion that replaces its span. -/
def finding (lint : Lint) (span : Span) (message help replacement : String) (rating : Applicability) : Handling :=
  ([], .result (.diagnostic ⟨lint, span, message, some ⟨span, replacement, rating, help⟩⟩))

/-- What is noted about a match that a guard throws away. -/
def rejectionNote (lint : Lint) (guard : String) (site : Site) : Note :=
  .debug Note.lintsChannel (lint.name ++ ": " ++ site.text ++ " rejected by " ++ guard)

/-- A guard throws a match away. -/
def reject (lint : Lint) (guard : Label) (site : Site) : Handling :=
  ([.note (rejectionNote lint guard.shown site),
    .told (.rejected (.text lint.name) guard)], .nothing)

/-- A capture that the handler needs is missing. -/
def lacking (name : String) : Handling := ([], .fault (.noCapture name))

/-- Do what `handling` says, after the steps `before`. -/
def after (before : List (Step Occurrence)) (handling : Handling) : Handling := (before ++ handling.1, handling.2)

/-- The steps for notes. -/
def noting (notes : List Note) : List (Step Occurrence) := notes.map .note

end Pass

end NestLint
