import NestLint.Source.Text
import NestLint.Text.Casing

/-!
# Lints, suggestions and diagnostics

A lint is a rule with a name and a level. A diagnostic is one finding of a lint at a span, with a
suggestion that replaces the text of a span if there is one.

These are `Lint` with `Level.parse` and `with_level`, `Suggestion.apply`, and `Diagnostic.render`.

* `apply_outside`: a suggestion leaves the text before and after its span as it is.
-/

namespace NestLint

/-- How seriously a lint is taken. -/
inductive Level where
  | allow
  | warn
  | deny
  deriving DecidableEq, Repr, Inhabited

namespace Level

/-- The name of a level in findings. -/
def name : Level → String
  | .allow => "allow"
  | .warn => "warning"
  | .deny => "error"

/-- The level that a configuration writes as `text`, without regard to case. -/
def ofText? (text : String) : Option Level :=
  match Text.lower text with
  | "allow" => some .allow
  | "warn" => some .warn
  | "deny" => some .deny
  | _ => none

/-- What is reported for a text that names no level. -/
def unknownMessage (text : String) : String := "Unknown lint level: " ++ text

end Level

/-- A rule that passes report on. -/
structure Lint where
  name : String
  level : Level
  description : String
  group : String := "style"
  deriving DecidableEq, Repr, Inhabited

/-- The lint at another level. -/
def Lint.withLevel (lint : Lint) (level : Level) : Lint := { lint with level }

/-- Replace the text of `span` by `replacement`. -/
structure Suggestion where
  span : Span
  replacement : String
  applicability : Applicability
  message : String := "try"
  deriving DecidableEq, Repr, Inhabited

namespace Suggestion

/-- The text with the suggestion applied. Bounds are taken as slices take them. -/
def applyList (s : Suggestion) (text : List Char) : List Char :=
  Text.upTo text s.span.lo ++ s.replacement.toList ++ Text.onwards text s.span.hi

/-- The text with the suggestion applied. -/
def apply (s : Suggestion) (text : String) : String := String.ofList (s.applyList text.toList)

theorem apply_outside {s : Suggestion} {text : List Char} {lo hi : Nat} (hlo : s.span.lo = lo) (hhi : s.span.hi = hi)
    (hl : lo ≤ text.length) (hh : hi ≤ text.length) :
    s.applyList text = text.take lo ++ s.replacement.toList ++ text.drop hi := by
  simp [applyList, Text.upTo, Text.onwards, hlo, hhi, Text.bound_of_nonneg, hl, hh]

end Suggestion

/-- One finding of a lint. -/
structure Diagnostic where
  lint : Lint
  span : Span
  message : String
  suggestion : Option Suggestion := none
  deriving DecidableEq, Repr, Inhabited

namespace Diagnostic

/-- Where the finding is: by line and column if the source is known, by its span otherwise. -/
def location (d : Diagnostic) : Option SourceText → String
  | none => toString d.span.lo ++ ".." ++ toString d.span.hi
  | some source =>
    let (line, col) := source.lineCol d.span.lo
    source.name ++ ":" ++ toString line ++ ":" ++ toString col

/-- The finding for a reader: a line, and a second one for the suggestion. A suggestion that is not
safe says so. -/
def render (d : Diagnostic) (source : Option SourceText) : String :=
  let head := d.location source ++ ": " ++ d.lint.level.name ++ ": " ++ d.message ++ " [" ++ d.lint.name ++ "]"
  match d.suggestion with
  | none => head
  | some s =>
    head ++ "\n  " ++ s.message ++ ": `" ++ s.replacement ++ "`" ++
      (if s.applicability.isMachineApplicable then "" else " (" ++ s.applicability.name ++ ")")

/-- The suggestions among findings, in order. -/
def suggestions (found : List Diagnostic) : List Suggestion := found.filterMap (·.suggestion)

end Diagnostic

end NestLint
