import NestLint.Json.Display
import NestLint.Report.Applicability
import NestLint.Text.Indent

/-!
# Cases

A case is a snippet together with what the lint is expected to say about it. Snippets are written
indented inside other text; the indentation that all lines share does not belong to them. Parts of a
case that are only compared or shown are kept as they were written, and null expects nothing.

A case is a `CollapseCase`, and `test_id` is its name.

* `Case.normalized`: the case as it is run;
* `reports_normalized`: a case that expects a guard expects no finding.
-/

namespace NestLint

/-- A snippet with expectations. -/
structure Case where
  name : Json
  source : String
  description : String := ""
  /-- The whole replacement of the suggestion. -/
  replacement : Json := .null
  /-- The whole source with the suggestion applied. -/
  fixed : Option String := none
  /-- What the replacement has to contain. -/
  fragments : Json := .list []
  message : Json := .null
  applicability : Applicability := .machineApplicable
  /-- Whether there is anything to report. -/
  reports : Json := .bool true
  /-- The guard that is expected to throw the match away, or null. -/
  rejectedBy : Json := .null
  /-- The macros whose bodies are not read, if they are not the usual ones. -/
  opaqueMacros : Option (List String) := none
  /-- Why the case is not run, if anything. -/
  skip : Json := .null
  deriving Repr, Inhabited

namespace Case

/-- Whether a guard is expected to throw the match away. -/
def expectsGuard (c : Case) : Bool := c.rejectedBy != .null

/-- The case as it is run: without shared indentation, and silent if a guard is expected. -/
def normalized (c : Case) : Case :=
  { c with
    source := Text.snippet c.source
    fixed := c.fixed.map Text.snippet
    reports := if c.expectsGuard then .bool false else c.reports }

/-- The name of the file that the snippet is read as. -/
def fileName (c : Case) : String := c.name.message ++ ".rs"

theorem reports_normalized {c : Case} (h : c.expectsGuard = true) : c.normalized.reports = .bool false := by
  simp [normalized, h]

end Case

end NestLint
