import NestLint.Json.Display
import NestLint.Lint.Statistics
import NestLint.Report.Diagnostic
import NestLint.Text.Lines
import NestLint.Text.Search

/-!
# Expectations

What can be expected of findings, suggestions and counts. An expectation that is not met says what
was found instead. What is expected comes from documents: null expects nothing, and a value of
another kind than the one that is found is not met either, but then nothing can be said about it.

The expectations are `assert_single_diagnostic`, `assert_no_diagnostic`, `assert_suggestion`,
`assert_applies_to` and `assert_rejected`.

* `single_eq_ok`: a single finding is met exactly by that finding;
* `rejectedBy_text`: what is expected of a guard with a name.
-/

namespace NestLint

/-- Why an expectation is not met. -/
inductive Shortfall where
  /-- Something else was found. There may be nothing more to say about it. -/
  | unmet (message : String)
  /-- What is expected cannot be compared or shown. -/
  | misfit (fault : Misfit)
  deriving DecidableEq, Repr, Inhabited

namespace Expectation

/-- Findings for a reader, each line further in. -/
def rendered (found : List Diagnostic) : String :=
  "\n".intercalate (found.map fun d => Text.indent (d.render none))

/-- What is said about a text that is not the expected one, if that is a text. -/
def differs (what : String) (expected : Json) (actual : String) : Shortfall :=
  match expected with
  | .str expected =>
    .unmet (what ++ " does not match expected:\n  Expected:\n" ++ Text.indent expected ++ "\n  Actual:\n" ++
      Text.indent actual)
  | _ => .misfit .lacking

/-- There is exactly one finding, and it is one of a lint if that is asked for. -/
def single (found : List Diagnostic) (lint : Json := .null) : Except Shortfall Diagnostic :=
  match found with
  | [d] =>
    match lint with
    | .null => .ok d
    | lint =>
      if lint == .str d.lint.name then .ok d
      else .error (.unmet ("Expected a " ++ lint.message ++ " diagnostic, got " ++ d.lint.name))
  | found =>
    let lines := rendered found
    .error (.unmet ("Expected exactly one diagnostic, got " ++ toString found.length ++ ":\n" ++
      (if lines = "" then "    <none>" else lines)))

/-- There is no finding in a source. -/
def silent (found : List Diagnostic) (source : Json) : Except Shortfall Unit :=
  if found.isEmpty then .ok ()
  else
    match source with
    | .str source =>
      .error (.unmet ("Expected no diagnostic, got " ++ toString found.length ++ ":\n" ++ rendered found ++
        "\n  Source:\n" ++ Text.indent source))
    | _ => .error (.misfit .lacking)

/-- The fragments that a value asks for. -/
def fragmentsIn (fragments : Json) : Fitting (List String) :=
  if fragments.truthy then do (← fragments.needParts).mapM fun fragment => Misfit.wrongKind.orElse fragment.str?
  else .ok []

/-- The finding has a suggestion, with a replacement, a rating and fragments if they are asked
for. -/
def suggestion (d : Diagnostic) (replacement : Json) (applicability : Option Applicability) (fragments : Json) :
    Except Shortfall Suggestion := do
  match d.suggestion with
  | none => throw (.unmet ("Diagnostic has no suggestion: " ++ d.render none))
  | some s =>
    if replacement != .null && replacement != .str s.replacement then
      throw (differs "Replacement" replacement s.replacement)
    if applicability.any (· != s.applicability) then
      throw (.unmet ("Expected applicability " ++ ((applicability.map Applicability.name).getD "") ++ ", got " ++
        s.applicability.name))
    let fragments ← (fragmentsIn fragments).mapError Shortfall.misfit
    let absent := fragments.filter fun fragment => !Text.occursIn fragment.toList s.replacement.toList
    if absent.isEmpty then return s
    else
      throw (.unmet ("Missing required patterns in replacement:\n  Missing: " ++ Json.displayStrings absent ++
        "\n  Replacement:\n" ++ Text.indent s.replacement))

/-- The suggestion turns the text into another one. -/
def applies (s : Suggestion) (text : String) (expected : Json) : Except Shortfall String :=
  let fixed := s.apply text
  if expected == .str fixed then .ok fixed else .error (differs "Applied suggestion" expected fixed)

/-- What is said where a guard threw nothing away. -/
def unrejectedMessage (s : Statistics) (lint guard : Label) : String :=
  "Expected guard " ++ guard.document.display ++ " to reject a " ++ lint.shown ++ " match:\n  Rejections: " ++
    (s.guards lint).shown

/-- A guard has thrown away at least one match of a lint. -/
def rejected (s : Statistics) (lint guard : String) : Except Shortfall Unit :=
  if ((s.guards (.text lint)).count (.text guard)).isZero then
    .error (.unmet (unrejectedMessage s (.text lint) (.text guard)))
  else .ok ()

/-- The same for any label. Null stands for all guards together. -/
def rejectedBy (s : Statistics) (lint guard : Label) : Except CountFault (Except Shortfall Unit) :=
  (s.rejectionCount lint guard).map fun count =>
    if count.isZero then .error (.unmet (unrejectedMessage s lint guard)) else .ok ()

theorem rejectedBy_text (s : Statistics) (lint guard : String) :
    rejectedBy s (.text lint) (.text guard) = .ok (rejected s lint guard) := rfl

theorem single_eq_ok (found : List Diagnostic) (d : Diagnostic) : single found = .ok d ↔ found = [d] := by
  match found with
  | [] => simp [single]
  | [x] => simp [single]
  | _ :: _ :: _ => simp [single]

end Expectation

end NestLint
