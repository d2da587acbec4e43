import NestLint.Case.Basic
import NestLint.Report.Document

/-!
# Cases as documents

A case is an object with at least a name and a source. Nothing else than what belongs to a case may
be in it.

* `Case.ofDocument`: the case as it is run.
-/

namespace NestLint.Case

/-- What an object for a case may hold. -/
def memberNames : List String :=
  ["name", "source", "description", "expected_replacement", "expected_fixed",
    "replacement_contains", "expected_message",
    "applicability", "expect_diagnostic", "rejected_by", "opaque_macros", "skip"]

/-- Whether a document can be a case: it has a name, and texts where texts are taken apart. -/
def isCase (j : Json) : Bool :=
  j.members.all (fun entry => memberNames.contains entry.1) && j.has "name" && (j.textAt? "source").isSome &&
    (j.member "expected_fixed" == .null || (j.textAt? "expected_fixed").isSome)

/-- The rating that a document asks for. -/
def ratingIn (j : Json) : Fitting Applicability :=
  ((j.get? "applicability").map (Json.naming Applicability.ofName?)).getD (.ok .machineApplicable)

/-- The macros that a document names, if it does. What is no name may stand among them. -/
def macrosIn (j : Json) : Fitting (Option (List String)) := do
  if j.member "opaque_macros" == .null then return none
  return some (← (j.member "opaque_macros").needNames)

/-- The case that a document stands for. -/
def ofDocument (j : Json) : Fitting Case := do
  let applicability ← ratingIn j
  let opaqueMacros ← macrosIn j
  if !isCase j then throw .wrongKind
  return Case.normalized
    { name := j.member "name"
      source := j.textAt "source"
      description := j.textAt "description"
      replacement := j.member "expected_replacement"
      fixed := j.textAt? "expected_fixed"
      fragments := j.member "replacement_contains"
      message := j.member "expected_message"
      applicability
      reports := (j.get? "expect_diagnostic").getD (.bool true)
      rejectedBy := j.member "rejected_by"
      opaqueMacros
      skip := j.member "skip" }

/-- What there is to know about a case before it is run. -/
def sheet (c : Case) : Dict Json :=
  [("source", .str c.source), ("expected_fixed", Json.ofString? c.fixed), ("expect_diagnostic", c.reports),
    ("rejected_by", c.rejectedBy), ("applicability", .str c.applicability.name), ("test_id", c.name),
    ("argname", .str "case"), ("ids", .list [c.name])]

end NestLint.Case
