import NestLint.Json.Misfit
import NestLint.Json.Parser
import NestLint.Lint.Tally
import NestLint.Log.Note

/-!
# Statistics of lint sessions

For every lint it is counted how many nodes were offered to its pass, how many matched a pattern,
how many of those a guard threw away, how many findings were reported, and on how many nodes the
pass failed. Every count goes up because something occurred, and the occurrences are what the rest
of the program produces.

The counts are `LintStatistics`: `record_candidate` and its siblings for what occurs,
`get_match_count`, `get_diagnostic_count` and `get_rejection_count` for single counts, `report` and
`summary`, and `to_dict`, `to_json`, `from_dict` and `from_json`.

* `Statistics.record`: one occurrence;
* `Statistics.toJson`, `Statistics.ofJson`: written down and read back;
* `Statistics.report`: the counts for a reader;
* `upToFault_ok`: a report without a fault is complete.
-/

namespace NestLint

/-- What can occur in a session, with the lint that it is about. -/
inductive Occurrence where
  | candidate (lint : Label)
  | matched (lint : Label)
  | rejected (lint guard : Label)
  | reported (lint : Label)
  | failed (lint : Label)
  deriving DecidableEq, Repr, Inhabited

/-- The lint in question. -/
def Occurrence.lint : Occurrence → Label
  | .candidate lint | .matched lint | .rejected lint _ | .reported lint | .failed lint => lint

/-- The counts of one or more sessions. -/
structure Statistics where
  candidates : Tally := []
  matched : Tally := []
  /-- By lint, then by guard. -/
  rejected : Table Label Tally := []
  reported : Tally := []
  failed : Tally := []
  deriving Repr, Inhabited, BEq

namespace Statistics

/-- The counts of the guards of a lint. -/
def guards (s : Statistics) (lint : Label) : Tally := (Tally.find? s.rejected lint).getD []

/-- The statistics with a place for the guards of a lint. -/
def openGuards (s : Statistics) (lint : Label) : Statistics :=
  { s with rejected := Tally.keep s.rejected lint (s.guards lint) }

/-- The statistics after an occurrence. -/
def record (s : Statistics) : Occurrence → Except CountFault Statistics
  | .candidate lint => (s.candidates.countUp lint).map fun counts => { s with candidates := counts }
  | .matched lint => (s.matched.countUp lint).map fun counts => { s with matched := counts }
  | .rejected lint guard =>
    ((s.guards lint).countUp guard).map fun counts => { s with rejected := Tally.keep s.rejected lint counts }
  | .reported lint => (s.reported.countUp lint).map fun counts => { s with reported := counts }
  | .failed lint => (s.failed.countUp lint).map fun counts => { s with failed := counts }

/-- The statistics after what occurred in a session. An occurrence that cannot be counted is passed
over. -/
def recordAll (s : Statistics) (occurrences : List Occurrence) : Statistics :=
  occurrences.foldl (fun s o => (s.record o).toOption.getD s) s

/-! ## Queries -/

/-- How many nodes matched a pattern of a lint. -/
def matchCount (s : Statistics) (lint : Label) : Json := s.matched.count lint

/-- How many findings of a lint were reported. -/
def reportCount (s : Statistics) (lint : Label) : Json := s.reported.count lint

/-- How many matches of a lint all guards together threw away. -/
def rejectionTotal (s : Statistics) (lint : Label) : Except CountFault Json :=
  Json.total (Dict.values (s.guards lint))

/-- How many matches of a lint a guard threw away. No guard at all stands for all of them
together. -/
def rejectionCount (s : Statistics) (lint : Label) : Label → Except CountFault Json
  | .nothing => s.rejectionTotal lint
  | guard => .ok ((s.guards lint).count guard)

/-- The sums over all lints. -/
def summary (s : Statistics) : Except CountFault (Dict Json) := do
  let matched ← Json.total (Dict.values s.matched)
  let add (sum : Json) (counts : Tally) : Except CountFault Json := do sum.plus (← Json.total (Dict.values counts))
  let rejections ← (Dict.values s.rejected).foldlM add (.int 0)
  let reported ← Json.total (Dict.values s.reported)
  return [("lints", .int s.candidates.length), ("total_matches", matched), ("total_rejections", rejections),
    ("total_diagnostics", reported)]

/-! ## Reports -/

/-- A line of a report on the levels that are written. A line that is not written is not put
together either. -/
def reportLine (written : Int → Bool) (level : Int) (text : Except CountFault String) :
    List (Except CountFault Note) :=
  if written level then [text.map fun text => ⟨Note.engineChannel, level, text⟩] else []

/-- The first line of the report on a lint. -/
def reportHead (s : Statistics) (written : Int → Bool) (lint : Label) : List (Except CountFault Note) :=
  match s.rejectionTotal lint with
  | .error fault => [.error fault]
  | .ok rejections =>
    reportLine written Note.infoLevel do
      let candidates ← (s.candidates.count lint).wholeText
      let matched ← (s.matchCount lint).wholeText
      let rejected ← rejections.wholeText
      let reported ← (s.reportCount lint).wholeText
      return lint.shown ++ ": " ++ candidates ++ " candidates, " ++ matched ++ " matches, " ++ rejected ++
        " rejected, " ++ reported ++ " diagnostics"

/-- The lines of the report on the guards of a lint, in order. -/
def reportGuards (s : Statistics) (written : Int → Bool) (lint : Label) : List (Except CountFault Note) :=
  match Label.sorted? (Dict.keys (s.guards lint)) with
  | none => [.error .noOrder]
  | some guards => guards.flatMap fun guard =>
    reportLine written Note.infoLevel do
      return "  rejected by " ++ guard.shown ++ ": " ++ (← ((s.guards lint).count guard).wholeText)

/-- The line of the report on failures, if there were any. -/
def reportFailures (s : Statistics) (written : Int → Bool) (lint : Label) : List (Except CountFault Note) :=
  let failures := (Tally.find? s.failed lint).getD .null
  if failures.truthy then
    reportLine written Note.warningLevel do
      return "  " ++ lint.shown ++ " failed on " ++ (← failures.wholeText) ++ " nodes"
  else []

/-- The lines of the report on one lint. -/
def reportOn (s : Statistics) (written : Int → Bool) (lint : Label) : List (Except CountFault Note) :=
  s.reportHead written lint ++ s.reportGuards written lint ++ s.reportFailures written lint

/-- The lines before the first that cannot be written, and what is wrong with that one. -/
def upToFault : List (Except CountFault Note) → List Note × Except CountFault Unit
  | [] => ([], .ok ())
  | .error fault :: _ => ([], .error fault)
  | .ok line :: rest =>
    let (lines, result) := upToFault rest
    (line :: lines, result)

/-- The report on all lints that were offered a node, up to the first count that cannot be
written. -/
def report (s : Statistics) (written : Int → Bool) : List Note × Except CountFault Unit :=
  if s.candidates.isEmpty then ([.info Note.engineChannel "No lint pass ran"], .ok ())
  else
    match Label.sorted? (Dict.keys s.candidates) with
    | none => ([], .error .noOrder)
    | some lints => upToFault (lints.flatMap (s.reportOn written))

theorem upToFault_ok (lines : List Note) : upToFault (lines.map .ok) = (lines, .ok ()) := by
  induction lines with
  | nil => rfl
  | cons line rest ih => simp [upToFault, ih]

/-! ## Written down and read back -/

/-- The statistics as a document. -/
def toJson (s : Statistics) : Json :=
  .object [("candidates", s.candidates.document), ("matches", s.matched.document),
    ("guard_rejections", .object (s.rejected.map fun entry => (entry.1.memberName, entry.2.document))),
    ("diagnostics", s.reported.document), ("failures", s.failed.document)]

/-- What keeps a document from being read as statistics. -/
inductive RestoreFault where
  /-- The text cannot be read as a document. -/
  | noDocument (fault : Json.ParseFault)
  /-- Something in the document is not what it should be. -/
  | misfit (fault : Misfit)
  deriving DecidableEq, Repr, Inhabited

/-- The counts in member `key` of a document. -/
def countsIn (document : Json) (key : String) : Fitting Tally :=
  match document.get? key with
  | none => .ok []
  | some value => value.pairs.map Tally.ofList

/-- The statistics in a document. -/
def ofJson (document : Json) : Fitting Statistics := do
  if document.members?.isNone then throw .lacking
  let candidates ← countsIn document "candidates"
  let matched ← countsIn document "matches"
  let byLint ← match document.get? "guard_rejections" with
    | none => pure []
    | some value => Misfit.lacking.orElse value.members?
  let rejected ← byLint.mapM fun entry => do return (Label.text entry.1, Tally.ofList (← entry.2.pairs))
  let reported ← countsIn document "diagnostics"
  let failed ← countsIn document "failures"
  return { candidates, matched, rejected, reported, failed }

/-- The statistics as text. -/
def print (layout : Json.Layout) (s : Statistics) : String := Json.print layout s.toJson

/-- The statistics in a text. -/
def parse (text : String) : Except RestoreFault Statistics :=
  match Json.parse text with
  | .error fault => .error (.noDocument fault)
  | .ok document => (ofJson document).mapError .misfit

end Statistics

end NestLint
