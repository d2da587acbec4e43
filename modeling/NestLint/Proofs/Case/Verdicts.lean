import NestLint.Case.Run
import NestLint.Proofs.Lint.Guards
import NestLint.Proofs.Outcomes
import NestLint.Proofs.Reader.Adequacy

/-!
# Verdicts on cases that share their counts

A case may expect that a guard throws its match away. Whether one did is looked up in the counts, and
cases that are run one after the other may share them. So the verdict on such a case is one on all that
the guard has thrown away so far; every other verdict depends on the case alone.

So the verdicts of `run_collapse_case` depend on the `LintStatistics` that it is given, through
`assert_rejected` alone.

* `checked?`: what comes of a case before it is compared with its expectations;
* `counts_runAll`: the counts that a series of cases leaves;
* `verdict_eq_ok_iff`: what a verdict reads of the counts;
* `passes_of_sharing`: when earlier cases make a difference;
* `stale_rejection`: a case that passes on account of an earlier one.
-/

namespace NestLint

namespace Case

open Occurrence (Rejected)

/-! ## What comes of a case -/

section Runs

variable (parser : Parser) (c : Case) (start : State)

/-- The source that was read, the findings, and what occurred, if the case is run and its snippet can be read. -/
def checked? : Option (ParsedSource × List Diagnostic × List Occurrence) :=
  match c.hindrance? with
  | some _ => none
  | none =>
    let macros := c.opaqueMacros.getD Reader.formattingMacros
    (NestLint.read parser macros c.source c.fileName ⟨start.nextOrigin, []⟩).1.toOption.map fun parsed =>
      let (found, progress) := Session.check [collapsibleIf] start.context parsed.root parsed.source Session.Sink.silent
      (parsed, found, progress.occurrences)

/-- What occurs in the run of a case. -/
def occurrences : List Occurrence := (c.checked? parser start).elim [] fun checked => checked.2.2

/-- The run of the case succeeds. -/
def Passes : Prop := ∃ parsed, (c.run parser start).result = .ok parsed

/-- A case succeeds if it comes to a verdict and that is a good one. -/
theorem passes_iff : c.Passes parser start ↔ ∃ parsed found os, c.checked? parser start = some (parsed, found, os) ∧
    c.verdict found parsed.source.text (start.counts.recordAll os) = .ok () := by
  rw [Passes, run, checked?]
  cases c.hindrance? with
  | some fault => simp
  | none =>
    simp only
    rcases NestLint.read parser (c.opaqueMacros.getD Reader.formattingMacros) c.source c.fileName
      ⟨start.nextOrigin, []⟩ with ⟨fault | parsed, read⟩
    · simp [Except.toOption]
    · have hselected : (Session.select [] [collapsibleIf]).2 = .ok [collapsibleIf] := rfl
      simp only [hselected, Except.toOption, Option.map_some, Option.some.injEq, Prod.mk.injEq]
      constructor
      · rintro ⟨parsed', h⟩
        refine ⟨_, _, _, ⟨rfl, rfl, rfl⟩, ?_⟩
        split at h
        · assumption
        · cases h
      · rintro ⟨_, _, _, ⟨rfl, rfl, rfl⟩, h⟩
        exact ⟨parsed, by rw [h]⟩

/-- What a run adds to the counts is what occurs in it. -/
theorem counts_run : (c.run parser start).state.counts = start.counts.recordAll (c.occurrences parser start) := by
  rw [occurrences, run, checked?]
  cases c.hindrance? with
  | some fault => rfl
  | none =>
    simp only
    rcases NestLint.read parser (c.opaqueMacros.getD Reader.formattingMacros) c.source c.fileName
      ⟨start.nextOrigin, []⟩ with ⟨fault | parsed, read⟩
    · rfl
    · rfl

end Runs

/-! ## Cases one after the other -/

section Series

variable (parser : Parser)

/-- Where cases lead that are run one after the other, each from where the one before it ends. -/
def runAll : State → List Case → State
  | start, [] => start
  | start, c :: rest => runAll (c.run parser start).state rest

/-- What occurs in all of these runs. -/
def occurrencesAll : State → List Case → List Occurrence
  | _, [] => []
  | start, c :: rest => c.occurrences parser start ++ occurrencesAll (c.run parser start).state rest

theorem counts_runAll (start : State) (cases : List Case) :
    (runAll parser start cases).counts = start.counts.recordAll (occurrencesAll parser start cases) := by
  induction cases generalizing start with
  | nil => rfl
  | cons c rest ih => rw [runAll, ih, counts_run, occurrencesAll, Statistics.recordAll_append]

/-- The same start with the counts of what occurred earlier. -/
def State.sharing (start : State) (earlier : List Occurrence) : State :=
  { start with counts := ({} : Statistics).recordAll earlier }

end Series

/-! ## What a verdict reads of the counts -/

section Verdicts

variable (c : Case) (os : List Occurrence)

/-- The verdict is left to a guard: the case is to stay silent because the guard throws its match away. -/
def judged : Bool := !c.reports.truthy && c.expectsGuard

/-- The case without the guard that it expects, and otherwise as silent as it is. -/
def spared : Case := { c with rejectedBy := .null }

/-- The guard that the case expects threw a match away. -/
def Rejects : Prop :=
  ∃ guard, Label.ofDocument? c.rejectedBy = some guard ∧ Rejected (.text Collapsible.lint.name) guard os

theorem not_rejects_nil : ¬c.Rejects [] := fun ⟨_, _, h⟩ => Occurrence.not_rejected_nil h

theorem rejects_append {more : List Occurrence} : c.Rejects (os ++ more) ↔ c.Rejects os ∨ c.Rejects more := by
  simp only [Rejects, Occurrence.rejected_append, and_or_left, exists_or]

theorem rejectionCount_of_ne {s : Statistics} {lint guard : Label} (h : guard ≠ .nothing) :
    s.rejectionCount lint guard = .ok ((s.guards lint).count guard) := by
  cases guard with
  | nothing => exact absurd rfl h
  | _ => rfl

/-- A guard that is expected has to have thrown a match away, be it in this run or earlier. -/
theorem guardVerdict_eq_ok_iff : c.guardVerdict (({} : Statistics).recordAll os) = .ok () ↔
    (c.expectsGuard → c.Rejects os) := by
  rw [guardVerdict]
  cases hexpects : c.expectsGuard with
  | false => simp
  | true =>
    rw [if_pos rfl, Rejects]
    cases hguard : Label.ofDocument? c.rejectedBy with
    | none => simp
    | some guard =>
      have hne : guard ≠ .nothing := by
        rintro rfl
        have hnull : c.rejectedBy = .null := by
          revert hguard
          cases c.rejectedBy <;> simp [Label.ofDocument?]
        rw [expectsGuard, hnull] at hexpects
        cases hexpects
      simp only [Option.map_some, Expectation.rejectedBy, rejectionCount_of_ne hne, Except.map, mapError_eq_ok_iff,
        Option.some.injEq, exists_eq_left', ← Statistics.isZero_count_guards]
      simp

/-- Of the counts a verdict reads only whether the guard that is expected has thrown a match away. -/
theorem verdict_eq_ok_iff (found : List Diagnostic) (text : String) (s : Statistics) :
    c.verdict found text (({} : Statistics).recordAll os) = .ok () ↔
      c.spared.verdict found text s = .ok () ∧ (c.judged → c.Rejects os) := by
  have hspared : c.spared.guardVerdict s = .ok () := rfl
  have hsame : c.spared.reports = c.reports := rfl
  rw [verdict, verdict, judged, hsame]
  cases c.reports.truthy with
  | true => exact ⟨fun h => ⟨h, nofun⟩, fun h => h.1⟩
  | false =>
    simp only [Bool.not_false, if_true, Bool.true_and, bind_eq_ok_iff, guardVerdict_eq_ok_iff, hspared, and_true]
    exact exists_and_right

end Verdicts

/-! ## When earlier cases make a difference -/

section Sharing

variable (parser : Parser) (c : Case) (start : State)

theorem passes_sharing_iff (earlier : List Occurrence) : c.Passes parser (start.sharing earlier) ↔
    c.spared.Passes parser start ∧ (c.judged → c.Rejects (c.occurrences parser start) ∨ c.Rejects earlier) := by
  have hspared : c.spared.checked? parser start = c.checked? parser start := rfl
  have hshared : c.checked? parser (start.sharing earlier) = c.checked? parser start := rfl
  rw [passes_iff, passes_iff, hspared, hshared, occurrences]
  cases c.checked? parser start with
  | none => simp
  | some checked =>
    obtain ⟨parsed, found, os⟩ := checked
    have hverdict := c.verdict_eq_ok_iff (earlier ++ os) found parsed.source.text (start.counts.recordAll os)
    rw [Statistics.recordAll_append, rejects_append, or_comm] at hverdict
    simpa [State.sharing] using hverdict

/-- With counts that are shared, a case passes exactly if it does without its guard and, where the verdict is left to
the guard, this has thrown a match away, in the run of the case or earlier. With counts of its own it has to be in the
run of the case. So whatever occurred before one run and before another, the case comes to the same in both, unless the
verdict is left to the guard, the case passes without it, the guard throws nothing away in the run, and it has thrown
something away before one of the runs but not before the other. -/
theorem passes_of_sharing :
    (∀ earlier, c.Passes parser (start.sharing earlier) ↔
      c.spared.Passes parser start ∧
        (c.judged → c.Rejects (c.occurrences parser start) ∨ c.Rejects earlier)) ∧
    (c.judged → c.Passes parser (start.sharing []) → c.Rejects (c.occurrences parser start)) ∧
    ∀ earlier earlier', (c.Passes parser (start.sharing earlier) ↔ c.Passes parser (start.sharing earlier')) ↔
      (c.judged → c.spared.Passes parser start → ¬c.Rejects (c.occurrences parser start) →
        (c.Rejects earlier ↔ c.Rejects earlier')) := by
  have hpasses := c.passes_sharing_iff parser start
  refine ⟨hpasses, fun hjudged h => ?_, fun earlier earlier' => ?_⟩
  · exact (((hpasses []).1 h).2 hjudged).resolve_right c.not_rejects_nil
  · rw [hpasses, hpasses]
    tauto

end Sharing

/-! ## A rejection that is not the case's own -/

section Stale

open Concrete Reader

/-- An `if` around a comment and an `if`. -/
def commentedText : String := "if x \x7b/**/if y \x7b\x7d\x7d"

/-- The statement of the inner `if`. -/
def commentedInner : Concrete := construct "expression_statement" 11 18 none [emptyIf 11]

/-- The body of the outer `if`. -/
def commentedBody : Concrete :=
  construct "block" 6 19 (some "consequence")
    [token "\x7b" 6 7, construct "block_comment" 7 11 none [], commentedInner, token "\x7d" 18 19]

/-- The statement of the outer `if`. -/
def commentedStmt : Concrete :=
  construct "expression_statement" 1 19 none
    [construct "if_expression" 1 19 none [token "if" 1 3, letterAt 4, commentedBody]]

/-- The statement `x`. -/
def plainStmt : Concrete := construct "identifier" 1 2 none []

/-- A parser that knows the text and `x`. -/
def staleParser (body : String) : Option Concrete :=
  if body = commentedText then some (ofWrapping 21 commentedStmt)
  else if body = "x" then some (ofWrapping 4 plainStmt)
  else none

/-- The node of the inner `if`. -/
def commentedInnerNode : Node :=
  .ifThen ⟨10, 17, .root⟩ (some (.path ⟨13, 14, .root⟩ ["y"])) (some (.block ⟨15, 17, .root⟩ [])) none

/-- The node of the body of the outer `if`. -/
def commentedBodyNode : Node := .block ⟨5, 18, .root⟩ [.stmt ⟨10, 17, .root⟩ .expr commentedInnerNode]

/-- The node of the outer `if`. -/
def commentedNode : Node :=
  .ifThen ⟨0, 18, .root⟩ (some (.path ⟨3, 4, .root⟩ ["x"])) (some commentedBodyNode) none

/-- The tree of the text. -/
def commentedRoot : Node := .block ⟨0, 18, .root⟩ [.stmt ⟨0, 18, .root⟩ .expr commentedNode]

/-- The tree of `x`. -/
def plainRoot : Node := .block ⟨0, 1, .root⟩ [.stmt ⟨0, 1, .root⟩ .expr (.path ⟨0, 1, .root⟩ ["x"])]

theorem read_commented (fileName : String) : read staleParser [] commentedText fileName {} =
    (.ok ⟨commentedRoot, ⟨commentedText, fileName⟩⟩, {}) := by
  have hinnerBody : ReadsAs staleParser commentedText (.block (emptyBody 16)) (.block ⟨15, 17, .root⟩ []) :=
    gives_of_parts rfl rfl gives_nil rfl
  have hinnerCond : ReadsAs staleParser commentedText (.expr (letterAt 14)) (.path ⟨13, 14, .root⟩ ["y"]) :=
    gives_of_parts rfl rfl gives_nil rfl
  have hinner : ReadsAs staleParser commentedText (.stmt commentedInner)
      (.stmt ⟨10, 17, .root⟩ .expr commentedInnerNode) :=
    gives_of_parts rfl rfl
      (gives_cons (gives_of_parts rfl rfl (gives_cons hinnerBody (gives_cons hinnerCond gives_nil)) rfl) gives_nil) rfl
  have hbody : ReadsAs staleParser commentedText (.block commentedBody) commentedBodyNode :=
    gives_of_parts rfl rfl (gives_cons hinner gives_nil) rfl
  have hcond : ReadsAs staleParser commentedText (.expr (letterAt 4)) (.path ⟨3, 4, .root⟩ ["x"]) :=
    gives_of_parts rfl rfl gives_nil rfl
  have hstmt : ReadsAs staleParser commentedText (.stmt commentedStmt) (.stmt ⟨0, 18, .root⟩ .expr commentedNode) :=
    gives_of_parts rfl rfl
      (gives_cons (gives_of_parts rfl rfl (gives_cons hbody (gives_cons hcond gives_nil)) rfl) gives_nil) rfl
  have hroot : ReadsAs staleParser commentedText (.block (wrapping 21 commentedStmt))
      (.block ⟨0, 20, .root⟩ [.stmt ⟨0, 18, .root⟩ .expr commentedNode]) :=
    gives_of_parts rfl rfl (gives_cons hstmt gives_nil) rfl
  exact read_of_gives fileName rfl hroot

theorem read_plain (fileName : String) :
    read staleParser [] "x" fileName {} = (.ok ⟨plainRoot, ⟨"x", fileName⟩⟩, {}) := by
  have hname : ReadsAs staleParser "x" (.expr plainStmt) (.path ⟨0, 1, .root⟩ ["x"]) :=
    gives_of_parts rfl rfl gives_nil rfl
  have hstmt : ReadsAs staleParser "x" (.stmt plainStmt) (.stmt ⟨0, 1, .root⟩ .expr (.path ⟨0, 1, .root⟩ ["x"])) :=
    gives_of_parts rfl rfl (gives_cons hname gives_nil) rfl
  have hroot : ReadsAs staleParser "x" (.block (wrapping 4 plainStmt))
      (.block ⟨0, 3, .root⟩ [.stmt ⟨0, 1, .root⟩ .expr (.path ⟨0, 1, .root⟩ ["x"])]) :=
    gives_of_parts rfl rfl (gives_cons hstmt gives_nil) rfl
  exact read_of_gives fileName rfl hroot

/-- A case in which the guard throws a match away. -/
def commented : Case :=
  normalized
    { name := .str "commented", source := commentedText, rejectedBy := .str "comment", opaqueMacros := some [] }

/-- A case in which there is nothing to throw away. -/
def plain : Case :=
  normalized { name := .str "plain", source := "x", rejectedBy := .str "comment", opaqueMacros := some [] }

/-- What comes of a case from the start. -/
theorem checked?_of_read {parser : Parser} {c : Case} {root : Node} {source : SourceText} {found : List Diagnostic}
    {os : List Occurrence} (hskip : c.hindrance? = none) (hmacros : c.opaqueMacros = some [])
    (hread : read parser [] c.source c.fileName {} = (.ok ⟨root, source⟩, {}))
    (hfound : (Session.check [collapsibleIf] [] root source .silent).1 = found)
    (hos : (Session.check [collapsibleIf] [] root source .silent).2.occurrences = os) :
    c.checked? parser {} = some (⟨root, source⟩, found, os) := by
  have hstart : read parser [] c.source c.fileName ⟨({} : State).nextOrigin, []⟩ = (.ok ⟨root, source⟩, {}) := hread
  simp only [checked?, hskip, hmacros, Option.getD_some, hstart, ← hfound, ← hos]
  rfl

theorem checked?_commented : commented.checked? staleParser {} =
    some (⟨commentedRoot, ⟨commentedText, commented.fileName⟩⟩, [],
      [.candidate (.text "collapsible_if"), .candidate (.text "collapsible_if"), .matched (.text "collapsible_if"),
        .rejected (.text "collapsible_if") (.text "comment")]) := by
  have hsource : commented.source = commentedText := by decide +kernel
  refine checked?_of_read rfl rfl ?_ (by decide +kernel) (by decide +kernel)
  rw [hsource]
  exact read_commented _

theorem checked?_plain :
    plain.checked? staleParser {} = some (⟨plainRoot, ⟨"x", plain.fileName⟩⟩, [], []) := by
  have hsource : plain.source = "x" := by decide +kernel
  refine checked?_of_read rfl rfl ?_ (by decide +kernel) (by decide +kernel)
  rw [hsource]
  exact read_plain _

/-- A case that is to stay silent and on which nothing is found passes, if no guard is asked. -/
theorem passes_spared {c : Case} {parsed : ParsedSource} {os : List Occurrence} (hsilent : c.reports.truthy = false)
    (h : c.checked? staleParser {} = some (parsed, [], os)) : c.spared.Passes staleParser {} := by
  refine (passes_iff staleParser c.spared {}).2 ⟨parsed, [], os, h, ?_⟩
  have hspared : c.spared.reports.truthy = false := hsilent
  rw [verdict, hspared]
  rfl

/-- The guard throws a match away in the first case, which is enough for any case that expects it to. -/
theorem rejects_commented {c : Case} (hc : c.rejectedBy = .str "comment") :
    c.Rejects (commented.occurrences staleParser {}) := by
  refine ⟨.text "comment", by rw [hc]; rfl, Occurrence.rejected_text.2 ?_⟩
  rw [occurrences, checked?_commented]
  simp [Collapsible.lint]

theorem passes_commented : commented.Passes staleParser (State.sharing {} []) :=
  (passes_sharing_iff staleParser commented {} []).2
    ⟨passes_spared rfl checked?_commented, fun _ => .inl (rejects_commented rfl)⟩

theorem occurrences_plain : plain.occurrences staleParser {} = [] := by
  rw [occurrences, checked?_plain]
  rfl

/-- Where the guard throws a match away in the run of the case, earlier cases make no difference. -/
theorem passes_of_sharing_commented :
    commented.judged ∧ commented.Passes staleParser (State.sharing {} []) ∧
      commented.Rejects (commented.occurrences staleParser {}) ∧
      ∀ earlier earlier', commented.Passes staleParser (State.sharing {} earlier) ↔
        commented.Passes staleParser (State.sharing {} earlier') := by
  have hjudged : commented.judged = true := rfl
  obtain ⟨-, hown, hall⟩ := passes_of_sharing staleParser commented {}
  have hrejects := hown hjudged passes_commented
  exact ⟨hjudged, passes_commented, hrejects, fun earlier earlier' =>
    (hall earlier earlier').2 fun _ _ hnone => absurd hrejects hnone⟩

/-- After a case in which the guard throws a match away, with counts that are shared, a case in which nothing occurs
passes as one in which the guard does so. With counts of its own it fails. -/
theorem stale_rejection :
    let earlier := occurrencesAll staleParser {} [commented]
    (runAll staleParser {} [commented]).counts = ({} : Statistics).recordAll earlier ∧
      plain.judged ∧ plain.occurrences staleParser {} = [] ∧
      plain.Passes staleParser (State.sharing {} earlier) ∧ ¬plain.Passes staleParser (State.sharing {} []) := by
  intro earlier
  have hearlier : earlier = commented.occurrences staleParser {} := List.append_nil _
  have hjudged : plain.judged = true := rfl
  refine ⟨counts_runAll staleParser {} [commented], hjudged, occurrences_plain, ?_, fun h => ?_⟩
  · rw [passes_sharing_iff, hearlier]
    exact ⟨passes_spared rfl checked?_plain, fun _ => .inr (rejects_commented rfl)⟩
  · have hown := ((passes_sharing_iff staleParser plain {} []).1 h).2 hjudged
    rw [occurrences_plain] at hown
    exact hown.elim plain.not_rejects_nil plain.not_rejects_nil

end Stale

end Case

end NestLint
