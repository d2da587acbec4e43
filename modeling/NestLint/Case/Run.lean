import NestLint.Case.Basic
import NestLint.Case.Expectation
import NestLint.Lint.Collapsible
import NestLint.Lint.Session
import NestLint.Reader.Read

/-!
# Running cases

A case is read, checked by the pass for collapsible conditionals, and compared with its
expectations. What occurs is counted in statistics that the cases of a run may share.

The run is `run_collapse_case`.

* `Case.verdict`: the comparison;
* `Case.run`: the whole run.
-/

namespace NestLint

namespace Case

/-- What can become of a case that does not succeed. -/
inductive Fault where
  /-- It is not run. -/
  | skipped (reason : String)
  /-- The snippet cannot be read. -/
  | unreadable (fault : ReadFault)
  /-- An expectation is not met. -/
  | short (shortfall : Shortfall)
  deriving Repr, Inhabited

/-- Compare counts with the guard that a case expects. -/
def guardVerdict (c : Case) (counts : Statistics) : Except Fault Unit :=
  if c.expectsGuard then
    match (Label.ofDocument? c.rejectedBy).map (Expectation.rejectedBy counts (.text Collapsible.lint.name)) with
    | some (.ok outcome) => outcome.mapError .short
    | _ => .error (.short (.misfit .wrongKind))
  else .ok ()

/-- Compare findings with what a case expects. -/
def verdict (c : Case) (found : List Diagnostic) (text : String) (counts : Statistics) : Except Fault Unit :=
  if !c.reports.truthy then do
    (Expectation.silent found (.str c.source)).mapError .short
    c.guardVerdict counts
  else Except.mapError .short do
    let d ← Expectation.single found (.str Collapsible.lint.name)
    if c.message != .null && c.message != .str d.message then throw (.unmet "")
    let s ← Expectation.suggestion d c.replacement (some c.applicability) c.fragments
    match c.fixed with
    | some fixed => let _ ← Expectation.applies s text (.str fixed)
    | none => pure ()

/-- What a run works on: the numbering of expansions, the context of notes, and the counts. -/
structure State where
  nextOrigin : Int := 1
  context : Context := []
  counts : Statistics := {}

/-- A run: the outcome, the notes with their contexts, and what the next run goes on with. -/
structure Outcome where
  result : Except Fault ParsedSource
  entries : List Entry := []
  state : State

/-- What keeps a case from being run at all, if anything does. -/
def hindrance? (c : Case) : Option Fault :=
  if c.skip.truthy then some ((c.skip.str?.map .skipped).getD (.short (.misfit .wrongKind))) else none

/-- Run a case that has been normalized. -/
def run (parser : Parser) (c : Case) (state : State) : Outcome :=
  match c.hindrance? with
  | some fault => { result := .error fault, state }
  | none =>
    let here (notes : List Note) : List Entry := notes.map fun n => ⟨n, state.context.current⟩
    let macros := c.opaqueMacros.getD Reader.formattingMacros
    match NestLint.read parser macros c.source c.fileName ⟨state.nextOrigin, []⟩ with
    | (.error fault, read) =>
      { result := .error (.unreadable fault), entries := here read.notes,
        state := { state with nextOrigin := read.nextOrigin } }
    | (.ok parsed, read) =>
      let (notes, selected) := Session.select [] [collapsibleIf]
      let passes := match selected with
        | .ok passes => passes
        | .error _ => []
      let (found, progress) := Session.check passes state.context parsed.root parsed.source Session.Sink.silent
      let counts := state.counts.recordAll progress.occurrences
      let result := match c.verdict found parsed.source.text counts with
        | .ok () => .ok parsed
        | .error fault => .error fault
      { result, entries := here (read.notes ++ notes) ++ progress.entries,
        state := ⟨read.nextOrigin, progress.context, counts⟩ }

end Case

end NestLint
