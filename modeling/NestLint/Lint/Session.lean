import NestLint.Config.Rule
import NestLint.Json.Display
import NestLint.Lint.Pass
import NestLint.Log.Context

/-!
# Lint sessions

A session runs the passes that a project leaves on over one file after another. Each file is checked
on its own; what the files have in common are the counts.

The session is `LintDriver` with `_instantiate_passes`, `check_tree` and `_on_pass_error`;
`Sink.noting` is `LoggingSink`.

* `Session.select`: which passes run, and at which level;
* `Session.check`: one file, with its findings, what occurred, what was noted, and the context
  afterwards.
-/

namespace NestLint

namespace Session

/-! ## Which passes run -/

/-- The rule that governs a pass: the one for its key, or else the one for its lint. -/
def governingRule (rules : List Rule) (p : Pass) : Except Rule.Fault (Option Rule) := do
  match ← Rule.find? rules p.key with
  | some rule => return some rule
  | none => Rule.find? rules p.lint.name

/-- The pass as it runs, if it does. -/
def place (rules : List Rule) (p : Pass) : Except Rule.Fault (List Note × Option Pass) := do
  match ← governingRule rules p with
  | none => return ([], if p.lint.level = .allow then none else some p)
  | some rule =>
    if !rule.isActivated.truthy then
      return ([.info Note.sessionChannel ("Lint pass " ++ p.lint.name ++ " is deactivated")], none)
    let p := p.atLevel (← rule.level?)
    return ([], if p.lint.level = .allow then none else some p)

/-- The passes that run, in order of registration. Notes are taken up to the first fault. -/
def placeAll (rules : List Rule) : List Pass → List Note × Except Rule.Fault (List Pass)
  | [] => ([], .ok [])
  | p :: rest =>
    match place rules p with
    | .error fault => ([], .error fault)
    | .ok (notes, placed) =>
      let (more, passes) := placeAll rules rest
      (notes ++ more, passes.map (placed.toList ++ ·))

/-- The passes that a project leaves on. -/
def select (rules : List Rule) (passes : List Pass) : List Note × Except Rule.Fault (List Pass) :=
  match placeAll rules passes with
  | (notes, .ok passes) =>
    let names := Json.displayStrings (passes.map fun p => p.lint.name)
    (notes ++ [.debug Note.sessionChannel ("Enabled lint passes: " ++ names)], .ok passes)
  | (notes, .error fault) => (notes, .error fault)

/-! ## Checking a file -/

/-- What has become of a check so far. -/
structure Progress where
  context : Context
  entries : List Entry := []
  occurrences : List Occurrence := []
  deriving Repr, Inhabited

namespace Progress

/-- Take a note in the context of the moment. -/
def note (p : Progress) (n : Note) : Progress := { p with entries := p.entries ++ [⟨n, p.context.current⟩] }

/-- Count an occurrence. -/
def count (p : Progress) (o : Occurrence) : Progress := { p with occurrences := p.occurrences ++ [o] }

/-- Follow a step of the matcher. A pass that is offered a node is at work from then on. -/
def follow (p : Progress) : Step Occurrence → Progress
  | .note n => p.note n
  | .told (.candidate lint) => { p with context := p.context.enterLint lint.document }.count (.candidate lint)
  | .told o => p.count o
  | .failed title item fault =>
    let text := "Lint pass " ++ title ++ " failed on " ++ Site.itemText item ++ ": " ++ fault.message
    (p.note (.warning Note.sessionChannel text)).count (.failed (.text title))
  | .started _ | .ended _ => p

/-- Follow several steps. -/
def followAll (p : Progress) (steps : List (Step Occurrence)) : Progress := steps.foldl follow p

end Progress

/-- Where findings go: what is noted about each of them. -/
abbrev Sink : Type := Diagnostic → List Note

/-- The sink that notes every finding on a channel. -/
def Sink.noting (channel : String) (source : Option SourceText) : Sink :=
  fun d => [.warning channel (d.render source)]

/-- The sink that notes nothing. -/
def Sink.silent : Sink := fun _ => []

/-- A finding is counted and goes to the sink. -/
def deliver (sink : Sink) (p : Progress) (d : Diagnostic) : Progress :=
  (sink d).foldl Progress.note (p.count (.reported (.text d.lint.name)))

/-- Examine a file with some passes, before anything becomes of the findings. -/
def examine (passes : List Pass) (context : Context) (root : Node) (source : SourceText) :
    List Diagnostic × Progress :=
  let matcher := Matcher.ofList (passes.map fun p => p.scheme source) (some Finding.wanted)
  let (steps, findings) := matcher.matchTree root
  let p : Progress := { context := context.enterFile source.name }
  let p := p.followAll steps
  (findings.filterMap Finding.diagnostic?, { p with context := p.context.leaveFile.leaveLint })

/-- Check a file with some passes. -/
def check (passes : List Pass) (context : Context) (root : Node) (source : SourceText) (sink : Sink) :
    List Diagnostic × Progress :=
  let (diagnostics, p) := examine passes context root source
  let p := diagnostics.foldl (deliver sink) p
  let closing := source.name ++ ": " ++ toString diagnostics.length ++ " diagnostics from " ++ toString passes.length ++
    " passes"
  (diagnostics, p.note (.debug Note.sessionChannel closing))

end Session

end NestLint
