import NestLint.Dict
import NestLint.Json.Misfit
import NestLint.Match.Check

/-!
# Schemes and the matcher

A scheme is a list of patterns with a handler that is asked about every match. A matcher takes the
expressions of a tree, inner ones first, and has every scheme examine each of them. A scheme that
fails on a node contributes nothing there; all other nodes and schemes are as if it had not failed.
Like a pattern, a scheme may also be asked about a place where there is no node.

What happens on the way is a list of steps, in order: notes, whatever the handlers have to tell, and
failures.

A scheme is a `Scheme` with `accepts`, `on_matched_item`, `on_tree_iteration_start` and
`on_tree_iteration_end`. The matcher is `Matcher` with `add_scheme`, `remove_scheme`, `match_tree`,
`check_schemes` and `check_scheme`.

* `Scheme.examine`: one scheme on one item, with all its results or none;
* `matchTree`: all schemes on a tree.
-/

namespace NestLint

/-- What keeps a scheme from examining an item. -/
inductive MatchFault where
  /-- One of its patterns cannot be checked. -/
  | uncheckable (lack : Lack)
  /-- There is no scheme. -/
  | noScheme
  /-- There is no node that could have a property. -/
  | noNode (property : String)
  /-- Nothing was captured under a name. -/
  | noCapture (name : String)
  /-- Something in the declaration of the scheme does not fit. -/
  | misfit (fault : Misfit) (message : String)
  /-- The handler answered with something else than what is wanted. -/
  | unwanted (wanted : String)
  /-- The handler failed. -/
  | raised (message : String)
  deriving DecidableEq, Repr, Inhabited

/-- What is reported where something is missing that should have a property. -/
def nothingHas (property : String) : String := "'NoneType' object has no attribute '" ++ property ++ "'"

/-- What is reported. -/
def MatchFault.message : MatchFault → String
  | .uncheckable .rule => "This is an abstract class"
  | .uncheckable .pattern => nothingHas "check"
  | .noScheme => nothingHas "accepts"
  | .noNode property => nothingHas property
  | .noCapture name => (Captures.Missing.noCapture name).message
  | .misfit _ message => message
  | .unwanted wanted => "Handler returned invalid return type, should be " ++ wanted ++ " or None"
  | .raised message => message

/-- What happens while a tree is matched; handlers tell values of `ε`. -/
inductive Step (ε : Type) where
  | note (note : Note)
  | told (value : ε)
  /-- The scheme with this title failed on an item. -/
  | failed (title : String) (item : Option Site) (fault : MatchFault)
  | started (title : String)
  | ended (title : String)
  deriving Repr

/-- Whether a step is the failure of a scheme. -/
def Step.isFailure {ε : Type} : Step ε → Bool
  | .failed .. => true
  | _ => false

/-- The answer of a handler to a match. -/
inductive Reply (ρ : Type) where
  | nothing
  | result (value : ρ)
  | fault (fault : MatchFault)
  deriving Repr

/-- The results that a matcher wants. -/
structure Wanted (ρ : Type) where
  name : String
  fits : ρ → Bool

/-- Patterns with a handler. -/
structure Scheme (ε ρ : Type) where
  title : String
  patterns : List Pattern
  /-- Whether the first result is enough. -/
  firstOnly : Bool := false
  /-- Whether an item is examined at all. -/
  accepts : Option Site → Except MatchFault Bool := fun _ => .ok true
  /-- What is told when an item is examined. -/
  onAccept : Option Site → List (Step ε) := fun _ => []
  /-- The handler: it is told which pattern matched, on which item, and with what captures. -/
  handle : Nat → Option Site → Captures Site → List (Step ε) × Reply ρ := fun _ _ _ => ([], .nothing)

namespace Scheme

variable {ε ρ : Type}

/-- Try the patterns from number `i` on. -/
def examineFrom (scheme : Scheme ε ρ) (wanted : Option (Wanted ρ)) (item : Option Site) :
    Nat → List Pattern → List (Step ε) × Except MatchFault (List ρ)
  | _, [] => ([], .ok [])
  | i, p :: ps =>
    let attempt := p.check item []
    let steps := attempt.notes.map Step.note
    match attempt.verdict with
    | .uncheckable lack => (steps, .error (.uncheckable lack))
    | .failed =>
      let (more, results) := examineFrom scheme wanted item (i + 1) ps
      (steps ++ more, results)
    | .matched =>
      let (told, reply) := scheme.handle i item attempt.captures
      let steps := steps ++ told
      match reply with
      | .fault fault => (steps, .error fault)
      | .nothing =>
        let (more, results) := examineFrom scheme wanted item (i + 1) ps
        (steps ++ more, results)
      | .result value =>
        match wanted.filter fun w => !w.fits value with
        | some w => (steps, .error (.unwanted w.name))
        | none =>
          if scheme.firstOnly then (steps, .ok [value])
          else
            let (more, results) := examineFrom scheme wanted item (i + 1) ps
            (steps ++ more, results.map (value :: ·))

/-- Examine an item: the results of all patterns in order, or the fault of the first that failed. -/
def examine (scheme : Scheme ε ρ) (wanted : Option (Wanted ρ)) (item : Option Site) :
    List (Step ε) × Except MatchFault (List ρ) :=
  match scheme.accepts item with
  | .error fault => ([], .error fault)
  | .ok false => ([], .ok [])
  | .ok true =>
    let (steps, results) := scheme.examineFrom wanted item 0 scheme.patterns
    (scheme.onAccept item ++ steps, results)

end Scheme

/-- What stands for the call trace of a failure. -/
def callTrace : String := "<traceback>"

/-- Schemes under their names. -/
structure Matcher (ε ρ : Type) where
  schemes : Dict (Scheme ε ρ)
  wanted : Option (Wanted ρ) := none

namespace Matcher

variable {ε ρ : Type}

/-- The name of the scheme at place `i` of a list. -/
def nameAt (i : Nat) : String := "scheme" ++ toString i

/-- A matcher for a list of schemes. -/
def ofList (schemes : List (Scheme ε ρ)) (wanted : Option (Wanted ρ)) : Matcher ε ρ :=
  ⟨schemes.mapIdx fun i scheme => (nameAt i, scheme), wanted⟩

/-- The matcher with a scheme more, or with another scheme under a name. -/
def add (m : Matcher ε ρ) (name : String) (scheme : Scheme ε ρ) : Matcher ε ρ :=
  { m with schemes := Dict.insert m.schemes name scheme }

/-- The matcher without a scheme. -/
def remove (m : Matcher ε ρ) (name : String) : Matcher ε ρ := { m with schemes := Dict.erase m.schemes name }

/-- What is noted about a failure. -/
def failureNotes (fault : MatchFault) : List Note :=
  [.error Note.treeChannel ("Got an exception during scheme checking: " ++ fault.message),
    .debug Note.treeChannel callTrace]

/-- One scheme on an item. A failure is noted and gives no results. -/
def checkScheme (m : Matcher ε ρ) (scheme : Scheme ε ρ) (item : Option Site) : List (Step ε) × List ρ :=
  match scheme.examine m.wanted item with
  | (steps, .ok results) => (steps, results)
  | (steps, .error fault) =>
    (steps ++ (failureNotes fault).map .note ++ [.failed scheme.title item fault], [])

/-- The scheme with a name on an item. That there is none is noted like any other failure. -/
def checkNamed (m : Matcher ε ρ) (name : String) (item : Option Site) :
    Except (List Note × MatchFault) (List (Step ε) × List ρ) :=
  match Dict.get? m.schemes name with
  | some scheme => .ok (m.checkScheme scheme item)
  | none => .error (failureNotes .noScheme, .noScheme)

/-- All schemes on an item. -/
def checkSchemes (m : Matcher ε ρ) (item : Option Site) : List (Step ε) × List ρ :=
  let outcomes := m.schemes.map fun entry => m.checkScheme entry.2 item
  (outcomes.flatMap Prod.fst, outcomes.flatMap Prod.snd)

/-- All schemes on all expressions of a tree, inner ones first. -/
def matchTree (m : Matcher ε ρ) (root : Node) : List (Step ε) × List ρ :=
  let titles := (Dict.values m.schemes).map Scheme.title
  let outcomes := root.exprSites.map fun site => m.checkSchemes (some site)
  (titles.map .started ++ outcomes.flatMap Prod.fst ++ titles.map .ended, outcomes.flatMap Prod.snd)

theorem snd_checkSchemes (m : Matcher ε ρ) (item : Option Site) :
    (m.checkSchemes item).2 = m.schemes.flatMap fun entry => (m.checkScheme entry.2 item).2 := by
  simp [checkSchemes, List.flatMap_map]

theorem snd_matchTree (m : Matcher ε ρ) (root : Node) :
    (m.matchTree root).2 = root.exprSites.flatMap fun site => (m.checkSchemes (some site)).2 := by
  simp [matchTree, List.flatMap_map]

end Matcher

end NestLint
