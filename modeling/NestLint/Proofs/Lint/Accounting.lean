import NestLint.Proofs.Lint.Counts
import NestLint.Proofs.Lint.Reports
import NestLint.Proofs.Match.Isolation

/-!
# What becomes of a node

A node that is offered to the pass for collapsible conditionals is a candidate, and may match. A match
ends in exactly one of three ways: a guard throws it away, a finding is reported, or a part is missing in
the tree that the handler needs. What is counted in a check is what is counted for each node and each
pass, and then one report for each finding.

* `check_eq`, `occurrences_check`: what goes to the sink after an examination, and what a check counts;
* `Settles`: how the handlers end;
* `fate_collapsibleIf`: what becomes of one node.
-/

namespace NestLint

/-- An `if` or an `if let` whose place is in the text itself, not in an expansion. -/
def Node.isCandidate (n : Node) : Bool := n.isConditional && !n.span.fromExpansion

/-! ## What occurs in a run -/

namespace Step

/-- What is counted on account of a step. -/
def occurrence? : Step Occurrence → Option Occurrence
  | .told o => some o
  | .failed title _ _ => some (.failed (.text title))
  | _ => none

/-- What is counted on account of some steps. -/
def occurrences (steps : List (Step Occurrence)) : List Occurrence := steps.filterMap occurrence?

theorem occurrences_append (a b : List (Step Occurrence)) : occurrences (a ++ b) = occurrences a ++ occurrences b :=
  List.filterMap_append

theorem occurrences_notes (notes : List Note) : occurrences (notes.map .note) = [] := by
  rw [occurrences, List.filterMap_map]
  exact List.filterMap_eq_nil_iff.2 fun _ _ => rfl

end Step

namespace Session

theorem Progress.occurrences_followAll (p : Progress) (steps : List (Step Occurrence)) :
    (p.followAll steps).occurrences = p.occurrences ++ Step.occurrences steps := by
  induction steps generalizing p with
  | nil => exact (List.append_nil _).symm
  | cons step rest ih =>
    have hstep : (p.follow step).occurrences = p.occurrences ++ step.occurrence?.toList := by
      cases step with
      | note n => exact (List.append_nil _).symm
      | told o => cases o <;> rfl
      | failed title item fault => rfl
      | started title => exact (List.append_nil _).symm
      | ended title => exact (List.append_nil _).symm
    rw [Progress.followAll, List.foldl_cons, ← Progress.followAll, ih, hstep, List.append_assoc, Step.occurrences,
      Step.occurrences, List.filterMap_cons]
    cases step.occurrence? <;> rfl

/-- Notes change nothing but the entries. -/
theorem foldl_note (notes : List Note) (p : Progress) :
    notes.foldl Progress.note p = { p with entries := p.entries ++ notes.map fun n => ⟨n, p.context.current⟩ } := by
  induction notes generalizing p with
  | nil => simp
  | cons n rest ih =>
    rw [List.foldl_cons, ih]
    simp [Progress.note]

/-- All findings are counted and go to the sink, in order. -/
theorem foldl_deliver (sink : Sink) (ds : List Diagnostic) (p : Progress) :
    ds.foldl (deliver sink) p =
      { p with
        entries := p.entries ++ (ds.flatMap sink).map fun n => ⟨n, p.context.current⟩
        occurrences := p.occurrences ++ ds.map fun d => .reported (.text d.lint.name) } := by
  induction ds generalizing p with
  | nil => simp
  | cons d rest ih =>
    rw [List.foldl_cons, ih, deliver, foldl_note]
    simp [Progress.count]

variable (passes : List Pass) (context : Context) (root : Node) (source : SourceText) (sink : Sink)

/-- What a pass contributes to the findings for an item. -/
def findingsOf (p : Pass) (source : SourceText) (item : Option Site) : List Diagnostic :=
  ((p.scheme source).results (some Finding.wanted) item).filterMap Finding.diagnostic?

/-- What is counted on account of a pass and an item. -/
def occurrencesOf (p : Pass) (source : SourceText) (item : Option Site) : List Occurrence :=
  Step.occurrences ((p.scheme source).account (some Finding.wanted) item)

theorem findings_check :
    (check passes context root source sink).1 =
      (Site.root root).exprs.flatMap fun site => passes.flatMap fun p => findingsOf p source (some site) := by
  show (Matcher.matchTree _ root).2.filterMap Finding.diagnostic? = _
  rw [Matcher.matchTree_eq, Matcher.values_ofList]
  simp only [List.filterMap_flatMap, List.flatMap_map]
  rfl

/-- What is noted at the end of a check. -/
def closing (found : List Diagnostic) : Note :=
  .debug Note.sessionChannel (source.name ++ ": " ++ toString found.length ++ " diagnostics from " ++
    toString passes.length ++ " passes")

/-- After the examination every finding is counted, and goes to the sink. -/
theorem check_eq :
    let examined := (examine passes context root source).2
    let found := (check passes context root source sink).1
    (check passes context root source sink).2 =
      { examined with
        entries := examined.entries ++
          (found.flatMap sink ++ [closing passes source found]).map fun n => ⟨n, examined.context.current⟩
        occurrences := examined.occurrences ++ found.map fun d => .reported (.text d.lint.name) } := by
  intro examined found
  show (found.foldl (deliver sink) examined).note (closing passes source found) = _
  rw [foldl_deliver, Progress.note, List.map_append, ← List.append_assoc]
  rfl

theorem occurrences_check :
    (check passes context root source sink).2.occurrences =
      ((Site.root root).exprs.flatMap fun site => passes.flatMap fun p => occurrencesOf p source (some site)) ++
        (check passes context root source sink).1.map fun d => .reported (.text d.lint.name) := by
  have hnone : ∀ f : Pass → Step Occurrence, (∀ p, (f p).occurrence? = none) →
      Step.occurrences (passes.map f) = [] := by
    intro f hf
    rw [Step.occurrences, List.filterMap_map]
    exact List.filterMap_eq_nil_iff.2 fun p _ => hf p
  have hexamined : (examine passes context root source).2.occurrences =
      (Site.root root).exprs.flatMap fun site => passes.flatMap fun p => occurrencesOf p source (some site) := by
    show (Progress.followAll _ (Matcher.matchTree _ root).1).occurrences = _
    rw [Progress.occurrences_followAll, List.nil_append, Matcher.matchTree_eq, Matcher.values_ofList]
    simp only [Step.occurrences_append, List.map_map, Function.comp_def]
    rw [hnone _ fun _ => rfl, hnone _ fun _ => rfl, List.nil_append, List.append_nil, Step.occurrences]
    simp only [List.filterMap_flatMap, List.flatMap_map]
    rfl
  rw [check_eq, hexamined]

end Session

/-! ## How a match ends -/

namespace Collapsible

/-- A part is missing that is needed to join the two conditionals. -/
def NestedIf.Lacks (n : NestedIf) : Prop := n.cond = none ∨ n.innerCond = none ∨ n.content = none

/-- A guard throws the match away, or there is a finding, or something is missing. -/
inductive Settles (lint : Lint) (missing : Prop) (h : Handling) : Prop where
  | rejected (guard : Label) (told : Step.occurrences h.1 = [.rejected (.text lint.name) guard])
    (reply : h.2 = .nothing)
  | found (d : Diagnostic) (told : Step.occurrences h.1 = []) (reply : h.2 = .result (.diagnostic d))
    (lint : d.lint = lint)
  | broke (fault : MatchFault) (missing : missing) (told : Step.occurrences h.1 = []) (reply : h.2 = .fault fault)

variable {lint : Lint} {missing : Prop} {h : Handling} (source : SourceText)

theorem Settles.noting (hs : Settles lint missing h) (notes : List Note) :
    Settles lint missing (Pass.after (Pass.noting notes) h) := by
  have htold : Step.occurrences (Pass.after (Pass.noting notes) h).1 = Step.occurrences h.1 := by
    rw [Pass.after, Step.occurrences_append, Pass.noting, Step.occurrences_notes, List.nil_append]
  cases hs with
  | rejected guard told reply => exact .rejected guard (htold.trans told) reply
  | found d told reply lint => exact .found d (htold.trans told) reply lint
  | broke fault missing told reply => exact .broke fault missing (htold.trans told) reply

theorem Settles.mono {more : Prop} (hs : Settles lint missing h) (hmore : missing → more) : Settles lint more h := by
  cases hs with
  | rejected guard told reply => exact .rejected guard told reply
  | found d told reply lint => exact .found d told reply lint
  | broke fault missing told reply => exact .broke fault (hmore missing) told reply

theorem settles_reject (guard : Label) (site : Site) : Settles lint missing (Pass.reject lint guard site) :=
  .rejected guard rfl rfl

theorem settles_finding (span : Span) (message help replacement : String) (rating : Applicability) :
    Settles lint missing (Pass.finding lint span message help replacement rating) :=
  .found _ rfl rfl rfl

theorem settles_reading {name : String} {item : Option Site} {next : Site → Handling} (hitem : item = none → missing)
    (hnext : ∀ site, Settles lint missing (next site)) : Settles lint missing (reading source name item next) := by
  cases item with
  | none => exact .broke (.noCapture name) (hitem rfl) rfl rfl
  | some site => exact (hnext site).noting (source.notes site.span)

theorem settles_handleNestedIf (s : Site) (n : NestedIf) :
    Settles lint n.Lacks (handleNestedIf lint source s n.body n.inner n.cond n.innerCond n.content) := by
  rw [handleNestedIf]
  refine Settles.noting ?_ _
  split
  · exact settles_reject _ s
  · split
    · exact settles_reject _ s
    · refine settles_reading source (fun hcond => .inl hcond) fun cond => ?_
      refine settles_reading source (fun hinner => .inr (.inl hinner)) fun innerCond => ?_
      refine settles_reading source (fun hcontent => .inr (.inr hcontent)) fun content => ?_
      exact settles_finding _ _ _ _ _

theorem settles_handleNestedElse (s block nested : Site) :
    Settles lint missing (handleNestedElse lint source s block nested) := by
  rw [handleNestedElse]
  refine Settles.noting ?_ _
  split
  · exact settles_reject _ s
  · split
    · exact settles_reject _ s
    · exact (settles_finding _ _ _ _ _).noting _

/-- Whatever was captured, the handler of the pass says that there is a match, and then it ends in one of the three
ways. -/
theorem settles_handle (lint : Lint) (source : SourceText) (number : Nat) (site : Site) (captures : Captures Site) :
    ∃ h, handle lint source number site captures = Pass.after [.told (.matched (.text lint.name))] h ∧
      Settles lint True h := by
  have hlacking (name : String) : Settles lint True (Pass.lacking name) := .broke (.noCapture name) trivial rfl rfl
  refine ⟨_, rfl, ?_⟩
  split
  · split
    · exact hlacking "then"
    · exact hlacking "inner"
    · exact (settles_handleNestedIf source site ⟨_, _, _, _, _⟩).mono fun _ => trivial
  · split
    · exact hlacking "block"
    · exact hlacking "else_"
    · exact settles_handleNestedElse source site _ _

/-! ## What becomes of a node -/

/-- What is counted for a node and what is found on it. A node that is not offered to the pass leaves
no trace; a node that is offered matches or not, and a match ends in one of three ways. -/
inductive Fate (name : String) (missing : Prop) : Bool → List Occurrence → List Diagnostic → Prop where
  | skipped : Fate name missing false [] []
  | unmatched : Fate name missing true [.candidate (.text name)] []
  | rejected (guard : Label) :
    Fate name missing true [.candidate (.text name), .matched (.text name), .rejected (.text name) guard] []
  | reported (d : Diagnostic) (own : d.lint.name = name) :
    Fate name missing true [.candidate (.text name), .matched (.text name)] [d]
  | failed (lacks : missing) :
    Fate name missing true [.candidate (.text name), .matched (.text name), .failed (.text name)] []

/-- What is counted because of an outcome. -/
def failures (name : String) : Except MatchFault (List Finding) → List Occurrence
  | .ok _ => []
  | .error _ => [.failed (.text name)]

/-- The findings in an outcome. -/
def found (outcome : Except MatchFault (List Finding)) : List Diagnostic :=
  (outcome.toOption.getD []).filterMap Finding.diagnostic?

theorem findingsOf_eq (p : Pass) (item : Option Site) :
    Session.findingsOf p source item = found ((p.scheme source).outcome (some Finding.wanted) item) := rfl

theorem occurrencesOf_eq (p : Pass) (item : Option Site) :
    Session.occurrencesOf p source item =
      Step.occurrences ((p.scheme source).trace (some Finding.wanted) item) ++
        failures p.lint.name ((p.scheme source).outcome (some Finding.wanted) item) := by
  rw [Session.occurrencesOf, Scheme.account, Step.occurrences_append]
  cases (p.scheme source).outcome (some Finding.wanted) item with
  | ok results => rfl
  | error fault =>
    simp only
    rw [Step.occurrences_append, Step.occurrences_notes]
    rfl

open Trial (settle)

/-- What the trials on a node that is offered come to. -/
def Offered (name : String) (missing : Prop) (ts : List (Trial Occurrence Finding)) : Prop :=
  Fate name missing true
    (.candidate (.text name) :: (Step.occurrences (Trial.trace false ts) ++ failures name (settle false ts)))
    (found (settle false ts))

/-- Trials from which nothing comes. -/
def Idle (ts : List (Trial Occurrence Finding)) : Prop :=
  Step.occurrences (Trial.trace false ts) = [] ∧ settle false ts = .ok []

theorem idle_nil : Idle [] := ⟨rfl, rfl⟩

variable {name : String} {t : Trial Occurrence Finding} {ts : List (Trial Occurrence Finding)} {notes : List Note}

/-- A pattern that matches nothing leaves notes and nothing else. -/
theorem trace_idle_cons (ts : List (Trial Occurrence Finding)) (ht : t = ⟨notes.map .note, .ok none⟩) :
    Step.occurrences (Trial.trace false (t :: ts)) = Step.occurrences (Trial.trace false ts) ∧
      settle false (t :: ts) = settle false ts := by
  obtain ⟨htrace, hsettle⟩ := Prod.mk.inj (Trial.settle_of_nothing (congrArg Trial.outcome ht))
  rw [htrace, hsettle, Step.occurrences_append, ht, Step.occurrences_notes, List.nil_append]
  exact ⟨rfl, rfl⟩

theorem Idle.cons (h : Idle ts) (ht : t = ⟨notes.map .note, .ok none⟩) : Idle (t :: ts) := by
  have hcons := trace_idle_cons ts ht
  exact ⟨hcons.1.trans h.1, hcons.2.trans h.2⟩

theorem Idle.offered (h : Idle ts) : Offered name missing ts := by
  rw [Offered, h.1, h.2]
  exact .unmatched

theorem Offered.cons (h : Offered name missing ts) (ht : t = ⟨notes.map .note, .ok none⟩) :
    Offered name missing (t :: ts) := by
  have hcons := trace_idle_cons ts ht
  rw [Offered, hcons.1, hcons.2]
  exact h

/-- A match that settles, before patterns from which nothing comes. -/
theorem offered_of_settles {s : Scheme Occurrence Finding} {item : Option Site} {i : Nat} {p : Pattern}
    {c : Captures Site} (hp : p.isCheckable) (he : p.eval item [] = some c)
    (hh : s.handle i item c = Pass.after [.told (.matched (.text lint.name))] h) (hs : Settles lint missing h)
    (hidle : Idle ts) : Offered lint.name missing (s.trial (some Finding.wanted) item i p :: ts) := by
  have ht := Scheme.trial_of_some s (some Finding.wanted) item (i := i) hp he
  rw [hh] at ht
  -- from here on it is only a trial with known steps and a known outcome
  generalize s.trial (some Finding.wanted) item i p = t at ht
  simp only [Pass.after] at ht
  have hsteps : Step.occurrences t.steps = .matched (.text lint.name) :: Step.occurrences h.1 := by
    rw [ht, Step.occurrences_append, Step.occurrences_notes]
    rfl
  rw [Offered]
  cases hs with
  | rejected guard told reply =>
    rw [reply] at ht
    obtain ⟨htrace, hsettle⟩ : Trial.trace false (t :: ts) = t.steps ++ Trial.trace false ts ∧
        settle false (t :: ts) = settle false ts := Prod.mk.inj (Trial.settle_of_nothing (congrArg Trial.outcome ht))
    rw [htrace, hsettle, Step.occurrences_append, hsteps, told, hidle.1, hidle.2]
    exact .rejected guard
  | found d told reply own =>
    rw [reply] at ht
    obtain ⟨htrace, hsettle⟩ : Trial.trace false (t :: ts) = t.steps ++ Trial.trace false ts ∧
        settle false (t :: ts) = (settle false ts).map (.diagnostic d :: ·) :=
      Prod.mk.inj (Trial.settle_of_result (congrArg Trial.outcome ht))
    rw [htrace, hsettle, Step.occurrences_append, hsteps, told, hidle.1, hidle.2]
    exact .reported d (congrArg Lint.name own)
  | broke fault lacks told reply =>
    rw [reply] at ht
    obtain ⟨htrace, hsettle⟩ : Trial.trace false (t :: ts) = t.steps ∧ settle false (t :: ts) = .error fault :=
      Prod.mk.inj (Trial.settle_of_fault (congrArg Trial.outcome ht))
    rw [htrace, hsettle, hsteps, told]
    exact .failed lacks

/-- The pass, with the lint at any level, on a node. -/
theorem fate_collapsibleIf (l : Lint) (s : Site) :
    let p : Pass := { collapsibleIf with lint := l }
    Fate l.name (∃ n, nestedIf? s = some n ∧ n.Lacks) s.node.isCandidate
      (Session.occurrencesOf p source (some s)) (Session.findingsOf p source (some s)) := by
  intro p
  let scheme := p.scheme source
  let first := scheme.trial (some Finding.wanted) (some s) 0 nestedIf
  let second := scheme.trial (some Finding.wanted) (some s) 1 nestedElse
  have haccepts : scheme.accepts (some s) = .ok s.node.isCandidate := rfl
  have hskip : nestedElse? s = none → second = ⟨_, .ok none⟩ := fun helse =>
    Scheme.trial_of_none _ _ _ rfl (by rw [eval_nestedElse, helse]; rfl)
  have hoffered : Offered l.name (∃ n, nestedIf? s = some n ∧ n.Lacks) [first, second] := by
    cases hjoin : nestedIf? s with
    | some n =>
      -- the first form forbids the `else` that the second one asks for
      have hmeans : nestedIf.eval (some s) [] = some n.captures := by rw [eval_nestedIf, hjoin]; rfl
      have hidle : Idle [second] := idle_nil.cons (hskip (nestedElse?_of_nestedIf? hjoin))
      refine offered_of_settles rfl hmeans (handle_nestedIf l source s n) ?_ hidle
      exact (settles_handleNestedIf source s n).mono fun hlacks => ⟨n, rfl, hlacks⟩
    | none =>
      have hmeans : nestedIf.eval (some s) [] = none := by rw [eval_nestedIf, hjoin]; rfl
      refine Offered.cons ?_ (Scheme.trial_of_none _ _ _ rfl hmeans)
      cases helse : nestedElse? s with
      | none => exact (idle_nil.cons (hskip helse)).offered
      | some n =>
        have hmeans' : nestedElse.eval (some s) [] = some n.captures := by rw [eval_nestedElse, helse]; rfl
        exact offered_of_settles rfl hmeans' (handle_nestedElse l source s n)
          (settles_handleNestedElse source s n.block n.nested) idle_nil
  rw [occurrencesOf_eq, findingsOf_eq, Scheme.trace, Scheme.outcome, haccepts]
  cases s.node.isCandidate with
  | false => exact .skipped
  | true => exact hoffered

end Collapsible

end NestLint
