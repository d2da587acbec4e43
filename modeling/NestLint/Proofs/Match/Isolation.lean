import Mathlib.Data.List.Basic
import NestLint.Proofs.Match.Scheme
import NestLint.Proofs.Tree.Walk

/-!
# Schemes do not disturb each other

What a scheme gives for an item is said here without the loop that finds it. Each of its patterns is
tried on its own, with nothing captured yet. If the filter or a trial that is reached fails, there are
no results and one failure; otherwise there are the results of all trials, or the first one. A run over
a tree puts these together, node by node and scheme by scheme, and nothing else.

The loop is `check_scheme`, the run `match_tree` of `Matcher`.

* `examine_eq`: one scheme on one item;
* `matchTree_eq`: all schemes on a tree;
* `matchTree_isolated`: the part of one scheme in a run is its run alone.
-/

namespace NestLint

variable {ε ρ σ : Type}

/-! ## Trials -/

/-- What comes of trying one pattern: what happens on the way, and a result, or none, or what goes
wrong. -/
structure Trial (ε ρ : Type) where
  steps : List (Step ε)
  outcome : Except MatchFault (Option ρ)

namespace Trial

/-- What went wrong. -/
def fault? (t : Trial ε ρ) : Option MatchFault :=
  match t.outcome with
  | .error fault => some fault
  | .ok _ => none

/-- The result. -/
def result? (t : Trial ε ρ) : Option ρ := t.outcome.toOption.join

/-- The trial with something made of the result. -/
def map (f : ρ → σ) (t : Trial ε ρ) : Trial ε σ := ⟨t.steps, t.outcome.map (Option.map f)⟩

theorem fault?_map (f : ρ → σ) (t : Trial ε ρ) : (t.map f).fault? = t.fault? := by
  obtain ⟨steps, outcome⟩ := t
  cases outcome <;> rfl

theorem result?_map (f : ρ → σ) (t : Trial ε ρ) : (t.map f).result? = t.result?.map f := by
  obtain ⟨steps, outcome⟩ := t
  cases outcome <;> rfl

/-- The beginning of a list up to the first thing with a property, which is its last. -/
def upTo {α : Type} (p : α → Bool) : List α → List α
  | [] => []
  | a :: rest => if p a then [a] else a :: upTo p rest

theorem mem_of_mem_upTo {α : Type} {p : α → Bool} {as : List α} {a : α} (h : a ∈ upTo p as) : a ∈ as := by
  induction as with
  | nil => cases h
  | cons b rest ih =>
    rw [upTo] at h
    split at h
    · exact List.mem_cons.2 (.inl (List.mem_singleton.1 h))
    · exact List.mem_cons.2 ((List.mem_cons.1 h).imp id ih)

/-- The trials that are made as long as none fails: all of them, or those up to the first result. -/
def reached (firstOnly : Bool) (ts : List (Trial ε ρ)) : List (Trial ε ρ) :=
  if firstOnly then upTo (fun t => t.result?.isSome) ts else ts

theorem mem_of_mem_reached {firstOnly : Bool} {ts : List (Trial ε ρ)} {t : Trial ε ρ}
    (h : t ∈ reached firstOnly ts) : t ∈ ts := by
  rw [reached] at h
  split at h
  · exact mem_of_mem_upTo h
  · exact h

/-- The results of trials: all of them, or the first. -/
def results (firstOnly : Bool) (ts : List (Trial ε ρ)) : List ρ :=
  if firstOnly then (ts.filterMap result?).take 1 else ts.filterMap result?

theorem mem_of_mem_results {firstOnly : Bool} {ts : List (Trial ε ρ)} {value : ρ} (h : value ∈ results firstOnly ts) :
    value ∈ ts.filterMap result? := by
  rw [results] at h
  split at h
  · exact List.mem_of_mem_take h
  · exact h

/-- All or nothing: the results, or what went wrong first. -/
def settle (firstOnly : Bool) (ts : List (Trial ε ρ)) : Except MatchFault (List ρ) :=
  match (reached firstOnly ts).findSome? fault? with
  | some fault => .error fault
  | none => .ok (results firstOnly ts)

/-- What happens on the way, up to the first trial that fails. -/
def trace (firstOnly : Bool) (ts : List (Trial ε ρ)) : List (Step ε) :=
  (upTo (fun t => t.fault?.isSome) (reached firstOnly ts)).flatMap steps

variable {firstOnly : Bool} {t : Trial ε ρ} {ts : List (Trial ε ρ)}

/-- A trial that fails is the last, and there are no results. -/
theorem settle_of_fault {fault : MatchFault} (h : t.outcome = .error fault) :
    (trace firstOnly (t :: ts), settle firstOnly (t :: ts)) = (t.steps, .error fault) := by
  have hfault : t.fault? = some fault := by rw [fault?, h]
  have hresult : t.result? = none := by
    rw [result?, h]
    rfl
  obtain ⟨rest, hreached⟩ : ∃ rest, reached firstOnly (t :: ts) = t :: rest := by
    cases firstOnly with
    | false => exact ⟨ts, rfl⟩
    | true =>
      refine ⟨upTo (fun t => t.result?.isSome) ts, ?_⟩
      rw [reached, if_pos rfl, upTo, hresult]
      rfl
  rw [trace, settle, hreached, List.findSome?_cons, upTo, hfault]
  simp

/-- After a trial without a result it is up to the others. -/
theorem settle_of_nothing (h : t.outcome = .ok none) :
    (trace firstOnly (t :: ts), settle firstOnly (t :: ts)) =
      (t.steps ++ trace firstOnly ts, settle firstOnly ts) := by
  have hfault : t.fault? = none := by rw [fault?, h]
  have hresult : t.result? = none := by
    rw [result?, h]
    rfl
  have hreached : reached firstOnly (t :: ts) = t :: reached firstOnly ts := by
    cases firstOnly with
    | false => rfl
    | true =>
      rw [reached, reached, if_pos rfl, if_pos rfl, upTo, hresult]
      rfl
  have hresults : results firstOnly (t :: ts) = results firstOnly ts := by
    rw [results, results, List.filterMap_cons, hresult]
  rw [trace, settle, hreached, List.findSome?_cons, upTo, hfault, hresults]
  rfl

/-- A result is the only one, or stands before those of the others. -/
theorem settle_of_result {value : ρ} (h : t.outcome = .ok (some value)) :
    (trace firstOnly (t :: ts), settle firstOnly (t :: ts)) =
      if firstOnly then (t.steps, .ok [value])
      else (t.steps ++ trace firstOnly ts, (settle firstOnly ts).map (value :: ·)) := by
  have hfault : t.fault? = none := by rw [fault?, h]
  have hresult : t.result? = some value := by
    rw [result?, h]
    rfl
  cases firstOnly with
  | true =>
    have hreached : reached true (t :: ts) = [t] := by
      rw [reached, if_pos rfl, upTo, hresult]
      rfl
    have hresults : results true (t :: ts) = [value] := by
      rw [results, if_pos rfl, List.filterMap_cons, hresult]
      rfl
    rw [trace, settle, hreached, List.findSome?_cons, upTo, hfault, hresults]
    simp [upTo]
  | false =>
    have hreached : reached false (t :: ts) = t :: reached false ts := rfl
    have hresults : results false (t :: ts) = value :: results false ts := by
      rw [results, results, if_neg Bool.false_ne_true, if_neg Bool.false_ne_true, List.filterMap_cons, hresult]
    rw [trace, settle, hreached, List.findSome?_cons, upTo, hfault, hresults, settle]
    cases (reached false ts).findSome? fault? with
    | none => rfl
    | some fault => rfl

end Trial

/-! ## One scheme on one item -/

namespace Scheme

open Trial

variable (scheme : Scheme ε ρ) (wanted : Option (Wanted ρ)) (item : Option Site)

/-- Try pattern number `i`, with nothing captured yet. -/
def trial (i : Nat) (p : Pattern) : Trial ε ρ :=
  let attempt := p.check item []
  let notes := attempt.notes.map Step.note
  match attempt.verdict with
  | .uncheckable lack => ⟨notes, .error (.uncheckable lack)⟩
  | .failed => ⟨notes, .ok none⟩
  | .matched =>
    let (told, reply) := scheme.handle i item attempt.captures
    match reply with
    | .fault fault => ⟨notes ++ told, .error fault⟩
    | .nothing => ⟨notes ++ told, .ok none⟩
    | .result value =>
      match wanted.filter fun w => !w.fits value with
      | some w => ⟨notes ++ told, .error (.unwanted w.name)⟩
      | none => ⟨notes ++ told, .ok (some value)⟩

/-- The trials of all patterns. -/
def trials : List (Trial ε ρ) := scheme.patterns.mapIdx (scheme.trial wanted item)

/-- The results for an item, or what went wrong. -/
def outcome : Except MatchFault (List ρ) :=
  match scheme.accepts item with
  | .error fault => .error fault
  | .ok false => .ok []
  | .ok true => settle scheme.firstOnly (scheme.trials wanted item)

/-- What happens while an item is examined. -/
def trace : List (Step ε) :=
  match scheme.accepts item with
  | .ok true => scheme.onAccept item ++ Trial.trace scheme.firstOnly (scheme.trials wanted item)
  | _ => []

/-- What a scheme contributes for an item. -/
def results : List ρ := (scheme.outcome wanted item).toOption.getD []

/-- What happens in a run on account of a scheme and an item: a failure is noted, and told once. -/
def account : List (Step ε) :=
  scheme.trace wanted item ++
    match scheme.outcome wanted item with
    | .ok _ => []
    | .error fault => (Matcher.failureNotes fault).map .note ++ [.failed scheme.title item fault]

/-- A trial is made of the notes of the check and of what the handler tells, and a result is one of the
handler that is wanted. -/
theorem exists_trial (i : Nat) (p : Pattern) :
    ∃ told, (scheme.trial wanted item i p).steps = (p.check item []).notes.map Step.note ++ told ∧
      (told = [] ∨ ∃ c, told = (scheme.handle i item c).1) ∧
      ∀ value, (scheme.trial wanted item i p).result? = some value →
        ∃ c, (scheme.handle i item c).2 = .result value := by
  rw [trial]
  cases (p.check item []).verdict with
  | uncheckable lack => exact ⟨[], (List.append_nil _).symm, .inl rfl, nofun⟩
  | failed => exact ⟨[], (List.append_nil _).symm, .inl rfl, nofun⟩
  | matched =>
    refine ⟨(scheme.handle i item (p.check item []).captures).1, ?_, .inr ⟨_, rfl⟩, fun value hvalue => ?_⟩
    · simp only
      split
      · rfl
      · rfl
      · split
        · rfl
        · rfl
    · refine ⟨(p.check item []).captures, ?_⟩
      simp only at hvalue
      split at hvalue
      · cases hvalue
      · cases hvalue
      · rename_i result hreply
        split at hvalue
        · cases hvalue
        · cases hvalue
          exact hreply

/-- A pattern that means nothing on the item has nothing but its notes. -/
theorem trial_of_none {i : Nat} {p : Pattern} (hp : p.isCheckable) (he : p.eval item [] = none) :
    scheme.trial wanted item i p = ⟨(p.check item []).notes.map Step.note, .ok none⟩ := by
  have ha := Pattern.check_agrees hp item []
  rw [he] at ha
  rw [trial, show (p.check item []).verdict = .failed from ha]

/-- After a match it is up to the reply of the handler. -/
theorem trial_of_some {i : Nat} {p : Pattern} {c : Captures Site} (hp : p.isCheckable)
    (he : p.eval item [] = some c) :
    scheme.trial wanted item i p =
      ⟨(p.check item []).notes.map Step.note ++ (scheme.handle i item c).1,
        match (scheme.handle i item c).2 with
        | .fault fault => .error fault
        | .nothing => .ok none
        | .result value =>
          match wanted.filter fun w => !w.fits value with
          | some w => .error (.unwanted w.name)
          | none => .ok (some value)⟩ := by
  have ha := Pattern.check_agrees hp item []
  rw [he] at ha
  obtain ⟨hverdict, hcaptures⟩ := ha
  rw [trial, hverdict, hcaptures]
  simp only
  cases (scheme.handle i item c).2 with
  | fault fault => rfl
  | nothing => rfl
  | result value =>
    simp only
    cases wanted.filter fun w => !w.fits value with
    | some w => rfl
    | none => rfl

/-- One trial, and then the patterns behind it. -/
theorem examineFrom_cons (i : Nat) (p : Pattern) (ps : List Pattern) :
    scheme.examineFrom wanted item i (p :: ps) =
      let t := scheme.trial wanted item i p
      let more := scheme.examineFrom wanted item (i + 1) ps
      match t.outcome with
      | .error fault => (t.steps, .error fault)
      | .ok none => (t.steps ++ more.1, more.2)
      | .ok (some value) =>
        if scheme.firstOnly then (t.steps, .ok [value]) else (t.steps ++ more.1, more.2.map (value :: ·)) := by
  rw [examineFrom, trial]
  cases (p.check item []).verdict with
  | uncheckable lack => rfl
  | failed => rfl
  | matched =>
    simp only
    cases (scheme.handle i item (p.check item []).captures).2 with
    | fault fault => rfl
    | nothing => rfl
    | result value =>
      simp only
      cases wanted.filter fun w => !w.fits value with
      | some w => rfl
      | none => rfl

theorem examineFrom_eq (i : Nat) (ps : List Pattern) :
    scheme.examineFrom wanted item i ps =
      (Trial.trace scheme.firstOnly (ps.mapIdx fun j => scheme.trial wanted item (i + j)),
        settle scheme.firstOnly (ps.mapIdx fun j => scheme.trial wanted item (i + j))) := by
  induction ps generalizing i with
  | nil =>
    rw [examineFrom, List.mapIdx_nil]
    cases scheme.firstOnly <;> rfl
  | cons p ps ih =>
    have hshift : (ps.mapIdx fun j => scheme.trial wanted item (i + (j + 1))) =
        ps.mapIdx fun j => scheme.trial wanted item (i + 1 + j) := by
      simp only [Nat.add_right_comm, ← Nat.add_assoc]
    rw [List.mapIdx_cons, hshift, Nat.add_zero, examineFrom_cons, ih (i + 1)]
    simp only
    cases h : (scheme.trial wanted item i p).outcome with
    | error fault => rw [settle_of_fault h]
    | ok value? =>
      cases value? with
      | none => rw [settle_of_nothing h]
      | some value => rw [settle_of_result h]

/-- What examining an item comes to. -/
theorem examine_eq : scheme.examine wanted item = (scheme.trace wanted item, scheme.outcome wanted item) := by
  rw [examine, trace, outcome, examineFrom_eq]
  simp only [Nat.zero_add]
  cases scheme.accepts item with
  | error fault => rfl
  | ok accepted =>
    cases accepted with
    | false => rfl
    | true => rfl

variable {scheme wanted item}

variable (scheme) in
/-- What happens in the trials comes from the patterns or from the handler. -/
theorem mem_trace_trials {step : Step ε} (h : step ∈ Trial.trace scheme.firstOnly (scheme.trials wanted item)) :
    (∃ n, step = .note n) ∨ ∃ i c, step ∈ (scheme.handle i item c).1 := by
  obtain ⟨t, ht, hstep⟩ := List.mem_flatMap.1 h
  obtain ⟨i, p, rfl⟩ := List.mem_mapIdx.1 (mem_of_mem_reached (mem_of_mem_upTo ht))
  obtain ⟨told, hsteps, htold, -⟩ := scheme.exists_trial wanted item i _
  rw [hsteps] at hstep
  obtain hstep | hstep := List.mem_append.1 hstep
  · obtain ⟨n, -, rfl⟩ := List.mem_map.1 hstep
    exact .inl ⟨n, rfl⟩
  · obtain rfl | ⟨c, rfl⟩ := htold
    · cases hstep
    · exact .inr ⟨i, c, hstep⟩

/-- What happens while an item is examined comes from the start, from the patterns or from the handler. -/
theorem mem_trace {step : Step ε} (h : step ∈ scheme.trace wanted item) :
    step ∈ scheme.onAccept item ∨ (∃ n, step = .note n) ∨ ∃ i c, step ∈ (scheme.handle i item c).1 := by
  rw [Scheme.trace] at h
  split at h
  · exact (List.mem_append.1 h).imp_right scheme.mem_trace_trials
  · cases h

/-- Every result is an answer of the handler. -/
theorem mem_results {value : ρ} (h : value ∈ scheme.results wanted item) :
    ∃ i c, (scheme.handle i item c).2 = .result value := by
  have hall : ∀ results, scheme.outcome wanted item = .ok results → value ∈ results →
      ∃ i c, (scheme.handle i item c).2 = .result value := by
    intro results houtcome hvalue
    rw [outcome] at houtcome
    split at houtcome
    · cases houtcome
    · cases houtcome
      cases hvalue
    · rw [settle] at houtcome
      split at houtcome
      · cases houtcome
      · cases houtcome
        obtain ⟨t, ht, hresult⟩ := List.mem_filterMap.1 (mem_of_mem_results hvalue)
        obtain ⟨i, p, rfl⟩ := List.mem_mapIdx.1 ht
        obtain ⟨told, -, -, hreply⟩ := scheme.exists_trial wanted item i _
        exact ⟨i, hreply value hresult⟩
  rw [results] at h
  cases houtcome : scheme.outcome wanted item with
  | error fault =>
    rw [houtcome] at h
    cases h
  | ok results =>
    rw [houtcome] at h
    exact hall results houtcome h

/-- Only the run tells that a scheme failed, never its handler. -/
structure Quiet (scheme : Scheme ε ρ) : Prop where
  handle : ∀ i item c, ∀ step ∈ (scheme.handle i item c).1, step.isFailure = false
  onAccept : ∀ item, ∀ step ∈ scheme.onAccept item, step.isFailure = false

theorem Quiet.trace (h : scheme.Quiet) : ∀ step ∈ scheme.trace wanted item, step.isFailure = false := by
  intro step hstep
  obtain hstep | ⟨n, rfl⟩ | ⟨i, c, hstep⟩ := mem_trace hstep
  · exact h.onAccept item step hstep
  · rfl
  · exact h.handle i item c step hstep

/-- There is one failure where a scheme fails, and none where it does not. -/
theorem Quiet.failures (h : scheme.Quiet) :
    (scheme.account wanted item).filter Step.isFailure =
      match scheme.outcome wanted item with
      | .ok _ => []
      | .error fault => [.failed scheme.title item fault] := by
  have htrace : (scheme.trace wanted item).filter Step.isFailure = [] := by
    rw [List.filter_eq_nil_iff]
    intro step hstep
    rw [h.trace step hstep]
    exact Bool.false_ne_true
  rw [account, List.filter_append, htrace]
  cases scheme.outcome wanted item with
  | ok results => rfl
  | error fault => rfl

end Scheme

/-! ## Results that tell where they come from -/

/-- The reply with something made of the result. -/
def Reply.map (f : ρ → σ) : Reply ρ → Reply σ
  | .nothing => .nothing
  | .result value => .result (f value)
  | .fault reason => .fault reason

/-- The results that are wanted, with a number before each. -/
def Wanted.numbered (wanted : Wanted ρ) : Wanted (Nat × ρ) := ⟨wanted.name, fun value => wanted.fits value.2⟩

/-- A scheme that puts a number before each of its results. -/
def Scheme.numbered (scheme : Scheme ε ρ) (number : Nat) : Scheme ε (Nat × ρ) where
  title := scheme.title
  patterns := scheme.patterns
  firstOnly := scheme.firstOnly
  accepts := scheme.accepts
  onAccept := scheme.onAccept
  handle i item c := ((scheme.handle i item c).1, (scheme.handle i item c).2.map (number, ·))

namespace Trial

theorem upTo_map {α β : Type} (p : β → Bool) (f : α → β) (as : List α) :
    upTo p (as.map f) = (upTo (fun a => p (f a)) as).map f := by
  induction as with
  | nil => rfl
  | cons a rest ih =>
    rw [List.map_cons, upTo, upTo, ih]
    split
    · rfl
    · rfl

variable (f : ρ → σ) (firstOnly : Bool) (ts : List (Trial ε ρ))

theorem reached_map : reached firstOnly (ts.map (Trial.map f)) = (reached firstOnly ts).map (Trial.map f) := by
  cases firstOnly with
  | false => rfl
  | true =>
    rw [reached, reached, if_pos rfl, if_pos rfl, upTo_map]
    simp only [result?_map, Option.isSome_map]

theorem results_map : results firstOnly (ts.map (Trial.map f)) = (results firstOnly ts).map f := by
  have hall : (ts.map (Trial.map f)).filterMap result? = (ts.filterMap result?).map f := by
    rw [List.filterMap_map, List.map_filterMap]
    simp only [Function.comp_def, result?_map]
  rw [results, results, hall]
  split
  · exact (List.map_take ..).symm
  · rfl

theorem settle_map : settle firstOnly (ts.map (Trial.map f)) = (settle firstOnly ts).map (List.map f) := by
  rw [settle, settle, reached_map, List.findSome?_map, results_map]
  simp only [Function.comp_def, fault?_map]
  cases (reached firstOnly ts).findSome? fault? with
  | none => rfl
  | some fault => rfl

theorem trace_map : trace firstOnly (ts.map (Trial.map f)) = trace firstOnly ts := by
  rw [trace, trace, reached_map, upTo_map, List.flatMap_map]
  simp only [fault?_map]
  rfl

end Trial

namespace Scheme

open Trial

variable (scheme : Scheme ε ρ) (wanted : Option (Wanted ρ)) (item : Option Site) (number : Nat)

theorem title_numbered : (scheme.numbered number).title = scheme.title := rfl

theorem trial_numbered (i : Nat) (p : Pattern) :
    (scheme.numbered number).trial (wanted.map Wanted.numbered) item i p =
      (scheme.trial wanted item i p).map (number, ·) := by
  rw [trial, trial, numbered]
  cases (p.check item []).verdict with
  | uncheckable lack => rfl
  | failed => rfl
  | matched =>
    simp only
    cases (scheme.handle i item (p.check item []).captures).2 with
    | fault fault => rfl
    | nothing => rfl
    | result value =>
      cases wanted with
      | none => rfl
      | some w =>
        simp only [Reply.map, Option.map_some, Option.filter_some, Wanted.numbered]
        cases w.fits value with
        | true => rfl
        | false => rfl

theorem trials_numbered :
    (scheme.numbered number).trials (wanted.map Wanted.numbered) item =
      (scheme.trials wanted item).map (Trial.map (number, ·)) := by
  refine List.ext_getElem? fun i => ?_
  rw [trials, trials, List.getElem?_mapIdx, List.getElem?_map, List.getElem?_mapIdx, Option.map_map]
  simp only [Function.comp_def, ← trial_numbered]
  rfl

theorem outcome_numbered :
    (scheme.numbered number).outcome (wanted.map Wanted.numbered) item =
      (scheme.outcome wanted item).map (List.map (number, ·)) := by
  rw [outcome, outcome, trials_numbered, settle_map]
  simp only [numbered]
  cases scheme.accepts item with
  | error fault => rfl
  | ok accepted =>
    cases accepted with
    | false => rfl
    | true => rfl

theorem results_numbered :
    (scheme.numbered number).results (wanted.map Wanted.numbered) item =
      (scheme.results wanted item).map (number, ·) := by
  rw [results, results, outcome_numbered]
  cases scheme.outcome wanted item with
  | error fault => rfl
  | ok results => rfl

theorem account_numbered :
    (scheme.numbered number).account (wanted.map Wanted.numbered) item = scheme.account wanted item := by
  have htrace : (scheme.numbered number).trace (wanted.map Wanted.numbered) item = scheme.trace wanted item := by
    rw [trace, trace, trials_numbered, trace_map]
    rfl
  rw [account, account, htrace, outcome_numbered]
  cases scheme.outcome wanted item with
  | error fault => rfl
  | ok results => rfl

end Scheme

/-! ## All schemes on a tree -/

namespace Matcher

theorem checkScheme_eq (m : Matcher ε ρ) (scheme : Scheme ε ρ) (item : Option Site) :
    m.checkScheme scheme item = (scheme.account m.wanted item, scheme.results m.wanted item) := by
  rw [checkScheme, Scheme.examine_eq, Scheme.account, Scheme.results]
  cases scheme.outcome m.wanted item with
  | ok results =>
    simp only [List.append_nil]
    rfl
  | error fault =>
    simp only [List.append_assoc]
    rfl

/-- A run begins with all schemes, goes through the expressions of the tree, each after those inside it,
and for each through the schemes in order, and ends with all schemes. -/
theorem matchTree_eq (m : Matcher ε ρ) (root : Node) :
    m.matchTree root =
      ((Dict.values m.schemes).map (fun s => .started s.title) ++
          ((Site.root root).exprs.flatMap fun site =>
            (Dict.values m.schemes).flatMap fun s => s.account m.wanted (some site)) ++
          (Dict.values m.schemes).map (fun s => .ended s.title),
        (Site.root root).exprs.flatMap fun site =>
          (Dict.values m.schemes).flatMap fun s => s.results m.wanted (some site)) := by
  rw [matchTree, Node.exprSites_eq]
  simp only [checkSchemes, checkScheme_eq, Dict.values, List.flatMap_map, List.map_map, Function.comp_def]

theorem values_ofList (schemes : List (Scheme ε ρ)) (wanted : Option (Wanted ρ)) :
    Dict.values (ofList schemes wanted).schemes = schemes := by
  refine List.ext_getElem? fun i => ?_
  simp [ofList, Dict.values, Function.comp_def]

/-- The results of schemes that are numbered, taken by number. -/
theorem filter_numbered (results : Scheme ε ρ → List ρ) (schemes : List (Scheme ε ρ)) (k i : Nat) :
    ((schemes.zipIdx k).flatMap fun entry => (results entry.1).map (entry.2, ·)).filter
        (fun value => value.1 == k + i) =
      (schemes[i]?.toList.flatMap results).map (k + i, ·) := by
  induction schemes generalizing k i with
  | nil => rfl
  | cons scheme rest ih =>
    rw [List.zipIdx_cons, List.flatMap_cons, List.filter_append]
    cases i with
    | zero =>
      have hown : ((results scheme).map (k, ·)).filter (fun value => value.1 == k + 0) =
          (results scheme).map (k, ·) := by
        simp
      have hothers : ((rest.zipIdx (k + 1)).flatMap fun entry => (results entry.1).map (entry.2, ·)).filter
          (fun value => value.1 == k + 0) = [] := by
        rw [List.filter_eq_nil_iff]
        intro value hvalue
        obtain ⟨entry, hentry, hvalue⟩ := List.mem_flatMap.1 hvalue
        obtain ⟨result, -, rfl⟩ := List.mem_map.1 hvalue
        have hlater := List.le_snd_of_mem_zipIdx hentry
        simp only [beq_iff_eq]
        omega
      rw [hown, hothers]
      simp
    | succ i =>
      have hown : ((results scheme).map (k, ·)).filter (fun value => value.1 == k + (i + 1)) = [] := by
        simp
      have hshift : k + (i + 1) = k + 1 + i := by omega
      rw [hown, List.nil_append, hshift, ih (k + 1) i, List.getElem?_cons_succ]

/-- In a run, every scheme gives for every expression what it gives on its own: all its results, or
none and one failure. All schemes start before the first expression and end after the last one. Where
results are numbered by their schemes, those with the number of a scheme are the results of a run with
this scheme alone. -/
theorem matchTree_isolated (schemes : List (Scheme ε ρ)) (wanted : Option (Wanted ρ)) (root : Node) :
    let run := fun schemes : List (Scheme ε ρ) => (ofList schemes wanted).matchTree root
    let numbered :=
      (ofList (schemes.zipIdx.map fun entry => entry.1.numbered entry.2) (wanted.map Wanted.numbered)).matchTree root
    let nodes := (Site.root root).exprs
    (run schemes).2 = (nodes.flatMap fun site => schemes.flatMap fun s => s.results wanted (some site)) ∧
      (run schemes).1 = schemes.map (fun s => .started s.title) ++
        (nodes.flatMap fun site => schemes.flatMap fun s => s.account wanted (some site)) ++
        schemes.map (fun s => .ended s.title) ∧
      (∀ s ∈ schemes, s.Quiet → ∀ item, (s.account wanted item).filter Step.isFailure =
        match s.outcome wanted item with
        | .ok _ => []
        | .error fault => [.failed s.title item fault]) ∧
      numbered.1 = (run schemes).1 ∧ numbered.2.map Prod.snd = (run schemes).2 ∧
      ∀ i s, schemes[i]? = some s → (numbered.2.filter fun value => value.1 == i).map Prod.snd = (run [s]).2 := by
  intro run numbered nodes
  have hrun : ∀ schemes, run schemes =
      (schemes.map (fun s => .started s.title) ++
        (nodes.flatMap fun site => schemes.flatMap fun s => s.account wanted (some site)) ++
        schemes.map (fun s => .ended s.title),
      nodes.flatMap fun site => schemes.flatMap fun s => s.results wanted (some site)) := by
    intro schemes
    rw [show run schemes = _ from matchTree_eq _ root, values_ofList]
    rfl
  have hmap : ∀ {β : Type} (f : Scheme ε ρ → β), (schemes.zipIdx.map fun entry => f entry.1) = schemes.map f := by
    intro β f
    conv_rhs => rw [← List.zipIdx_map_fst 0 schemes, List.map_map]
    rfl
  have hflat : ∀ {β : Type} (f : Scheme ε ρ → List β),
      (schemes.zipIdx.flatMap fun entry => f entry.1) = schemes.flatMap f := by
    intro β f
    conv_rhs => rw [← List.zipIdx_map_fst 0 schemes, List.flatMap_map]
  have hsteps : numbered.1 = (run schemes).1 := by
    rw [show numbered = _ from matchTree_eq _ root, values_ofList, hrun]
    simp only [List.map_map, List.flatMap_map, Function.comp_def]
    simp only [ofList, Scheme.account_numbered, Scheme.title_numbered]
    rw [hmap fun s => Step.started s.title, hmap fun s => Step.ended s.title,
      funext fun site => hflat fun s => s.account wanted (some site)]
  -- the numbers tell the schemes apart, so taking those with one number takes one scheme's results
  have hresults : numbered.2 = nodes.flatMap fun site =>
      schemes.zipIdx.flatMap fun entry => (entry.1.results wanted (some site)).map (entry.2, ·) := by
    rw [show numbered = _ from matchTree_eq _ root, values_ofList]
    simp only [List.flatMap_map, ofList, Scheme.results_numbered]
    rfl
  refine ⟨by rw [hrun], by rw [hrun], fun s _ hquiet item => hquiet.failures, hsteps, ?_, ?_⟩
  · rw [hresults, hrun, List.map_flatMap]
    simp only [List.map_flatMap, List.map_map, Function.comp_def, List.map_id']
    rw [funext fun site => hflat fun s => s.results wanted (some site)]
  · intro i s hs
    have hown := fun site => filter_numbered (fun s => s.results wanted (some site)) schemes 0 i
    simp only [Nat.zero_add, hs] at hown
    rw [hresults, hrun, List.filter_flatMap, List.map_flatMap]
    simp only [hown, Option.toList_some, List.map_map, Function.comp_def, List.map_id']

/-- A scheme whose handler fails on everything. -/
def failing : Scheme Unit Nat where
  title := "failing"
  patterns := [.any {} false]
  handle _ _ _ := ([], .fault (.raised "no"))

/-- A scheme that gives a number for everything. -/
def giving : Scheme Unit Nat where
  title := "giving"
  patterns := [.any {} false]
  handle _ _ _ := ([], .result 7)

/-- Beside a scheme that fails, the other one gives what it gives alone. -/
theorem matchTree_isolated_failing :
    let run := fun schemes => (ofList schemes none).matchTree (.path .dummy ["x"])
    failing.Quiet ∧ [failing, giving][1]? = some giving ∧
      (failing.account none none).filter Step.isFailure =
        (match failing.outcome none none with
        | .ok _ => []
        | .error fault => [.failed "failing" none fault]) ∧
      (((ofList [failing.numbered 0, giving.numbered 1] none).matchTree (.path .dummy ["x"])).2.filter
        fun value => value.1 == 1).map Prod.snd = (run [giving]).2 := by
  intro run
  have hquiet : failing.Quiet := ⟨fun _ _ _ => nofun, fun _ => nofun⟩
  obtain ⟨-, -, hfailures, -, -, halone⟩ := matchTree_isolated [failing, giving] none (.path .dummy ["x"])
  exact ⟨hquiet, rfl, hfailures failing List.mem_cons_self hquiet none, halone 1 giving rfl⟩

end Matcher

end NestLint
