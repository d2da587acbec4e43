import NestLint.Lint.Start
import NestLint.Proofs.Lint.Reports
import NestLint.Proofs.Log.Ready
import NestLint.Proofs.Match.Notes

/-!
# Checks on a host

A check of a file takes notes, and on a host these are said, which is the only thing that can go wrong
there. The notes of a session are all on the program's own channels, and they are made while nothing
but work of a lint on a file is going on, so on a ready host nothing goes wrong, and the host is ready
for the next file.

A check is `LintDriver.check_tree`, and the pass is `CollapsibleIf`.

* `follow_plain`, `followAll_plain`: one step of the matcher and a whole run;
* `checkOn_of_ready`: any passes that note nothing elsewhere, on any tree;
* `checkOn_collapsibleIf`: the pass for collapsible conditionals.
-/

namespace NestLint

/-! ## Passes -/

/-- All notes of the handler of a pass are on the program's own channels. -/
def Pass.Own (p : Pass) : Prop :=
  ∀ source number site c, ∀ step ∈ (p.handle p.lint source number site c).1, step.Noted Note.Own

theorem own_of_onTrees {n : Note} (h : n.OnTrees) : n.Own := by
  rw [Note.Own, show n.channel = Note.treeChannel from h]
  decide

theorem own_of_session {n : Note} (h : n.channel = Note.sessionChannel) : n.Own := by
  rw [Note.Own, h]
  decide

theorem Pass.Own.scheme {p : Pass} (h : p.Own) (source : SourceText) : (p.scheme source).Noted Note.Own where
  handle := by
    intro number item c
    cases item with
    | none => nofun
    | some site => exact h source number site c
  onAccept := by
    intro item step hstep
    rw [List.mem_singleton.1 hstep]
    trivial

namespace Session

/-! ## What is noted during a check -/

/-- All that was noted can be said, and so can whatever is noted next. -/
structure Progress.Plain (p : Progress) : Prop where
  context : p.context.Plain
  entries : ∀ e ∈ p.entries, e.Plain

namespace Progress

theorem Plain.note {p : Progress} (h : p.Plain) {n : Note} (hn : n.Own) : (p.note n).Plain where
  context := h.context
  entries := by
    intro e he
    obtain he | he := List.mem_append.1 he
    · exact h.entries e he
    · rw [List.mem_singleton.1 he]
      exact ⟨hn, h.context.current⟩

theorem Plain.count {p : Progress} (h : p.Plain) (o : Occurrence) : (p.count o).Plain := ⟨h.context, h.entries⟩

theorem follow_plain {p : Progress} (h : p.Plain) {step : Step Occurrence} (hs : step.Noted Note.Own) :
    (p.follow step).Plain := by
  cases step with
  | note n => exact h.note hs
  | told o =>
    cases o with
    | candidate lint => exact ⟨h.context.put (.inl rfl) lint.document, h.entries⟩
    | matched lint => exact h.count (.matched lint)
    | rejected lint guard => exact h.count (.rejected lint guard)
    | reported lint => exact h.count (.reported lint)
    | failed lint => exact h.count (.failed lint)
  | failed title item fault => exact (h.note (own_of_session rfl)).count _
  | started title => exact h
  | ended title => exact h

theorem followAll_plain {steps : List (Step Occurrence)} (hs : ∀ step ∈ steps, step.Noted Note.Own) {p : Progress}
    (h : p.Plain) : (p.followAll steps).Plain := by
  induction steps generalizing p with
  | nil => exact h
  | cons step rest ih =>
    exact ih (fun s hmem => hs s (List.mem_cons_of_mem _ hmem)) (follow_plain h (hs step List.mem_cons_self))

end Progress

theorem deliver_plain {sink : Sink} (hsink : ∀ d, ∀ n ∈ sink d, n.Own) {p : Progress} (h : p.Plain) (d : Diagnostic) :
    (deliver sink p d).Plain := by
  have hnotes : ∀ (notes : List Note), (∀ n ∈ notes, n.Own) → ∀ {p : Progress}, p.Plain →
      (notes.foldl Progress.note p).Plain := by
    intro notes
    induction notes with
    | nil => exact fun _ _ h => h
    | cons n rest ih =>
      exact fun hown _ h => ih (fun m hm => hown m (List.mem_cons_of_mem _ hm)) (h.note (hown n List.mem_cons_self))
  exact hnotes (sink d) (hsink d) (h.count _)

variable {passes : List Pass} {context : Context}

theorem examine_plain (hown : ∀ p ∈ passes, p.Own) (hc : context.Plain) (root : Node) (source : SourceText) :
    (examine passes context root source).2.Plain := by
  have hschemes : ∀ entry ∈ (Matcher.ofList (passes.map fun p => p.scheme source) (some Finding.wanted)).schemes,
      entry.2.Noted Note.Own := by
    intro entry hentry
    obtain ⟨i, hi, rfl⟩ := List.mem_mapIdx.1 hentry
    rw [List.length_map] at hi
    rw [List.getElem_map]
    exact (hown _ (List.getElem_mem hi)).scheme source
  have hstart : Progress.Plain { context := context.enterFile source.name } := ⟨hc.put (.inr rfl) _, nofun⟩
  have hrun := Progress.followAll_plain (Matcher.matchTree_noted hschemes (fun _ => own_of_onTrees) root) hstart
  exact ⟨(hrun.context.remove _).remove _, hrun.entries⟩

theorem check_plain (hown : ∀ p ∈ passes, p.Own) (hc : context.Plain) {sink : Sink}
    (hsink : ∀ d, ∀ n ∈ sink d, n.Own) (root : Node) (source : SourceText) :
    (check passes context root source sink).2.Plain := by
  have hdelivered : ∀ (ds : List Diagnostic) {p : Progress}, p.Plain → (ds.foldl (deliver sink) p).Plain := by
    intro ds
    induction ds with
    | nil => exact fun h => h
    | cons d rest ih => exact fun h => ih (deliver_plain hsink h d)
  exact (hdelivered _ (examine_plain hown hc root source)).note (own_of_session rfl)

/-! ## Checks on a ready host -/

/-- On a ready host a check gives its findings and what occurred, and leaves a ready host. -/
theorem checkOn_of_ready {h : Host} (ready : h.Ready) (hown : ∀ p ∈ passes, p.Own) (sink : Sink)
    (hsink : ∀ d, ∀ n ∈ sink d, n.Own) (root : Node) (source : SourceText) :
    ∃ h', h'.Ready ∧ checkOn h passes root source sink =
      (h', .ok ((check passes h.hub.context root source sink).1,
        (check passes h.hub.context root source sink).2.occurrences)) := by
  have hplain := check_plain hown ready.context hsink root source
  obtain ⟨h₁, hentered, hk⟩ := Host.enterAll_of_ready ready hplain.entries
  have ready₁ := ready.of_keeps hk
  rw [checkOn]
  simp only [settle, hentered]
  refine ⟨_, ?_, rfl⟩
  exact ⟨ready₁.channels, ready₁.files, hplain.context⟩

end Session

/-! ## The pass for collapsible conditionals -/

namespace Collapsible

theorem notes_own (source : SourceText) (span : Span) :
    ∀ step ∈ Pass.noting (source.notes span), step.Noted Note.Own := by
  refine noted_of_notes fun n hn => ?_
  rw [SourceText.notes] at hn
  split at hn
  · cases hn
  · rw [List.mem_singleton.1 hn]
    show Note.engineChannel ∈ Hub.ownNames
    decide

theorem reject_own (lint : Lint) (guard : Label) (site : Site) :
    ∀ step ∈ (Pass.reject lint guard site).1, step.Noted Note.Own := by
  intro step hstep
  simp only [Pass.reject, List.mem_cons, List.not_mem_nil, or_false] at hstep
  obtain rfl | rfl := hstep
  · show Note.lintsChannel ∈ Hub.ownNames
    decide
  · trivial

theorem after_own {before : List (Step Occurrence)} {handling : Handling} (hb : ∀ step ∈ before, step.Noted Note.Own)
    (hh : ∀ step ∈ handling.1, step.Noted Note.Own) : ∀ step ∈ (Pass.after before handling).1, step.Noted Note.Own :=
  fun step hstep => (List.mem_append.1 hstep).elim (hb step) (hh step)

theorem reading_own (source : SourceText) (name : String) (item : Option Site) {next : Site → Handling}
    (hnext : ∀ site, ∀ step ∈ (next site).1, step.Noted Note.Own) :
    ∀ step ∈ (reading source name item next).1, step.Noted Note.Own := by
  cases item with
  | none => nofun
  | some site => exact after_own (notes_own source site.span) (hnext site)

theorem lacking_own (name : String) : ∀ step ∈ (Pass.lacking name).1, step.Noted Note.Own := nofun

theorem finding_own (lint : Lint) (span : Span) (message help replacement : String) (rating : Applicability) :
    ∀ step ∈ (Pass.finding lint span message help replacement rating).1, step.Noted Note.Own := nofun

theorem collapsibleIf_own : collapsibleIf.Own := by
  intro source number site c
  show ∀ step ∈ (handle lint source number site c).1, step.Noted Note.Own
  rw [handle]
  refine after_own (fun step hstep => by rw [List.mem_singleton.1 hstep]; trivial) ?_
  split
  · split
    · exact lacking_own _
    · exact lacking_own _
    · rw [handleNestedIf]
      refine after_own (notes_own source _) ?_
      split
      · exact reject_own lint _ site
      · split
        · exact reject_own lint _ site
        · refine reading_own _ _ _ fun _ => reading_own _ _ _ fun _ => reading_own _ _ _ fun _ => ?_
          exact finding_own _ _ _ _ _ _
  · split
    · exact lacking_own _
    · exact lacking_own _
    · rw [handleNestedElse]
      refine after_own (notes_own source _) ?_
      split
      · exact reject_own lint _ site
      · split
        · exact reject_own lint _ site
        · exact after_own (notes_own source _) (finding_own _ _ _ _ _ _)

end Collapsible

/-- Without a project the pass is on. On a ready host it gives, for every tree and every text, exactly
what there is to report, and leaves a ready host. -/
theorem checkOn_collapsibleIf (root : Node) (source : SourceText) :
    (Session.select [] [collapsibleIf]).2 = .ok [collapsibleIf] ∧
      ∀ h : Host, h.Ready → ∃ h' occurrences, h'.Ready ∧
        Session.checkOn h [collapsibleIf] root source .silent =
          (h', .ok (Collapsible.reports source root, occurrences)) := by
  refine ⟨rfl, fun h ready => ?_⟩
  have hown : ∀ p ∈ [collapsibleIf], p.Own := by
    intro p hp
    rw [List.mem_singleton.1 hp]
    exact Collapsible.collapsibleIf_own
  obtain ⟨h', ready', hcheck⟩ := Session.checkOn_of_ready ready hown .silent (fun _ => nofun) root source
  rw [findings_collapsibleIf] at hcheck
  exact ⟨h', _, ready', hcheck⟩

/-- The text of an `if` in an `if`. -/
def nestedText : SourceText := { text := "if a { if b { c } }" }

/-- The tree of that text. -/
def nestedTree : Node :=
  let name (lo hi : Int) (text : String) : Node := .path ⟨lo, hi, .root⟩ [text]
  let body (lo hi : Int) (node : Node) : Node := .block ⟨lo, hi, .root⟩ [.stmt node.span .expr node]
  .ifThen ⟨0, 19, .root⟩ (some (name 3 4 "a"))
    (some (body 5 19 (.ifThen ⟨7, 17, .root⟩ (some (name 10 11 "b")) (some (body 12 17 (name 14 15 "c"))) none))) none

theorem checkOn_nestedTree : Host.Ready {} ∧ ∃ h' occurrences, h'.Ready ∧
    Session.checkOn {} [collapsibleIf] nestedTree nestedText .silent =
      (h', .ok ([⟨Collapsible.lint, ⟨0, 19, .root⟩, "this `if` statement can be collapsed",
        some ⟨⟨0, 19, .root⟩, "if a && b { c }", .machineApplicable, "try"⟩⟩], occurrences)) := by
  have hreports : Collapsible.reports nestedText nestedTree =
      [⟨Collapsible.lint, ⟨0, 19, .root⟩, "this `if` statement can be collapsed",
        some ⟨⟨0, 19, .root⟩, "if a && b { c }", .machineApplicable, "try"⟩⟩] := by decide +kernel
  rw [← hreports]
  exact ⟨Host.ready_initial, (checkOn_collapsibleIf nestedTree nestedText).2 {} Host.ready_initial⟩

end NestLint
