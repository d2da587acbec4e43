import Mathlib.Algebra.BigOperators.Group.List.Basic
import Mathlib.Algebra.GroupWithZero.Nat
import NestLint.Proofs.Lint.Accounting
import NestLint.Proofs.Lint.Said

/-!
# The books of a session

Whatever other passes do beside it, the pass for collapsible conditionals accounts for every node that
it is offered, so the counts of its lint add up after every check, over any number of files.

The pass is `CollapsibleIf`, the counts are `LintStatistics`, and a check is
`LintDriver.check_tree`.

* `Balance`: books that add up, and how they are put together;
* `balance_check`: the books of one check;
* `checkAll_balanced`: the books of a session.
-/

namespace NestLint

/-! ## Candidates of a tree -/

namespace Node

theorem isExpr_of_isCandidate (n : Node) (h : n.isCandidate) : n.isExpr := by
  cases n with
  | ifThen span cond body els => rfl
  | ifLet span pat scrutinee body els => rfl
  | _ => cases h

/-- The candidates of a tree are those among its expressions. -/
theorem countP_isCandidate (root : Node) :
    root.nodes.countP isCandidate = ((Site.root root).exprs.map fun s => s.node.isCandidate.toNat).sum := by
  have hone : ∀ n : Node, [n].countP isCandidate = n.isCandidate.toNat := by
    intro n
    rw [List.countP_singleton]
    cases n.isCandidate <;> rfl
  have hsites := (Site.root root).map_node_exprs
  rw [← countP_expressions isExpr_of_isCandidate, ← show _ = root.expressions from hsites, List.map_eq_flatMap,
    List.countP_flatMap]
  simp only [Function.comp_def, hone]

end Node

/-! ## Trees with nothing missing -/

/-- No condition and no body of an `if` is missing, as it is in every tree that is put together
properly. -/
def Node.Complete (root : Node) : Prop :=
  ∀ span cond body els, .ifThen span cond body els ∈ root.nodes → cond.isSome ∧ body.isSome

namespace Collapsible

theorem isSome_ifParts? {root : Node} (h : root.Complete) {s : Site} (hs : s.node ∈ root.nodes)
    {cond body els : Option Site} (hparts : s.ifParts? = some (cond, body, els)) : cond.isSome ∧ body.isSome := by
  obtain ⟨index, node⟩ := s
  cases node with
  | ifThen span c b e =>
    have hsome := h span c b e hs
    cases hparts
    rw [Site.partAt, Site.partAt, Option.isSome_map, Option.isSome_map]
    exact hsome
  | _ => cases hparts

theorem mem_nodes_of_ifParts? {s body : Site} {cond els : Option Site} (h : s.ifParts? = some (cond, some body, els)) :
    body.node ∈ s.node.nodes := by
  obtain ⟨index, node⟩ := s
  cases node with
  | ifThen span c b e =>
    cases b with
    | none => cases h
    | some b =>
      cases h
      have hb : b ∈ (Node.ifThen span c (some b) e).children :=
        List.mem_append_left _ (List.mem_append_right _ List.mem_cons_self)
      exact Node.mem_nodes_of_mem_children hb
  | _ => cases h

/-- In a tree with nothing missing nothing is missing to join two conditionals. -/
theorem not_lacks {root : Node} (h : root.Complete) {s : Site} (hs : s.node ∈ root.nodes) {n : NestedIf}
    (hn : nestedIf? s = some n) : ¬n.Lacks := by
  simp only [nestedIf?, Option.bind_eq_some_iff, Prod.exists] at hn
  obtain ⟨cond, _, els, hparts, body, rfl, stmt, inner, hsole, innerCond, content, innerEls, hinner, hn⟩ := hn
  have hbody : inner.node ∈ body.node.nodes := mem_nodes_of_soleExpr? (by rw [soleExpr?_eq, hsole]; rfl)
  have hmem := Node.mem_nodes_trans (Node.mem_nodes_trans hbody (mem_nodes_of_ifParts? hparts)) hs
  obtain ⟨hcond, -⟩ := isSome_ifParts? h hs hparts
  obtain ⟨hinnerCond, hcontent⟩ := isSome_ifParts? h hmem hinner
  split at hn
  · cases hn
    rintro (rfl | rfl | rfl)
    · cases hcond
    · cases hinnerCond
    · cases hcontent
  · cases hn

end Collapsible

/-! ## Other passes -/

namespace Pass

/-- The pass counts and reports nothing under a name. -/
structure Apart (p : Pass) (name : String) : Prop where
  lint : p.lint.name ≠ name
  told : ∀ source i site c, ∀ o ∈ Step.occurrences (p.handle p.lint source i site c).1, o.lint ≠ .text name
  finding : ∀ source i site c d, (p.handle p.lint source i site c).2 = .result (.diagnostic d) → d.lint.name ≠ name

variable {p : Pass} {name : String} (h : p.Apart name) (source : SourceText) (item : Option Site)
include h

theorem Apart.occurrences : ∀ o ∈ Session.occurrencesOf p source item, o.lint ≠ .text name := by
  have hname : Label.text p.lint.name ≠ .text name := fun heq => h.lint (Label.text.inj heq)
  intro o ho
  rw [Collapsible.occurrencesOf_eq, List.mem_append] at ho
  obtain ho | ho := ho
  · obtain ⟨step, hstep, htold⟩ := List.mem_filterMap.1 ho
    obtain hstep | ⟨n, rfl⟩ | ⟨i, c, hstep⟩ := Scheme.mem_trace hstep
    · obtain rfl := List.mem_singleton.1 hstep
      cases htold
      exact hname
    · cases htold
    · cases item with
      | none => cases hstep
      | some site => exact h.told source i site c o (List.mem_filterMap.2 ⟨step, hstep, htold⟩)
  · unfold Collapsible.failures at ho
    split at ho
    · cases ho
    · obtain rfl := List.mem_singleton.1 ho
      exact hname

theorem Apart.findings : ∀ d ∈ Session.findingsOf p source item, d.lint.name ≠ name := by
  intro d hd
  obtain ⟨f, hf, hdiagnostic⟩ := List.mem_filterMap.1 hd
  obtain ⟨i, c, hreply⟩ := Scheme.mem_results hf
  cases f with
  | value v => cases hdiagnostic
  | diagnostic d =>
    cases hdiagnostic
    cases item with
    | none => cases hreply
    | some site => exact h.finding source i site c d hreply

end Pass

/-! ## Books that add up -/

open Occurrence (guard?)

/-- How many of the findings are those of a lint. -/
def own (name : String) (ds : List Diagnostic) : Nat := ds.countP fun d => d.lint.name == name

theorem own_flatMap {α : Type} (name : String) (f : α → List Diagnostic) (as : List α) :
    own name (as.flatMap f) = (as.map fun a => own name (f a)).sum := List.countP_flatMap

/-- What is counted under a name adds up: with `nodes` offered, `found` found and `reported` reported,
every match was thrown away by a guard, or is a finding, or failed, which it does only if something is
missing. -/
structure Balance (name : String) (missing : Prop) (nodes found reported : Nat) (os : List Occurrence) : Prop where
  candidates : os.count (.candidate (.text name)) = nodes
  matched : os.count (.matched (.text name)) =
    (os.filterMap (guard? (.text name))).length + found + os.count (.failed (.text name))
  matched_le : os.count (.matched (.text name)) ≤ nodes
  reported : os.count (.reported (.text name)) = reported
  failed : ¬missing → os.count (.failed (.text name)) = 0

namespace Balance

variable {name : String} {missing : Prop} {nodes nodes' found found' reported reported' : Nat}
  {os os' : List Occurrence}

theorem nil : Balance name missing 0 0 0 [] := ⟨rfl, rfl, Nat.le_refl 0, rfl, fun _ => rfl⟩

theorem append (h : Balance name missing nodes found reported os)
    (h' : Balance name missing nodes' found' reported' os') :
    Balance name missing (nodes + nodes') (found + found') (reported + reported') (os ++ os') where
  candidates := by rw [List.count_append, h.candidates, h'.candidates]
  matched := by
    have := h.matched
    have := h'.matched
    simp only [List.count_append, List.filterMap_append, List.length_append]
    omega
  matched_le := by
    have := h.matched_le
    have := h'.matched_le
    rw [List.count_append]
    omega
  reported := by rw [List.count_append, h.reported, h'.reported]
  failed hmissing := by rw [List.count_append, h.failed hmissing, h'.failed hmissing]

theorem mono {more : Prop} (h : Balance name missing nodes found reported os) (hmore : missing → more) :
    Balance name more nodes found reported os :=
  { h with failed := fun hmissing => h.failed fun hm => hmissing (hmore hm) }

theorem flatMap {α : Type} {as : List α} {nodes found reported : α → Nat} {os : α → List Occurrence}
    (h : ∀ a ∈ as, Balance name missing (nodes a) (found a) (reported a) (os a)) :
    Balance name missing (as.map nodes).sum (as.map found).sum (as.map reported).sum (as.flatMap os) := by
  induction as with
  | nil => exact nil
  | cons a rest ih =>
    simp only [List.map_cons, List.sum_cons, List.flatMap_cons]
    exact (h a List.mem_cons_self).append (ih fun b hb => h b (List.mem_cons_of_mem a hb))

/-- What is counted under other names does not matter. -/
theorem of_apart (h : ∀ o ∈ os, o.lint ≠ .text name) : Balance name missing 0 0 0 os := by
  have hcount : ∀ o : Occurrence, o.lint = .text name → os.count o = 0 := fun o ho =>
    List.count_eq_zero.2 fun hmem => h o hmem ho
  have hguards : os.filterMap (guard? (.text name)) = [] := by
    rw [List.filterMap_eq_nil_iff]
    intro o ho
    cases o with
    | rejected lint guard => exact if_neg (h _ ho)
    | _ => rfl
  refine ⟨hcount _ rfl, ?_, ?_, hcount _ rfl, fun _ => hcount _ rfl⟩
  · rw [hcount _ rfl, hcount _ rfl, hguards]
    rfl
  · exact Nat.le_of_eq (hcount (.matched (.text name)) rfl)

/-- Findings that are reported are counted as reported, and as nothing else. -/
theorem reports (ds : List Diagnostic) :
    Balance name missing 0 0 (own name ds) (ds.map fun d => .reported (.text d.lint.name)) := by
  induction ds with
  | nil => exact nil
  | cons d rest ih =>
    have hone : Balance name missing 0 0 (own name [d]) [.reported (.text d.lint.name)] := by
      refine ⟨rfl, rfl, Nat.le_refl 0, ?_, fun _ => rfl⟩
      rw [List.count_singleton, own, List.countP_singleton]
      simp
    have hsplit : own name ([d] ++ rest) = own name [d] + own name rest := List.countP_append
    rw [← List.singleton_append, hsplit]
    exact hone.append ih

/-- The books of a node. -/
theorem of_fate {offered : Bool} {ds : List Diagnostic} (h : Collapsible.Fate name missing offered os ds) :
    Balance name missing offered.toNat (own name ds) 0 os := by
  cases h with
  | skipped => exact nil
  | unmatched => exact ⟨by simp, by simp [own, List.filterMap, guard?], by simp, by simp, by simp⟩
  | rejected guard => exact ⟨by simp, by simp [own, List.filterMap, guard?], by simp, by simp, by simp⟩
  | reported d hd => exact ⟨by simp, by simp [own, List.filterMap, guard?, hd], by simp, by simp, by simp⟩
  | failed hm =>
    exact ⟨by simp, by simp [own, List.filterMap, guard?], by simp, by simp, fun hmissing => absurd hm hmissing⟩

end Balance

/-! ## Sessions -/

namespace Session

open Collapsible (lint)

/-- The pass at a level is the pass with its lint at this level. -/
theorem atLevel_collapsibleIf (level : Option Level) :
    ∃ l : Lint, l.name = lint.name ∧ collapsibleIf.atLevel level = { collapsibleIf with lint := l } := by
  cases level with
  | none => exact ⟨lint, rfl, rfl⟩
  | some level => exact ⟨lint.withLevel level, rfl, rfl⟩

variable {before after : List Pass}

/-- The books of all passes on a node. -/
theorem balance_site (hothers : ∀ p ∈ before ++ after, p.Apart lint.name) (level : Option Level) (source : SourceText)
    (s : Site) :
    let passes := before ++ collapsibleIf.atLevel level :: after
    Balance lint.name (∃ n, Collapsible.nestedIf? s = some n ∧ n.Lacks) s.node.isCandidate.toNat
      (own lint.name (passes.flatMap fun p => findingsOf p source (some s))) 0
      (passes.flatMap fun p => occurrencesOf p source (some s)) := by
  intro passes
  have hapart : ∀ ps ⊆ before ++ after, own lint.name (ps.flatMap fun p => findingsOf p source (some s)) = 0 ∧
      ∀ {missing}, Balance lint.name missing 0 0 0 (ps.flatMap fun p => occurrencesOf p source (some s)) := by
    intro ps hps
    refine ⟨List.countP_eq_zero.2 fun d hd => ?_, Balance.of_apart fun o ho => ?_⟩
    · obtain ⟨p, hp, hd⟩ := List.mem_flatMap.1 hd
      simpa using (hothers p (hps hp)).findings source (some s) d hd
    · obtain ⟨p, hp, ho⟩ := List.mem_flatMap.1 ho
      exact (hothers p (hps hp)).occurrences source (some s) o ho
  obtain ⟨hbefore, hbeforeBooks⟩ := hapart before (List.subset_append_left before after)
  obtain ⟨hafter, hafterBooks⟩ := hapart after (List.subset_append_right before after)
  obtain ⟨l, hl, hpass⟩ := atLevel_collapsibleIf level
  have hown := Balance.of_fate (Collapsible.fate_collapsibleIf source l s)
  rw [hl, ← hpass] at hown
  have hall := hbeforeBooks.append (hown.append hafterBooks)
  have hfound : own lint.name (passes.flatMap fun p => findingsOf p source (some s)) =
      own lint.name (findingsOf (collapsibleIf.atLevel level) source (some s)) := by
    simp only [own] at hbefore hafter ⊢
    rw [List.flatMap_append, List.flatMap_cons, List.countP_append, List.countP_append, hbefore, hafter, Nat.zero_add,
      Nat.add_zero]
  rw [hfound, List.flatMap_append, List.flatMap_cons]
  simpa only [Nat.zero_add, Nat.add_zero] using hall

/-- The books of a check. -/
theorem balance_check (hothers : ∀ p ∈ before ++ after, p.Apart lint.name) (level : Option Level)
    (context : Context) (root : Node) (source : SourceText) (sink : Sink) :
    let passes := before ++ collapsibleIf.atLevel level :: after
    let result := check passes context root source sink
    Balance lint.name (¬root.Complete) (root.nodes.countP Node.isCandidate) (own lint.name result.1)
      (own lint.name result.1) result.2.occurrences := by
  intro passes result
  have hsite : ∀ s ∈ (Site.root root).exprs, Balance lint.name (¬root.Complete) s.node.isCandidate.toNat
      (own lint.name (passes.flatMap fun p => findingsOf p source (some s))) 0
      (passes.flatMap fun p => occurrencesOf p source (some s)) := by
    intro s hs
    have hmem : s.node ∈ (Site.root root).exprs.map Site.node := List.mem_map_of_mem hs
    rw [Site.map_node_exprs] at hmem
    refine (balance_site hothers level source s).mono ?_
    rintro ⟨n, hn, hlacks⟩ hcomplete
    exact Collapsible.not_lacks hcomplete (Node.mem_nodes_of_mem_expressions hmem) hn hlacks
  have hall := (Balance.flatMap hsite).append (Balance.reports result.1)
  have hfound : own lint.name result.1 = ((Site.root root).exprs.map fun s =>
      own lint.name (passes.flatMap fun p => findingsOf p source (some s))).sum := by
    rw [show result.1 = _ from findings_check .., own_flatMap]
  rw [← hfound] at hall
  rw [Node.countP_isCandidate, show result.2.occurrences = _ from occurrences_check ..]
  simpa using hall

/-- A file to check: its tree, its text, and where its findings go. -/
structure Visit where
  root : Node
  source : SourceText
  sink : Sink

/-- What a check of a file gives. -/
abbrev Checked : Type := List Diagnostic × Progress

/-- Check one file after the other, each in the context that the one before it leaves. -/
def checkAll (passes : List Pass) : Context → List Visit → List Checked
  | _, [] => []
  | context, v :: rest =>
    let run := check passes context v.root v.source v.sink
    run :: checkAll passes run.2.context rest

/-- A check hands on what its examination finds: every finding is counted once and goes to the sink
once, in the order in which it is returned, and nothing else does. -/
def HandsOn (passes : List Pass) (v : Visit) (run : Checked) : Prop :=
  ∃ context, let (found, examined) := examine passes context v.root v.source
    let entry : Note → Entry := fun n => ⟨n, examined.context.current⟩
    run.1 = found ∧
      run.2.occurrences = examined.occurrences ++ found.map (fun d => .reported (.text d.lint.name)) ∧
      run.2.entries = examined.entries ++ (found.flatMap v.sink).map entry ++ [entry (closing passes v.source found)]

theorem handsOn_checkAll (passes : List Pass) (context : Context) (visits : List Visit) :
    List.Forall₂ (HandsOn passes) visits (checkAll passes context visits) := by
  induction visits generalizing context with
  | nil => exact .nil
  | cons v rest ih =>
    refine .cons ⟨context, rfl, ?_, ?_⟩ (ih _)
    · rw [check_eq]
      rfl
    · rw [check_eq, List.map_append, ← List.append_assoc]
      rfl

theorem balance_checkAll (hothers : ∀ p ∈ before ++ after, p.Apart lint.name) (level : Option Level)
    (context : Context) (visits : List Visit) :
    let runs := checkAll (before ++ collapsibleIf.atLevel level :: after) context visits
    let found := own lint.name (runs.flatMap Prod.fst)
    Balance lint.name (¬∀ v ∈ visits, v.root.Complete) (visits.map fun v => v.root.nodes.countP Node.isCandidate).sum
      found found (runs.flatMap fun run => run.2.occurrences) := by
  induction visits generalizing context with
  | nil => exact Balance.nil
  | cons v rest ih =>
    intro runs found
    have hfirst := balance_check hothers level context v.root v.source v.sink
    have hrest := ih (check (before ++ collapsibleIf.atLevel level :: after) context v.root v.source v.sink).2.context
    obtain ⟨hone, hmore⟩ : ((∀ w ∈ v :: rest, w.root.Complete) → v.root.Complete) ∧
        ((∀ w ∈ v :: rest, w.root.Complete) → ∀ w ∈ rest, w.root.Complete) :=
      ⟨fun h => h v List.mem_cons_self, fun h w hw => h w (List.mem_cons_of_mem v hw)⟩
    have hall := (hfirst.mono (mt hone)).append (hrest.mono (mt hmore))
    have hfound : found = _ + _ := List.countP_append
    rw [hfound]
    exact hall

/-- However many files are checked, whatever other passes do under other names, the counts of the lint
add up. The candidates are the conditionals whose place is in the text itself. Every match was thrown
away by a guard, was reported, or failed, and there is no failure unless the condition or the body of an
`if` is missing. What is reported is what is returned and what goes to the sinks, in order. Every count
is the number of occurrences that it counts. -/
theorem checkAll_balanced (hothers : ∀ p ∈ before ++ after, p.Apart lint.name) (level : Option Level)
    (context : Context) (visits : List Visit) :
    let passes := before ++ collapsibleIf.atLevel level :: after
    let runs := checkAll passes context visits
    let events := runs.flatMap fun run => run.2.occurrences
    let stats := ({} : Statistics).recordAll events
    let name := Label.text lint.name
    let nodes : Nat := (visits.map fun v => v.root.nodes.countP Node.isCandidate).sum
    ∃ matched rejected reported failed : Nat,
      stats.candidates.count name = .int nodes ∧ stats.matchCount name = .int matched ∧
        stats.rejectionTotal name = .ok (.int rejected) ∧ stats.reportCount name = .int reported ∧
        stats.failed.count name = .int failed ∧
      matched = rejected + reported + failed ∧ matched ≤ nodes ∧
      ((∀ v ∈ visits, v.root.Complete) → failed = 0) ∧
      reported = own lint.name (runs.flatMap Prod.fst) ∧
      List.Forall₂ (HandsOn passes) visits runs ∧ stats.Counts events := by
  intro passes runs events stats name nodes
  have hcounts : stats.Counts events := Statistics.counts_recordAll events
  obtain ⟨hcandidates, hmatched, -, hrejected, hreported, hfailed⟩ := hcounts.counts lint.name
  have hbalance := balance_checkAll hothers level context visits
  rw [hbalance.candidates] at hcandidates
  -- the four numbers are those of the occurrences themselves
  refine ⟨_, _, _, _, hcandidates, hmatched, hrejected, hreported, hfailed, ?_, hbalance.matched_le, ?_,
    hbalance.reported, handsOn_checkAll passes context visits, hcounts⟩
  · rw [hbalance.reported]
    exact hbalance.matched
  · exact fun hcomplete => hbalance.failed fun hmissing => hmissing hcomplete

/-- A pass that fails on everything. -/
def failingPass : Pass where
  title := "Failing"
  lint := ⟨"failing", .warn, "nothing", "style"⟩
  patterns := []
  isCandidate := fun _ => .error (.raised "no")
  handle := fun _ _ _ _ _ => ([], .nothing)

/-- Beside a pass that fails on everything, the two conditionals of a text that is checked twice are
four candidates, there is no failure, and the books add up. -/
theorem checkAll_balanced_twice :
    let visits : List Visit := [⟨nestedTree, nestedText, .silent⟩, ⟨nestedTree, nestedText, .noting "found" none⟩]
    let runs := checkAll [failingPass, collapsibleIf.atLevel (some .deny)] {} visits
    let stats := ({} : Statistics).recordAll (runs.flatMap fun run => run.2.occurrences)
    let name := Label.text lint.name
    failingPass.Apart lint.name ∧ nestedTree.Complete ∧ ∃ matched rejected reported : Nat,
      stats.candidates.count name = .int 4 ∧ stats.matchCount name = .int matched ∧
        stats.rejectionTotal name = .ok (.int rejected) ∧ stats.reportCount name = .int reported ∧
        stats.failed.count name = .int 0 ∧
      matched = rejected + reported ∧ matched ≤ 4 := by
  intro visits runs stats name
  have hnodes : nestedTree.nodes.countP Node.isCandidate = 2 := by decide +kernel
  have hcomplete : nestedTree.Complete := by
    intro span cond body els hmem
    simp [nestedTree, Node.nodes_eq, Node.children] at hmem
    grind
  have hall : ∀ v ∈ visits, v.root.Complete := by
    intro v hv
    obtain rfl | rfl : v = ⟨nestedTree, nestedText, .silent⟩ ∨ v = ⟨nestedTree, nestedText, .noting "found" none⟩ := by
      simpa [visits] using hv
    · exact hcomplete
    · exact hcomplete
  have hapart : failingPass.Apart lint.name :=
    ⟨by decide, fun _ _ _ _ _ h => (by cases h), fun _ _ _ _ _ h => (by cases h)⟩
  have hothers : ∀ p ∈ [failingPass] ++ [], p.Apart lint.name := by
    intro p hp
    rw [List.mem_singleton.1 hp]
    exact hapart
  have hsum : (visits.map fun v => v.root.nodes.countP Node.isCandidate).sum = 4 := by simp [visits, hnodes]
  obtain ⟨matched, rejected, reported, failed, hcandidates, hmatched, hrejected, hreported, hfailed, hbooks, hle,
    hnone, -⟩ := checkAll_balanced hothers (some .deny) {} visits
  obtain rfl := hnone hall
  rw [hsum] at hcandidates hle
  exact ⟨hapart, hcomplete, matched, rejected, reported, hcandidates, hmatched, hrejected, hreported, hfailed, hbooks,
    hle⟩

end Session

end NestLint
