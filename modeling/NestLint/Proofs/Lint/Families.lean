import NestLint.Proofs.Lint.Collapses
import NestLint.Proofs.Tree.Spans

/-!
# Suggestions on one tree

A suggestion is for a conditional or for its `else`, and a conditional has one at most. The walk goes from inside
to outside, and an `else` is the last part of its conditional, so on a tree whose spans nest no suggestion cuts
through another one, and an outer one comes after those inside it. The suggestions can be applied in their order.

The suggestions are those of one `Matcher.match_tree` with `CollapsibleIf`.

* `placed_of_mem_reportsOn`: where the suggestion on a conditional is;
* `Ordered`, `ordered_parts`, `ordered_outer`: how two suggestions lie to each other, by the relation of their
  conditionals;
* `suggestions_nest`: all suggestions of one run.
-/

namespace NestLint

namespace Collapsible

/-- The suggestion is for all of the expression, or for the last of its parts. -/
def Placed (e : Node) (s : Suggestion) : Prop :=
  s.span = e.span ∨ ∃ front block, e.children = front ++ [block] ∧ s.span = block.span

/-- An `else` is the last part of a conditional. -/
theorem children_of_elseOf? {e block : Node} (h : elseOf? e = some block) :
    ∃ front, e.children = front ++ [block] := by
  cases e with
  | ifThen span cond body els =>
    obtain rfl : els = some block := h
    exact ⟨_, rfl⟩
  | ifLet span pat scrutinee body els =>
    obtain rfl : els = some block := h
    exact ⟨_, rfl⟩
  | _ => cases h

theorem Collapses.placed {source : SourceText} {e body : Node} {d : Diagnostic} {conditions : List Node}
    (h : Collapses source e d conditions body) : ∃ s, d.suggestion = some s ∧ Placed e s := by
  cases h with
  | join hsole h => exact ⟨_, (joinFinding?_eq_some h).2, .inl rfl⟩
  | orElse hblock hnested hcond h =>
    obtain ⟨front, hchildren⟩ := children_of_elseOf? hblock
    exact ⟨_, (elseFinding?_eq_some h).2, .inr ⟨front, _, hchildren, rfl⟩⟩

theorem placed_of_mem_reportsOn {source : SourceText} {e : Node} {d : Diagnostic} (h : d ∈ reportsOn source e) :
    ∃ s, d.suggestion = some s ∧ Placed e s := by
  rw [reportsOn] at h
  split at h
  · cases h
  · rw [List.mem_append, Option.mem_toList, Option.mem_toList] at h
    obtain h | h := h
    · obtain ⟨_, _, _, h⟩ := joinReport?_eq_some.1 h
      exact h.placed
    · obtain ⟨_, h⟩ := elseReport?_eq_some.1 h
      exact h.placed

/-- Two `if`s are joined only where there is no `else` to be taken over. -/
theorem elseReport?_of_joinReport? {source : SourceText} {e : Node} {d : Diagnostic}
    (h : joinReport? source e = some d) : elseReport? source e = none := by
  obtain ⟨_, _, _, h⟩ := joinReport?_eq_some.1 h
  cases h
  rfl

theorem length_reportsOn (source : SourceText) (e : Node) : (reportsOn source e).length ≤ 1 := by
  rw [reportsOn]
  split
  · exact Nat.zero_le _
  · cases hjoin : joinReport? source e with
    | none => cases elseReport? source e <;> simp
    | some d => simp [elseReport?_of_joinReport? hjoin]

/-- The suggestion of the first finding comes before that of the second: they have nothing in common, or the first
is within the second. In no case has the second one text inside the first one. -/
def Ordered (apart : Span → Span → Prop) (d d' : Diagnostic) : Prop :=
  ∀ s ∈ d.suggestion, ∀ s' ∈ d'.suggestion,
    (apart s.span s'.span ∨ s.span.Within s'.span) ∧ ¬s'.span.Inside s.span

section

variable {apart : Span → Span → Prop} {source : SourceText}

/-- A suggestion is within the expression it is on. -/
theorem Placed.within {e root : Node} {s : Suggestion} (h : Placed e s) (hnests : root.Nests apart)
    (he : e ∈ root.nodes) : s.span.Within e.span := by
  obtain h | ⟨front, block, hchildren, h⟩ := h
  · rw [h]
    exact .refl _
  · rw [h]
    exact hnests.within e he block (hchildren ▸ List.mem_append_right front (.head _))

/-- A suggestion is within every part that the expression it is on is below. -/
theorem Placed.within_part {root c e : Node} {s : Suggestion} (h : Placed e s) (hnests : root.Nests apart)
    (hc : c ∈ root.nodes) (he : e ∈ c.nodes) : s.span.Within c.span :=
  (h.within hnests (Node.mem_nodes_trans he hc)).trans (Node.span_within_of_mem_nodes (hnests.below hc).within he)

theorem ordered_of_apart (hs : Span.Separation apart) {s s' : Suggestion} (h : apart s.span s'.span) :
    (apart s.span s'.span ∨ s.span.Within s'.span) ∧ ¬s'.span.Inside s.span :=
  ⟨.inl h, hs.not_inside h⟩

theorem ordered_of_within {s s' : Suggestion} (h : s.span.Within s'.span) :
    (apart s.span s'.span ∨ s.span.Within s'.span) ∧ ¬s'.span.Inside s.span :=
  ⟨.inr h, fun hinside => hinside.2.2 h⟩

/-- Suggestions in two parts of a node have nothing in common. -/
theorem ordered_parts (hs : Span.Separation apart) {root c c' e e' : Node} (hnests : root.Nests apart)
    (hc : c ∈ root.nodes) (hc' : c' ∈ root.nodes) (h : apart c.span c'.span) (he : e ∈ c.nodes) (he' : e' ∈ c'.nodes)
    {d d' : Diagnostic} (hd : d ∈ reportsOn source e) (hd' : d' ∈ reportsOn source e') : Ordered apart d d' := by
  obtain ⟨s, hsome, hplaced⟩ := placed_of_mem_reportsOn hd
  obtain ⟨s', hsome', hplaced'⟩ := placed_of_mem_reportsOn hd'
  rintro t ht t' ht'
  obtain rfl := Option.some.inj (hsome.symm.trans ht)
  obtain rfl := Option.some.inj (hsome'.symm.trans ht')
  exact ordered_of_apart hs
    (hs.parts h (hplaced.within_part hnests hc he) (hplaced'.within_part hnests hc' he'))

/-- A suggestion below a conditional is within that for the conditional. It is within one for the `else`, or it is
in one of the parts in front of the `else`. -/
theorem ordered_outer (hs : Span.Separation apart) {root n c e : Node} (hnests : root.Nests apart)
    (hn : n ∈ root.nodes) (hc : c ∈ n.children) (he : e ∈ c.nodes) {d d' : Diagnostic}
    (hd : d ∈ reportsOn source e) (hd' : d' ∈ reportsOn source n) : Ordered apart d d' := by
  obtain ⟨s, hsome, hplaced⟩ := placed_of_mem_reportsOn hd
  obtain ⟨s', hsome', hplaced'⟩ := placed_of_mem_reportsOn hd'
  have hinner : s.span.Within c.span :=
    hplaced.within_part hnests (Node.mem_nodes_trans (Node.mem_nodes_of_mem_children hc) hn) he
  rintro t ht t' ht'
  obtain rfl := Option.some.inj (hsome.symm.trans ht)
  obtain rfl := Option.some.inj (hsome'.symm.trans ht')
  obtain hwhole | ⟨front, block, hchildren, hlast⟩ := hplaced'
  · exact ordered_of_within (hwhole ▸ hinner.trans (hnests.within n hn c hc))
  · have hsiblings := hnests.apart n hn
    rw [hchildren] at hc hsiblings
    obtain hfront | hblock := List.mem_append.1 hc
    · have hapart := (List.pairwise_append.1 hsiblings).2.2 c hfront block (.head _)
      exact ordered_of_apart hs (hs.parts hapart hinner (hlast ▸ .refl _))
    · rw [List.mem_singleton.1 hblock] at hinner
      exact ordered_of_within (hlast ▸ hinner)

theorem pairwise_reports (hs : Span.Separation apart) {root : Node} (hnests : root.Nests apart) :
    (reports source root).Pairwise (Ordered apart) := by
  have below {n c : Node} (hn : n ∈ root.nodes) (hc : c ∈ n.children) : c ∈ root.nodes :=
    Node.mem_nodes_trans (Node.mem_nodes_of_mem_children hc) hn
  rw [reports, List.pairwise_flatMap]
  refine ⟨fun e _ => ?_, Node.pairwise_expressions root (fun n hn => ?_) fun n hn c hc e he d hd d' hd' => ?_⟩
  · have hlength := length_reportsOn source e
    cases hlist : reportsOn source e with
    | nil => exact .nil
    | cons d rest =>
      rw [hlist, List.length_cons] at hlength
      obtain rfl : rest = [] := List.length_eq_zero_iff.1 (by omega)
      exact List.pairwise_singleton ..
  · refine List.Pairwise.imp_of_mem (fun hc hc' h e he e' he' d hd d' hd' => ?_) (hnests.apart n hn)
    exact ordered_parts hs hnests (below hn hc) (below hn hc') h he he' hd hd'
  · exact ordered_outer hs hnests hn hc he hd hd'

end

/-- On every tree whose spans nest and for every text, all findings of one run come with a suggestion, and of two
suggestions the earlier one is within the later one or has nothing in common with it; a suggestion never comes
after one that it has text inside of. Parts of a node have nothing in common if they share no character, or, to
tell also where empty spans lie, if one of them ends before the other begins. -/
theorem suggestions_nest (context : Context) (root : Node) (source : SourceText) (sink : Session.Sink) :
    let found := (Session.check [collapsibleIf] context root source sink).1
    (∀ d ∈ found, ∃ s, d.suggestion = some s) ∧
      (root.Nests Span.Disjoint → found.Pairwise (Ordered Span.Disjoint)) ∧
      (root.Nests Span.Apart → found.Pairwise (Ordered Span.Apart)) := by
  intro found
  have hfound : found = reports source root := findings_collapsibleIf context root source sink
  rw [hfound]
  refine ⟨fun d hd => ?_, pairwise_reports Span.separation_disjoint, pairwise_reports Span.separation_apart⟩
  obtain ⟨e, -, hd⟩ := List.mem_flatMap.1 hd
  obtain ⟨s, hsome, -⟩ := placed_of_mem_reportsOn hd
  exact ⟨s, hsome⟩

/-- In `if a {} else { if b { if c {} } }` the inner `if`s are joined first, and then the outer one takes over the
`else` around them. -/
theorem suggestions_nest_two :
    let body (lo hi : Int) (stmts : List Node) : Option Node := some (.block ⟨lo, hi, .root⟩ stmts)
    let name (lo hi : Int) (text : String) : Option Node := some (.path ⟨lo, hi, .root⟩ [text])
    let inner : Node := .ifThen ⟨22, 29, .root⟩ (name 25 26 "c") (body 27 29 []) none
    let middle : Node := .ifThen ⟨15, 31, .root⟩ (name 18 19 "b") (body 20 31 [.stmt ⟨22, 29, .root⟩ .expr inner]) none
    let root : Node := .ifThen ⟨0, 33, .root⟩ (name 3 4 "a") (body 5 7 [])
      (body 13 33 [.stmt ⟨15, 31, .root⟩ .expr middle])
    let source : SourceText := { text := "if a {} else { if b { if c {} } }" }
    let found := (Session.check [collapsibleIf] [] root source .silent).1
    root.Nests Span.Disjoint ∧ root.Nests Span.Apart ∧
      found.map (fun d => d.suggestion.map Suggestion.span) = [some ⟨15, 31, .root⟩, some ⟨13, 33, .root⟩] ∧
      found.Pairwise (Ordered Span.Disjoint) ∧ found.Pairwise (Ordered Span.Apart) := by
  intro body name inner middle root source found
  have hapart : root.Nests Span.Apart := by decide +kernel
  have hdisjoint : root.Nests Span.Disjoint := hapart.imp Span.Apart.disjoint
  have hspans : (reports source root).map (fun d => d.suggestion.map Suggestion.span) =
      [some ⟨15, 31, .root⟩, some ⟨13, 33, .root⟩] := by decide +kernel
  obtain ⟨-, horder, horder'⟩ := suggestions_nest [] root source .silent
  rw [← findings_collapsibleIf [] root source .silent] at hspans
  exact ⟨hdisjoint, hapart, hspans, horder hdisjoint, horder' hapart⟩

end Collapsible

end NestLint
