import NestLint.Proofs.Lint.Reports

/-!
# What a suggestion copies, and how it is rated

The text that a suggestion puts in is copied from other places of the file: from both conditions and the
inner body where two `if`s are joined, from the nested conditional where it takes over an `else`. Such a
copy is exact if its span can be read and no macro wrote it.

The suggestions are those of `check_collapsible_no_if_let` and `check_collapsible_else_if`, and the
rating is an `Applicability`.

* `Collapses`: a finding on a conditional, with what it copies;
* `mem_reports`: all findings on a tree are of this kind;
* `rating_of_mem_check`: when the rating says that all copies are exact, and when they are.
-/

namespace NestLint

namespace SourceText

/-- The text under the span is what its author wrote there. -/
def Exact (source : SourceText) (span : Span) : Prop := source.readable span ∧ span.fromExpansion = false

instance (source : SourceText) (span : Span) : Decidable (source.Exact span) :=
  inferInstanceAs (Decidable (_ ∧ _))

/-- The accessor that keeps track of the rating keeps the highest one exactly for an exact copy. -/
theorem snd_ratedSnippetBlock_eq_machineApplicable (source : SourceText) (span : Span) (default : String) :
    (source.ratedSnippetBlock span default .machineApplicable).2 = .machineApplicable ↔ source.Exact span := by
  have hdegraded (rating : Applicability) : rating.degrade .unspecified ≠ .machineApplicable := by
    cases rating <;> decide
  rw [ratedSnippetBlock, ratedSnippet, snippet?, Exact]
  by_cases hread : source.readable span
  · cases hinvoked : span.fromExpansion
    · simp [hread]
    · simp [hread, Applicability.degrade, Applicability.rank]
  · simp only [if_neg hread]
    exact ⟨fun h => absurd h (hdegraded _), fun h => absurd h.1 hread⟩

end SourceText

namespace Collapsible

/-- The finding `d` on a conditional copies the texts of `conditions` and the block of lines `body`. -/
inductive Collapses (source : SourceText) : Node → Diagnostic → List Node → Node → Prop where
  | join {span innerSpan : Span} {cond block innerCond body : Node} {d : Diagnostic} :
    soleExpr? block = some (.ifThen innerSpan (some innerCond) (some body) none) →
    joinFinding? source span innerSpan cond block innerCond body = some d →
    Collapses source (.ifThen span (some cond) (some block) none) d [cond, innerCond] body
  | orElse {e block nested : Node} {d : Diagnostic} :
    elseOf? e = some block → soleExpr? block = some nested → nested.isConditional →
    elseFinding? source block nested = some d → Collapses source e d [] nested

theorem joinReport?_eq_some {source : SourceText} {e : Node} {d : Diagnostic} :
    joinReport? source e = some d ↔ ∃ cond innerCond body, Collapses source e d [cond, innerCond] body := by
  constructor
  · intro h
    unfold joinReport? at h
    split at h
    · split at h
      · rename_i hsole
        exact ⟨_, _, _, .join hsole h⟩
      · cases h
    · cases h
  · rintro ⟨cond, innerCond, body, hsole, h⟩
    simp only [joinReport?, hsole]
    exact h

theorem elseReport?_eq_some {source : SourceText} {e : Node} {d : Diagnostic} :
    elseReport? source e = some d ↔ ∃ nested, Collapses source e d [] nested := by
  rw [elseReport?]
  constructor
  · intro h
    obtain ⟨block, hblock, h⟩ := Option.bind_eq_some_iff.1 h
    obtain ⟨nested, hnested, h⟩ := Option.bind_eq_some_iff.1 h
    split at h
    · rename_i hcond
      exact ⟨nested, .orElse hblock hnested hcond h⟩
    · cases h
  · rintro ⟨nested, h⟩
    cases h with
    | orElse hblock hnested hcond h =>
      rw [hblock, Option.bind_some, hnested, Option.bind_some, if_pos hcond]
      exact h

/-- All findings are on a conditional that no macro wrote and of one of the two forms. -/
theorem mem_reports {source : SourceText} {root : Node} {d : Diagnostic} :
    d ∈ reports source root ↔
      ∃ e ∈ root.expressions, e.span.fromExpansion = false ∧
        ∃ conditions body, Collapses source e d conditions body := by
  rw [reports, List.mem_flatMap]
  refine exists_congr fun e => and_congr_right fun _ => ?_
  rw [reportsOn]
  cases hinvoked : e.span.fromExpansion with
  | true => simp
  | false =>
    simp only [Bool.false_eq_true, if_false, List.mem_append, Option.mem_toList, true_and]
    rw [joinReport?_eq_some, elseReport?_eq_some]
    constructor
    · rintro (⟨cond, innerCond, body, h⟩ | ⟨nested, h⟩)
      · exact ⟨_, body, h⟩
      · exact ⟨_, nested, h⟩
    · rintro ⟨conditions, body, h⟩
      cases h with
      | join hsole h => exact .inl ⟨_, _, _, .join hsole h⟩
      | orElse hblock hnested hcond h => exact .inr ⟨_, .orElse hblock hnested hcond h⟩

/-! ## Suggestions -/

/-- The finding suggests to put the text `replacement` at the place `span`. -/
def Suggests (d : Diagnostic) (span : Span) (replacement : String) (rating : Applicability) : Prop :=
  d.suggestion = some ⟨span, replacement, rating, "try"⟩

theorem joinFinding?_eq_some {source : SourceText} {span innerSpan : Span} {cond block innerCond body : Node}
    {d : Diagnostic} (h : joinFinding? source span innerSpan cond block innerCond body = some d) :
    span.sameOrigin innerSpan ∧
      Suggests d span
        ("if " ++ ((Operand.ofNode source cond "..").and (Operand.ofNode source innerCond "..")).text ++ " " ++
          source.snippetBlock body.span "..") .machineApplicable := by
  by_cases hguard : startsWithComment source block.span || !span.sameOrigin innerSpan
  · rw [joinFinding?_of_guard hguard] at h
    cases h
  · rw [joinFinding?_of_not_guard hguard] at h
    cases h
    rw [Bool.or_eq_true, not_or, Bool.not_eq_true', Bool.not_eq_false] at hguard
    exact ⟨hguard.2, rfl⟩

theorem elseFinding?_eq_some {source : SourceText} {block nested : Node} {d : Diagnostic}
    (h : elseFinding? source block nested = some d) :
    nested.span.fromExpansion = false ∧
      Suggests d block.span (source.snippetBlock nested.span "..")
        (if source.readable nested.span then .machineApplicable else .unspecified) := by
  by_cases hguard : startsWithComment source block.span || nested.span.fromExpansion
  · rw [elseFinding?_of_guard hguard] at h
    cases h
  · rw [elseFinding?_of_not_guard hguard] at h
    cases h
    rw [Bool.or_eq_true, not_or] at hguard
    exact ⟨Bool.not_eq_true _ ▸ hguard.2, rfl⟩

/-! ## Ratings -/

/-- The suggestion of the finding is rated as safe to apply without anyone looking at it. -/
def Vouched (d : Diagnostic) : Prop := ∃ s, d.suggestion = some s ∧ s.applicability = .machineApplicable

theorem vouched_iff_of_suggests {d : Diagnostic} {span : Span} {replacement : String} {rating : Applicability}
    (h : Suggests d span replacement rating) : Vouched d ↔ rating = .machineApplicable := by
  constructor
  · rintro ⟨s, hs, hrating⟩
    rw [Suggests, hs, Option.some.injEq] at h
    rw [h] at hrating
    exact hrating
  · exact fun hrating => ⟨_, h, hrating⟩

/-- Where conditions are copied, nobody asks where they come from. -/
theorem Collapses.vouched_iff {source : SourceText} {e body : Node} {d : Diagnostic} {conditions : List Node}
    (h : Collapses source e d conditions body) : Vouched d ↔ conditions ≠ [] ∨ source.Exact body.span := by
  cases h with
  | join hsole h => simp [vouched_iff_of_suggests (joinFinding?_eq_some h).2]
  | orElse hblock hnested hcond h =>
    obtain ⟨hroot, hsuggests⟩ := elseFinding?_eq_some h
    rw [vouched_iff_of_suggests hsuggests, ← source.snd_ratedSnippetBlock_eq_machineApplicable body.span "..",
      ratedSnippetBlock_of_root hroot]
    exact (or_iff_right fun h => h rfl).symm

/-- On every tree and for every text, a finding that is rated as safe copies exact text only, if it takes over
an `else`. One that joins two `if`s is always rated as safe, so the rating can be trusted exactly if all that it
copies happens to be exact. -/
theorem rating_of_mem_check {context : Context} {root : Node} {source : SourceText} {sink : Session.Sink}
    {d : Diagnostic} (h : d ∈ (Session.check [collapsibleIf] context root source sink).1) :
    ∃ e ∈ root.expressions, ∃ conditions body, Collapses source e d conditions body ∧
      (Vouched d ↔ conditions ≠ [] ∨ source.Exact body.span) ∧
      ((Vouched d → ∀ n ∈ body :: conditions, source.Exact n.span) ↔
        conditions = [] ∨ ∀ n ∈ body :: conditions, source.Exact n.span) := by
  rw [findings_collapsibleIf, mem_reports] at h
  obtain ⟨e, he, -, conditions, body, h⟩ := h
  refine ⟨e, he, conditions, body, h, h.vouched_iff, ?_⟩
  rw [h.vouched_iff]
  cases conditions with
  | nil => simp
  | cons cond conditions => simp

/-- The finding on `else` in `if x {} else { if y {} }`. -/
theorem rating_of_mem_check_else :
    let text := "if x {} else { if y {} }"
    let nested : Node :=
      .ifThen ⟨15, 22, .root⟩ (some (.path ⟨18, 19, .root⟩ ["y"])) (some (.block ⟨20, 22, .root⟩ [])) none
    let root : Node := .ifThen ⟨0, 24, .root⟩ (some (.path ⟨3, 4, .root⟩ ["x"])) (some (.block ⟨5, 7, .root⟩ []))
      (some (.block ⟨13, 24, .root⟩ [.stmt ⟨15, 22, .root⟩ .expr nested]))
    let source : SourceText := { text }
    let d : Diagnostic := ⟨lint, ⟨13, 24, .root⟩, "this `else { if .. }` block can be collapsed",
      some ⟨⟨13, 24, .root⟩, "if y {}", .machineApplicable, "try"⟩⟩
    d ∈ (Session.check [collapsibleIf] [] root source .silent).1 ∧
    ∃ e ∈ root.expressions, ∃ conditions body, Collapses source e d conditions body ∧
      (Vouched d ↔ conditions ≠ [] ∨ source.Exact body.span) ∧
      ((Vouched d → ∀ n ∈ body :: conditions, source.Exact n.span) ↔
        conditions = [] ∨ ∀ n ∈ body :: conditions, source.Exact n.span) := by
  intro text nested root source d
  have hmem : d ∈ (Session.check [collapsibleIf] [] root source .silent).1 := by
    rw [findings_collapsibleIf]
    decide +kernel
  exact ⟨hmem, rating_of_mem_check hmem⟩

/-- In `if m!(x || y) { if z {} }` the condition is from the body of the macro, and what is put in no longer
invokes the macro. Still the suggestion is rated as safe. -/
theorem vouched_of_invoked_condition :
    let text := "if m!(x || y) { if z {} }"
    let cond : Node := .binary ⟨6, 12, ⟨1, some "m"⟩⟩ .or (.path ⟨6, 7, ⟨1, some "m"⟩⟩ ["x"])
      (.path ⟨11, 12, ⟨1, some "m"⟩⟩ ["y"])
    let innerCond : Node := .path ⟨19, 20, .root⟩ ["z"]
    let body : Node := .block ⟨21, 23, .root⟩ []
    let root : Node := .ifThen ⟨0, 25, .root⟩ (some cond)
      (some (.block ⟨14, 25, .root⟩ [.stmt ⟨16, 23, .root⟩ .expr
        (.ifThen ⟨16, 23, .root⟩ (some innerCond) (some body) none)])) none
    let source : SourceText := { text }
    let d : Diagnostic := ⟨lint, ⟨0, 25, .root⟩, "this `if` statement can be collapsed",
      some ⟨⟨0, 25, .root⟩, "if (x || y) && z {}", .machineApplicable, "try"⟩⟩
    (Session.check [collapsibleIf] [] root source .silent).1 = [d] ∧ Collapses source root d [cond, innerCond] body ∧
      Vouched d ∧ ¬source.Exact cond.span := by
  intro text cond innerCond body root source d
  refine ⟨?_, .join rfl (by decide +kernel), ⟨_, rfl, rfl⟩, by decide +kernel⟩
  rw [findings_collapsibleIf]
  decide +kernel

end Collapsible

end NestLint
