import NestLint.Proofs.Lint.Copies

/-!
# Words around a suggestion

A suggestion is put between the texts in front of its span and behind it. Where a character of a word stands on
both sides of such a seam, two words become one. Behind a suggestion that never happens, because it ends with a
brace or an operator. In front of one that joins two `if`s it does not happen either, since it stands where a
conditional stood. But one that takes over an `else` puts a keyword where a brace stood, and nothing keeps it
apart from the `else` in front.

What takes over an `else` is the suggestion of `check_collapsible_else_if`, what joins two `if`s that of
`check_collapsible_no_if_let`.

* `Suggestion.fusesBefore`, `Suggestion.fusesBehind`: the two seams;
* `seams_of_mem_check`: when two words become one;
* `fused_else`: an `else` that is lost.
-/

namespace NestLint

namespace Suggestion

/-- What the suggestion puts in goes on with a word in front of it. -/
def fusesBefore (s : Suggestion) (text : String) : Bool :=
  Text.fuses (Text.upTo text.toList s.span.lo) s.replacement.toList

/-- A word behind the suggestion goes on with what it puts in. -/
def fusesBehind (s : Suggestion) (text : String) : Bool :=
  Text.fuses s.replacement.toList (Text.onwards text.toList s.span.hi)

end Suggestion

namespace Text

/-- Only the first character of what stands behind a seam counts. -/
theorem fuses_congr {front back back' : List Char} (h : back.head? = back'.head?) :
    fuses front back = fuses front back' := by
  rw [fuses, fuses, h]

end Text

namespace Collapsible

open Reader

section Files

variable {parser : Parser} {opaqueMacros : List String} {text fileName : String} {start after : Progress}
  {parsed : ParsedSource} {context : Context} {sink : Session.Sink} {e body : Node} {d : Diagnostic}
  {conditions : List Node} {copied : List Char} {s : Suggestion}

/-- A suggestion ends as the body that it copies. -/
theorem Copies.closes {source : SourceText} (h : Copies source e d conditions body copied s) :
    Text.closesWord s.replacement.toList := by
  obtain ⟨front, hreplacement, -⟩ := h.replacement
  obtain ⟨init, c, hc, -⟩ := Text.endsSolid_iff.1 h.looks.ends
  have hlast : copied.getLast? = some c := by rw [hc, List.getLast?_concat]
  have hclosed := h.looks.closed (h.kind.imp_right And.right)
  rw [Text.closesWord, hlast] at hclosed
  rw [Text.closesWord, hreplacement, List.getLast?_append, Text.getLast?_reindentLines h.looks.ends, hlast]
  exact hclosed

/-- What joins two `if`s is put where no word goes on. -/
theorem closesWord_before_join (hparser : ∀ s block, parse parser s = .ok block → block.Legible s.body)
    (hstart : 1 ≤ start.nextOrigin) (hread : read parser opaqueMacros text fileName start = (.ok parsed, after))
    (he : e ∈ parsed.root.expressions) (hroot : e.span.fromExpansion = false)
    (h : Collapses parsed.source e d conditions body) (hconditions : conditions ≠ []) :
    Text.closesWord (Text.upTo text.toList e.span.lo) := by
  obtain ⟨hcond, nested, hnested, -, ⟨hnil, -⟩ | ⟨-, -, horigin⟩⟩ := h.inside
  · exact absurd hnil hconditions
  · have hsourced := sourced_of_mem_expressions hparser hstart hread he e.mem_nodes_self
      (Node.isPlaced_of_isConditional hcond)
    rw [Span.fromExpansion, Origin.isRoot, Bool.not_eq_false', beq_iff_eq] at hroot
    exact hsourced.closesWord_before hcond hroot hnested (horigin.trans hroot)

/-- In front of a suggestion, a word goes on exactly if one would with the text that takes over an `else`. -/
theorem Copies.fusesBefore_iff (hcopies : Copies parsed.source e d conditions body copied s)
    (hparser : ∀ s block, parse parser s = .ok block → block.Legible s.body)
    (hstart : 1 ≤ start.nextOrigin) (hread : read parser opaqueMacros text fileName start = (.ok parsed, after))
    (he : e ∈ parsed.root.expressions) (hroot : e.span.fromExpansion = false)
    (h : Collapses parsed.source e d conditions body) :
    s.fusesBefore text ↔ conditions = [] ∧ Text.fuses (Text.upTo text.toList s.span.lo) copied := by
  rw [Suggestion.fusesBefore]
  by_cases hconditions : conditions = []
  · obtain ⟨front, hreplacement, hfront⟩ := hcopies.replacement
    rw [hfront hconditions, List.nil_append] at hreplacement
    rw [hreplacement, Text.fuses_congr (Text.head?_reindentLines hcopies.looks.starts)]
    exact (and_iff_right hconditions).symm
  · have hbefore := closesWord_before_join hparser hstart hread he hroot h hconditions
    rw [hcopies.place hconditions, Text.not_fuses_of_closesWord hbefore]
    exact iff_of_false Bool.false_ne_true fun h => hconditions h.1

/-- Two words become one exactly where a conditional takes over an `else`, its text starts with a character of a
word, and such a character stands directly in front of the block. The text starts with `if`, unless all that is
inside the conditional is from a macro. -/
theorem seams_of_mem_check (hparser : ∀ s block, parse parser s = .ok block → block.Legible s.body)
    (hstart : 1 ≤ start.nextOrigin) (hread : read parser opaqueMacros text fileName start = (.ok parsed, after))
    (hd : d ∈ (Session.check [collapsibleIf] context parsed.root parsed.source sink).1) :
    ∃ e ∈ parsed.root.expressions, ∃ conditions body, Collapses parsed.source e d conditions body ∧
      ∃ s copied, d.suggestion = some s ∧ parsed.source.snippet? body.span = some (String.ofList copied) ∧
        s.fusesBehind text = false ∧
        (s.fusesBefore text ↔ conditions = [] ∧ Text.fuses (Text.upTo text.toList s.span.lo) copied) ∧
        (conditions = [] → "if".toList <+: copied ∨
          ∀ l ∈ body.children.flatMap Node.nodes, l.span.origin.id ≠ body.span.origin.id) := by
  rw [findings_collapsibleIf, mem_reports] at hd
  obtain ⟨e, he, hroot, conditions, body, h⟩ := hd
  obtain ⟨-, copied, s, hcopies⟩ := exists_copies hparser hstart hread he h
  refine ⟨e, he, conditions, body, h, s, copied, hcopies.suggestion, hcopies.text,
    Text.not_fuses_of_closesWord hcopies.closes _, ?_, fun hconditions => ?_⟩
  · exact hcopies.fusesBefore_iff hparser hstart hread he hroot h
  · exact hcopies.looks.leads (hcopies.kind.resolve_right fun h => h.1 hconditions)

end Files

end Collapsible

namespace Reader

open Concrete

/-! ## An `else` without a blank behind it -/

section Unspaced

/-- A conditional with a conditional in its `else`. -/
def unspacedText : String := "if x \x7b\x7d else\x7bif y \x7b\x7d\x7d"

/-- The statement in the block of the `else`. -/
def unspacedInner : Concrete := construct "expression_statement" 14 21 none [emptyIf 14]

/-- The block of the `else`. -/
def unspacedBlock : Concrete :=
  construct "block" 13 22 none [token "\x7b" 13 14, unspacedInner, token "\x7d" 21 22]

/-- The conditional. -/
def unspacedStmt : Concrete :=
  construct "expression_statement" 1 22 none
    [construct "if_expression" 1 22 none
      [token "if" 1 3, letterAt 4, emptyBody 6,
        construct "else_clause" 9 22 (some "alternative") [token "else" 9 13, unspacedBlock]]]

/-- The parser that knows that text. -/
def unspacedParser : Parser := knowing unspacedText 24 unspacedStmt

/-- The node of the nested conditional. -/
def unspacedInnerNode : Node :=
  .ifThen ⟨13, 20, .root⟩ (some (.path ⟨16, 17, .root⟩ ["y"])) (some (.block ⟨18, 20, .root⟩ [])) none

/-- The node of the block. -/
def unspacedBlockNode : Node := .block ⟨12, 21, .root⟩ [.stmt ⟨13, 20, .root⟩ .expr unspacedInnerNode]

/-- The node of the conditional. -/
def unspacedNode : Node :=
  .ifThen ⟨0, 21, .root⟩ (some (.path ⟨3, 4, .root⟩ ["x"])) (some (.block ⟨5, 7, .root⟩ [])) (some unspacedBlockNode)

/-- The node of the file. -/
def unspacedRoot : Node := .block ⟨0, 21, .root⟩ [.stmt ⟨0, 21, .root⟩ .expr unspacedNode]

theorem read_unspaced : read unspacedParser [] unspacedText "main.rs" {} =
    (.ok ⟨unspacedRoot, ⟨unspacedText, "main.rs"⟩⟩, {}) := by
  have hinnerBody : ReadsAs unspacedParser unspacedText (.block (emptyBody 19)) (.block ⟨18, 20, .root⟩ []) :=
    gives_of_parts rfl rfl gives_nil rfl
  have hinnerCond : ReadsAs unspacedParser unspacedText (.expr (letterAt 17)) (.path ⟨16, 17, .root⟩ ["y"]) :=
    gives_of_parts rfl rfl gives_nil rfl
  have hinner : ReadsAs unspacedParser unspacedText (.stmt unspacedInner)
      (.stmt ⟨13, 20, .root⟩ .expr unspacedInnerNode) :=
    gives_of_parts rfl rfl
      (gives_cons (gives_of_parts rfl rfl (gives_cons hinnerBody (gives_cons hinnerCond gives_nil)) rfl) gives_nil) rfl
  have hblock : ReadsAs unspacedParser unspacedText (.block unspacedBlock) unspacedBlockNode :=
    gives_of_parts rfl rfl (gives_cons hinner gives_nil) rfl
  have hbody : ReadsAs unspacedParser unspacedText (.block (emptyBody 6)) (.block ⟨5, 7, .root⟩ []) :=
    gives_of_parts rfl rfl gives_nil rfl
  have hcond : ReadsAs unspacedParser unspacedText (.expr (letterAt 4)) (.path ⟨3, 4, .root⟩ ["x"]) :=
    gives_of_parts rfl rfl gives_nil rfl
  have hstmt : ReadsAs unspacedParser unspacedText (.stmt unspacedStmt) (.stmt ⟨0, 21, .root⟩ .expr unspacedNode) :=
    gives_of_parts rfl rfl
      (gives_cons
        (gives_of_parts rfl rfl (gives_cons hbody (gives_cons hblock (gives_cons hcond gives_nil))) rfl) gives_nil) rfl
  have hroot : ReadsAs unspacedParser unspacedText (.block (wrapping 24 unspacedStmt))
      (.block ⟨0, 23, .root⟩ [.stmt ⟨0, 21, .root⟩ .expr unspacedNode]) :=
    gives_of_parts rfl rfl (gives_cons hstmt gives_nil) rfl
  exact read_of_gives "main.rs" rfl hroot

theorem legible_unspaced (s : Snippet) (block : Concrete) (h : parse unspacedParser s = .ok block) :
    block.Legible s.body :=
  legible_of_knowing (fun _ => rfl) (by decide +kernel) s block h

end Unspaced

end Reader

namespace Collapsible

open Reader

/-- What is suggested for that text. -/
def unspacedSuggestion : Suggestion :=
  ⟨⟨12, 21, .root⟩, "if y \x7b\x7d", .machineApplicable, "try"⟩

/-- What the pass finds in that text. -/
def unspacedFinding : Diagnostic :=
  ⟨lint, ⟨12, 21, .root⟩, "this `else \x7b if .. \x7d` block can be collapsed", some unspacedSuggestion⟩

theorem findings_unspaced :
    (Session.check [collapsibleIf] [] unspacedRoot ⟨unspacedText, "main.rs"⟩ .silent).1 = [unspacedFinding] := by
  rw [findings_collapsibleIf]
  decide +kernel

theorem seams_of_mem_check_unspaced :
    (∀ s block, parse unspacedParser s = .ok block → block.Legible s.body) ∧ 1 ≤ ({} : Progress).nextOrigin ∧
    read unspacedParser [] unspacedText "main.rs" {} = (.ok ⟨unspacedRoot, ⟨unspacedText, "main.rs"⟩⟩, {}) ∧
    unspacedFinding ∈ (Session.check [collapsibleIf] [] unspacedRoot ⟨unspacedText, "main.rs"⟩ .silent).1 ∧
    ∃ e ∈ unspacedRoot.expressions, ∃ conditions body,
      Collapses ⟨unspacedText, "main.rs"⟩ e unspacedFinding conditions body ∧
      ∃ s copied, unspacedFinding.suggestion = some s ∧
        SourceText.snippet? ⟨unspacedText, "main.rs"⟩ body.span = some (String.ofList copied) ∧
        s.fusesBehind unspacedText = false ∧
        (s.fusesBefore unspacedText ↔
          conditions = [] ∧ Text.fuses (Text.upTo unspacedText.toList s.span.lo) copied) ∧
        (conditions = [] → "if".toList <+: copied ∨
          ∀ l ∈ body.children.flatMap Node.nodes, l.span.origin.id ≠ body.span.origin.id) := by
  have hmem : unspacedFinding ∈
      (Session.check [collapsibleIf] [] unspacedRoot ⟨unspacedText, "main.rs"⟩ .silent).1 := by
    rw [findings_unspaced]
    exact .head _
  exact ⟨legible_unspaced, by decide, read_unspaced, hmem,
    seams_of_mem_check legible_unspaced (by decide) read_unspaced hmem⟩

/-- The `else` and the `if` behind it become one word. -/
theorem fused_else :
    (∀ s block, parse unspacedParser s = .ok block → block.Legible s.body) ∧
    read unspacedParser [] unspacedText "main.rs" {} = (.ok ⟨unspacedRoot, ⟨unspacedText, "main.rs"⟩⟩, {}) ∧
    unspacedFinding ∈ (Session.check [collapsibleIf] [] unspacedRoot ⟨unspacedText, "main.rs"⟩ .silent).1 ∧
    unspacedFinding.suggestion = some unspacedSuggestion ∧
    unspacedSuggestion.apply unspacedText = "if x \x7b\x7d elseif y \x7b\x7d" ∧
    unspacedSuggestion.fusesBefore unspacedText := by
  refine ⟨legible_unspaced, read_unspaced, ?_, rfl, by decide +kernel, by decide +kernel⟩
  rw [findings_unspaced]
  exact .head _

end Collapsible

end NestLint
