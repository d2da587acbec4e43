import NestLint.Proofs.Reader.Adequacy
import NestLint.Proofs.Reader.Nesting
import NestLint.Proofs.Tree.Spans

/-!
# Every span has a text

The spans of a file that was read lie in its text, each inside the one around it. So the text of every node
can be taken from the source, and nothing ever has to stand in for it: neither for statements whose semicolon
stood apart, nor for patterns behind `mut`, nor under `?` and type arguments, nor for what a macro wrote.

The files are those that `SourceReader.read` reads, and texts are taken by `snippet_opt`.

* `SourceText.Shows`: a span whose text is taken, whatever would stand in for it;
* `wellFormed_of_read`: the spans of a file.
-/

namespace NestLint

namespace SourceText

variable {source : SourceText} {span : Span}

/-- The text of a span is `t`. No default stands in for it, so the rating of a fix is lowered for macros only, and
nothing is noted. -/
structure Shows (source : SourceText) (span : Span) (t : String) : Prop where
  notes : source.notes span = []
  snippet? : source.snippet? span = some t
  snippet (default : String) : source.snippet span default = t
  block (default : String) : source.snippetBlock span default = Text.reindent t
  rated (default : String) (rating : Applicability) : source.ratedSnippet span default rating =
    (t, if span.fromExpansion then rating.degrade .maybeIncorrect else rating)
  ratedBlock (default : String) (rating : Applicability) : source.ratedSnippetBlock span default rating =
    (Text.reindent t, if span.fromExpansion then rating.degrade .maybeIncorrect else rating)

/-- The characters from one bound of a span to the other. -/
def between (source : SourceText) (span : Span) : String :=
  String.ofList ((source.chars.take span.hi.toNat).drop span.lo.toNat)

theorem shows_of_readable (h : source.readable span) : source.Shows span (source.between span) := by
  have htext : source.snippet? span = some (source.between span) := by
    rw [snippet?, if_pos h]
    rfl
  have hrated (default : String) (rating : Applicability) : source.ratedSnippet span default rating =
      (source.between span, if span.fromExpansion then rating.degrade .maybeIncorrect else rating) := by
    rw [ratedSnippet, htext]
  refine ⟨?_, htext, fun default => ?_, fun default => ?_, hrated, fun default rating => ?_⟩
  · rw [notes, if_pos h]
  · rw [snippet, htext, Option.getD_some]
  · rw [snippetBlock, snippet, htext, Option.getD_some]
  · rw [ratedSnippetBlock, hrated]

end SourceText

theorem Node.Fits.within {lo hi : Int} {n k : Node} (h : n.Fits lo hi) (hk : k ∈ n.children) :
    k.span.Within n.span := by
  obtain ⟨hlo, -, hhi⟩ := (h.of_mem_children hk).bounds
  exact ⟨hlo, hhi⟩

namespace Reader

variable {parser : Parser} {opaqueMacros : List String} {text fileName : String} {start after : Progress}
  {parsed : ParsedSource}

/-- In a file that was read, the bounds of every span are in order and in the text, every node lies within the one
around it, and the text under its span is what stands there. -/
theorem wellFormed_of_read (hstays : ∀ s block, Meets parser opaqueMacros text.toList s block → block.Stays s.body)
    (h : read parser opaqueMacros text fileName start = (.ok parsed, after)) :
    ∀ n ∈ parsed.root.nodes,
      (0 ≤ n.span.lo ∧ n.span.lo ≤ n.span.hi ∧ n.span.hi ≤ text.toList.length) ∧
      (∀ k ∈ n.children, k.span.Within n.span) ∧
      parsed.source.Shows n.span
        (String.ofList ((text.toList.take n.span.hi.toNat).drop n.span.lo.toNat)) := by
  intro n hn
  have hfits := (fits_of_read hstays h).of_mem_nodes hn
  have hbounds := hfits.bounds
  refine ⟨hbounds, fun k hk => hfits.within hk, ?_⟩
  obtain ⟨block, a, -, -, rfl⟩ := reads_of_read h
  have hreadable : SourceText.readable ⟨text, fileName⟩ n.span := by
    obtain ⟨hlo, hordered, hhi⟩ := hbounds
    rw [SourceText.readable, decide_eq_true hlo, decide_eq_true hordered]
    exact Bool.and_eq_true_iff.2 ⟨decide_eq_true hhi, rfl⟩
  exact SourceText.shows_of_readable hreadable

/-! ## A file with all that moves spans -/

section Mixed

open Concrete

/-- A binding with `mut` of an invocation under `?`, and an `if` with a semicolon behind it. The name that is bound
takes two bytes. -/
def mixedText : String := "let mut é = m!(!x)?; if a \x7b\x7d;"

/-- The tree of `m!(!x)`. -/
def mixedCall : Concrete :=
  construct "macro_invocation" 14 20 none
    [construct "identifier" 14 15 (some "macro") [], token "!" 15 16,
      construct "token_tree" 16 20 none
        [token "(" 16 17, token "!" 17 18, construct "identifier" 18 19 none [], token ")" 19 20]]

/-- The tree of the binding. -/
def mixedBinding : Concrete :=
  construct "let_declaration" 1 22 none
    [token "let" 1 4, construct "mutable_specifier" 5 8 none [], construct "identifier" 9 11 (some "pattern") [],
      token "=" 12 13, construct "try_expression" 14 21 (some "value") [mixedCall, token "?" 20 21], token ";" 21 22]

/-- The tree of the `if`. -/
def mixedIf : Concrete := construct "expression_statement" 23 30 none [emptyIf 23]

/-- The block of the three statements, the last of which is the semicolon. -/
def mixedBlock : Concrete :=
  construct "block" 0 33 none
    [token "\x7b" 0 1, mixedBinding, mixedIf, construct "empty_statement" 30 31 none [token ";" 30 31],
      token "\x7d" 32 33]

/-- The tree of what stands in the macro. -/
def negation : Concrete := construct "unary_expression" 1 3 none [token "!" 1 2, construct "identifier" 2 3 none []]

/-- A parser that knows the text and what stands in the macro. -/
def mixedParser (body : String) : Option Concrete :=
  if body = mixedText then
    some (construct "source_file" 0 33 none [construct "expression_statement" 0 33 none [mixedBlock]])
  else if body = "!x" then some (ofWrapping 5 negation)
  else none

/-- The node of the file. The semicolon is counted to the `if`, and `mut` to the pattern. -/
def mixedRoot : Node :=
  .block ⟨0, 29, .root⟩
    [.stmt ⟨0, 20, .root⟩ .binding
        (.binding ⟨0, 20, .root⟩ (some (.pat ⟨4, 9, .root⟩))
          (some (.unary ⟨12, 19, .root⟩ .not (.path ⟨16, 17, ⟨1, some "m"⟩⟩ ["x"])))),
      .stmt ⟨21, 29, .root⟩ .semi
        (.ifThen ⟨21, 28, .root⟩ (some (.path ⟨24, 25, .root⟩ ["a"])) (some (.block ⟨26, 28, .root⟩ [])) none)]

theorem read_mixed :
    ∃ after, read mixedParser [] mixedText "main.rs" {} = (.ok ⟨mixedRoot, ⟨mixedText, "main.rs"⟩⟩, after) := by
  let s := Snippet.ofFile mixedText.toList
  let inner := s.inner (construct "token_tree" 16 20 none []) ['!', 'x'] ⟨1, some "m"⟩
  have hopens : Opens [] s mixedCall "m" 1 inner := ⟨_, _, rfl, rfl, rfl⟩
  have hsole : Sole (wrapping 5 negation) negation := ⟨_, rfl, by decide, .inr ⟨by decide, by decide, rfl⟩⟩
  have hname : Reads mixedParser [] endurance inner [.expr (construct "identifier" 2 3 none [])] 2 [_] 2 :=
    .step rfl rfl .nil rfl
  have hcall : Reads mixedParser [] endurance s [.expr mixedCall] 1 [_] 2 :=
    .expansion rfl rfl hopens rfl (.inl ⟨by decide, rfl⟩) hsole (.step rfl rfl hname rfl) .nil
  have hbinding : Reads mixedParser [] endurance s [.stmt mixedBinding] 1 [_] 2 :=
    .step rfl rfl (.step rfl rfl hcall rfl) rfl
  have hbody : Reads mixedParser [] endurance s [.block (emptyBody 28)] 2 [_] 2 := .step rfl rfl .nil rfl
  have hcond : Reads mixedParser [] endurance s [.expr (letterAt 26)] 2 [_] 2 := .step rfl rfl .nil rfl
  have hif : Reads mixedParser [] endurance s [.stmt mixedIf] 2 [_] 2 :=
    .step rfl rfl (.step rfl rfl (hbody.cons hcond) rfl) rfl
  have hblock : Reads mixedParser [] endurance s [.block mixedBlock] 1 [_] 2 :=
    .step rfl rfl (hbinding.cons hif) rfl
  obtain ⟨after, -, hread⟩ := read_of_reads "main.rs" {} rfl hblock
  exact ⟨after, hread⟩

theorem stays_mixed (s : Snippet) (block : Concrete) (h : parse mixedParser s = .ok block) : block.Stays s.body := by
  rw [parse, mixedParser] at h
  split at h
  · cases h
  · rename_i top htop
    split at htop
    · rename_i hbody
      cases htop
      cases h
      rw [show s.body = mixedText.toList by rw [← hbody, String.toList_ofList]]
      decide +kernel
    · obtain ⟨hbody, htop⟩ := Option.ite_none_right_eq_some.1 htop
      cases htop
      cases h
      rw [show s.body = "!x".toList by rw [← hbody, String.toList_ofList]]
      decide +kernel

theorem wellFormed_of_read_mixed :
    (∀ s block, Meets mixedParser [] mixedText.toList s block → block.Stays s.body) ∧
    ∃ after, read mixedParser [] mixedText "main.rs" {} = (.ok ⟨mixedRoot, ⟨mixedText, "main.rs"⟩⟩, after) ∧
      ∀ n ∈ mixedRoot.nodes,
        (0 ≤ n.span.lo ∧ n.span.lo ≤ n.span.hi ∧ n.span.hi ≤ mixedText.toList.length) ∧
        (∀ k ∈ n.children, k.span.Within n.span) ∧
        SourceText.Shows ⟨mixedText, "main.rs"⟩ n.span
          (String.ofList ((mixedText.toList.take n.span.hi.toNat).drop n.span.lo.toNat)) := by
  have hstays : ∀ s block, Meets mixedParser [] mixedText.toList s block → block.Stays s.body :=
    fun s block hmeets => stays_mixed s block hmeets.parse_eq
  obtain ⟨after, hread⟩ := read_mixed
  exact ⟨hstays, after, hread, wellFormed_of_read hstays hread⟩

end Mixed

end Reader

end NestLint
