import NestLint.Proofs.Lint.Collapses
import NestLint.Proofs.Reader.Adequacy
import NestLint.Proofs.Reader.Sources

/-!
# What findings on a file copy

On a file that was read, the body that a finding copies is a block or a conditional that stands in the text, so
its text is there to be copied, and the suggestion ends with that text, re-indented. Re-indenting goes by lines
and knows nothing of literals: one that goes over several lines loses characters in the lines behind its first,
as many as the other lines lose.

The copies are made by `check_collapsible_no_if_let` and `check_collapsible_else_if`, through `snippet_block` and
`snippet_block_with_applicability`.

* `Collapses.suggestion`: where the copied text stands in what is put in;
* `Copies`, `exists_copies`: what is copied on a file that was read;
* `literals_of_mem_check`: what becomes of literals, and which of them stay as they are;
* `lost_blank`: a string in which a blank is lost.
-/

namespace NestLint

/-- The text of a span is inside that of a span around it. -/
theorem SourceText.isInfix_of_snippet? {source : SourceText} {outer inner : Span} {t u : String}
    (hlo : outer.lo ≤ inner.lo) (hhi : inner.hi ≤ outer.hi) (ht : source.snippet? outer = some t)
    (hu : source.snippet? inner = some u) : u.toList <:+: t.toList := by
  rw [snippet?, Option.ite_none_right_eq_some, Option.some.injEq] at ht hu
  obtain ⟨-, rfl⟩ := ht
  obtain ⟨-, rfl⟩ := hu
  have hstart : inner.lo.toNat = outer.lo.toNat + (inner.lo.toNat - outer.lo.toNat) := by omega
  have hstop : inner.hi.toNat = min inner.hi.toNat outer.hi.toNat := by omega
  rw [String.toList_ofList, String.toList_ofList, hstart, ← List.drop_drop, hstop, ← List.take_take, List.drop_take]
  exact (List.drop_suffix _ _).isInfix.trans (List.take_prefix _ _).isInfix

namespace Collapsible

theorem mem_children_of_elseOf? {e block : Node} (h : elseOf? e = some block) :
    e.isConditional ∧ block ∈ e.children := by
  cases e with
  | ifThen span cond body els =>
    obtain rfl : els = some block := h
    exact ⟨rfl, List.mem_append_right _ (.head _)⟩
  | ifLet span pat scrutinee body els =>
    obtain rfl : els = some block := h
    exact ⟨rfl, List.mem_append_right _ (.head _)⟩
  | _ => cases h

end Collapsible

theorem Node.mem_nodes_of_mem_body? {n b : Node} (h : b ∈ n.body?) : b ∈ n.nodes := by
  refine mem_nodes_of_mem_children ?_
  cases n with
  | ifThen span cond body els =>
    obtain rfl : body = some b := h
    exact List.mem_append_left _ (List.mem_append_right _ (.head _))
  | ifLet span pat scrutinee body els =>
    obtain rfl : body = some b := h
    exact List.mem_append_left _ (List.mem_append_right _ (.head _))
  | _ => cases h

namespace Collapsible

variable {source : SourceText} {e body : Node} {d : Diagnostic} {conditions : List Node}

/-- A finding is on a conditional. What it copies last is the body of a conditional inside, with the same origin,
or, where it takes over an `else`, all of that conditional. -/
theorem Collapses.inside (h : Collapses source e d conditions body) :
    e.isConditional ∧ ∃ nested ∈ e.children.flatMap Node.nodes, nested.isConditional ∧
      (conditions = [] ∧ body = nested ∨
        conditions ≠ [] ∧ body ∈ nested.body? ∧ nested.span.origin.id = e.span.origin.id) := by
  cases h with
  | @join span innerSpan cond block innerCond body d hnested h =>
    refine ⟨rfl, .ifThen innerSpan (some innerCond) (some body) none, ?_, rfl,
      .inr ⟨List.cons_ne_nil _ _, rfl, (eq_of_beq (joinFinding?_eq_some h).1).symm⟩⟩
    exact List.mem_flatMap.2 ⟨block, .tail _ (.head _), mem_nodes_of_soleExpr? hnested⟩
  | @orElse e block nested d hblock hnested hcond h =>
    obtain ⟨he, hmem⟩ := mem_children_of_elseOf? hblock
    exact ⟨he, body, List.mem_flatMap.2 ⟨block, hmem, mem_nodes_of_soleExpr? hnested⟩, hcond, .inl ⟨rfl, rfl⟩⟩

/-- What is put in ends with the re-indented text of the body, and nothing else is put in where an `else` is taken
over. Otherwise it is put in the place of the conditional. -/
theorem Collapses.suggestion (h : Collapses source e d conditions body) :
    ∃ s front, d.suggestion = some s ∧
      s.replacement.toList = front ++ Text.reindentLines true (source.snippet body.span "..").toList ∧
      (conditions = [] → front = []) ∧ (conditions ≠ [] → s.span = e.span) := by
  cases h with
  | @join span innerSpan cond block innerCond body d hnested h =>
    let condition := (Operand.ofNode source cond "..").and (Operand.ofNode source innerCond "..")
    refine ⟨_, ("if " ++ condition.text ++ " ").toList, (joinFinding?_eq_some h).2, ?_,
      fun h => absurd h (List.cons_ne_nil _ _), fun _ => rfl⟩
    show ("if " ++ condition.text ++ " " ++ source.snippetBlock body.span "..").toList = _
    rw [String.toList_append, SourceText.snippetBlock, Text.reindent, String.toList_ofList]
  | orElse hblock hnested hcond h =>
    refine ⟨_, [], (elseFinding?_eq_some h).2, ?_, fun _ => rfl, fun h => absurd rfl h⟩
    show (source.snippetBlock body.span "..").toList = _
    rw [SourceText.snippetBlock, Text.reindent, String.toList_ofList, List.nil_append]

/-! ## Files -/

/-- The finding `d` on `e` copies `copied`, the text of a body, to the end of its suggestion `s`. -/
structure Copies (source : SourceText) (e : Node) (d : Diagnostic) (conditions : List Node) (body : Node)
    (copied : List Char) (s : Suggestion) : Prop where
  suggestion : d.suggestion = some s
  text : source.snippet? body.span = some (String.ofList copied)
  looks : body.Looks copied
  kind : body.isConditional ∨ conditions ≠ [] ∧ body.kind = .block
  replacement : ∃ front, s.replacement.toList = front ++ Text.reindentLines true copied ∧ (conditions = [] → front = [])
  place : conditions ≠ [] → s.span = e.span

section Files

open Reader

variable {parser : Parser} {opaqueMacros : List String} {text fileName : String} {start after : Progress}
  {parsed : ParsedSource} {context : Context} {sink : Session.Sink}

/-- What is placed in a file and is an expression, or below one, stands where a node of the parser stood. -/
theorem sourced_of_mem_expressions (hparser : ∀ s block, parse parser s = .ok block → block.Legible s.body)
    (hstart : 1 ≤ start.nextOrigin) (hread : read parser opaqueMacros text fileName start = (.ok parsed, after))
    (he : e ∈ parsed.root.expressions) {k : Node} (hk : k ∈ e.nodes) (hplaced : k.isPlaced) :
    k.Sourced text.toList := by
  rw [Node.expressions_eq, Node.isExpr, kind_of_read hread] at he
  obtain ⟨n, hn, he⟩ := List.mem_flatMap.1 ((List.mem_append.1 he).resolve_right List.not_mem_nil)
  exact sourced_of_read hparser hstart hread hn (Node.mem_nodes_trans hk (Node.mem_nodes_of_mem_expressions he)) hplaced

/-- The body that a finding on a file copies has a text. -/
theorem exists_copies (hparser : ∀ s block, parse parser s = .ok block → block.Legible s.body)
    (hstart : 1 ≤ start.nextOrigin) (hread : read parser opaqueMacros text fileName start = (.ok parsed, after))
    (he : e ∈ parsed.root.expressions) (h : Collapses parsed.source e d conditions body) :
    body ∈ e.nodes ∧ ∃ copied s, Copies parsed.source e d conditions body copied s := by
  obtain ⟨hcond, nested, hnested, hnestedCond, hinside⟩ := h.inside
  have hmem : nested ∈ e.nodes := Node.mem_nodes_iff.2 (.inr hnested)
  have hsourced := sourced_of_mem_expressions hparser hstart hread he hmem (Node.isPlaced_of_isConditional hnestedCond)
  have hbody : body ∈ nested.nodes ∧ (body.isConditional ∨ conditions ≠ [] ∧ body.kind = .block) := by
    obtain ⟨-, rfl⟩ | ⟨hconditions, hbody, -⟩ := hinside
    · exact ⟨body.mem_nodes_self, .inl hnestedCond⟩
    · obtain ⟨_, _, -, -, hstands⟩ := hsourced
      exact ⟨Node.mem_nodes_of_mem_body? hbody, .inr ⟨hconditions, hstands.body body hbody⟩⟩
  have hbodyMem := Node.mem_nodes_trans hbody.1 hmem
  have hplaced : body.isPlaced := by
    rw [Node.isPlaced, Bool.or_eq_true, Bool.or_eq_true, beq_iff_eq]
    exact .inl (hbody.2.imp_right And.right)
  have hbodySourced := sourced_of_mem_expressions hparser hstart hread he hbodyMem hplaced
  obtain ⟨copied, hcopied, hlooks⟩ := hbodySourced.exists_text hplaced fileName
  rw [← source_of_read hread] at hcopied
  obtain ⟨s, front, hs, hreplacement, hfront, hplace⟩ := h.suggestion
  rw [SourceText.snippet, hcopied, Option.getD_some, String.toList_ofList] at hreplacement
  exact ⟨hbodyMem, copied, s, hs, hcopied, hlooks, hbody.2, ⟨front, hreplacement, hfront⟩, hplace⟩

/-! ## Literals -/

/-- A literal in a body that is copied is found in what is put in, moved as far as the lines of the body. It stays
as it is exactly if the lines are not moved or it stands on one line. -/
theorem literals_of_mem_check (hparser : ∀ s block, parse parser s = .ok block → block.Legible s.body)
    (hstart : 1 ≤ start.nextOrigin) (hread : read parser opaqueMacros text fileName start = (.ok parsed, after))
    (hd : d ∈ (Session.check [collapsibleIf] context parsed.root parsed.source sink).1) :
    ∃ e ∈ parsed.root.expressions, ∃ conditions body, Collapses parsed.source e d conditions body ∧
      ∃ s copied, d.suggestion = some s ∧ parsed.source.snippet? body.span = some (String.ofList copied) ∧
        ∀ l ∈ body.nodes, l.kind = .lit →
          ∃ t, parsed.source.snippet? l.span = some (String.ofList t) ∧
            Text.shifted (Text.inset copied) t <:+: s.replacement.toList ∧
            (Text.shifted (Text.inset copied) t = t ↔ Text.inset copied = 0 ∨ '\n' ∉ t) := by
  rw [findings_collapsibleIf, mem_reports] at hd
  obtain ⟨e, he, -, conditions, body, h⟩ := hd
  obtain ⟨hmem, copied, s, hcopies⟩ := exists_copies hparser hstart hread he h
  refine ⟨e, he, conditions, body, h, s, copied, hcopies.suggestion, hcopies.text, fun l hl hlit => ?_⟩
  have hplaced : l.isPlaced := by
    rw [Node.isPlaced, hlit]
    exact Bool.or_true _
  have hsourced := sourced_of_mem_expressions hparser hstart hread he (Node.mem_nodes_trans hl hmem) hplaced
  obtain ⟨t, ht, hlooks⟩ := hsourced.exists_text hplaced fileName
  rw [← source_of_read hread] at ht
  refine ⟨t, ht, ?_, Text.shifted_eq_self hlooks.ends⟩
  have hfits := fits_of_read (fun s block hmeets => (hparser s block hmeets.parse_eq).stays) hread
  have hbodyFits := hfits.of_mem_nodes (Node.mem_nodes_trans hmem (Node.mem_nodes_of_mem_expressions he))
  obtain ⟨hlo, -, hhi⟩ := (hbodyFits.span.of_mem_nodes hl).bounds
  have hinfix := SourceText.isInfix_of_snippet? hlo hhi hcopies.text ht
  rw [String.toList_ofList, String.toList_ofList] at hinfix
  obtain ⟨before, behind, rfl⟩ := hinfix
  obtain ⟨before', behind', hmoved⟩ := Text.exists_reindentLines_append before behind hlooks.starts hlooks.ends
  obtain ⟨front, hreplacement, -⟩ := hcopies.replacement
  rw [hreplacement, hmoved]
  exact ⟨front ++ before', behind', by simp only [List.append_assoc]⟩

end Files

end Collapsible

namespace Reader

open Concrete

/-- A parser that knows one text, which is one statement. -/
def knowing (text : String) (stop : Nat) (stmt : Concrete) (body : String) : Option Concrete :=
  if body = text then some (ofWrapping stop stmt) else none

theorem legible_of_knowing {text : String} {stop : Nat} {stmt : Concrete}
    (hblock : ∀ s, statementBlock s (ofWrapping stop stmt) = .ok (wrapping stop stmt))
    (hlegible : (wrapping stop stmt).Legible text.toList) (s : Snippet) (block : Concrete)
    (h : parse (knowing text stop stmt) s = .ok block) : block.Legible s.body := by
  rw [parse, knowing] at h
  split at h
  · cases h
  · rename_i htop
    obtain ⟨hbody, htop⟩ := Option.ite_none_right_eq_some.1 htop
    cases htop
    rw [hblock s] at h
    cases h
    rw [show s.body = text.toList by rw [← hbody, String.toList_ofList]]
    exact hlegible

/-! ## A string on two lines -/

section Quoted

/-- An `if` around an `if` around a string that goes over two lines. -/
def quotedText : String := "if x \x7b if y \x7b\"\n \"\x7d \x7d"

/-- The body of the inner `if`. -/
def quotedBody : Concrete :=
  construct "block" 13 19 (some "consequence")
    [token "\x7b" 13 14, construct "string_literal" 14 18 none [], token "\x7d" 18 19]

/-- The inner `if`. -/
def quotedInner : Concrete :=
  construct "expression_statement" 8 19 none
    [construct "if_expression" 8 19 none [token "if" 8 10, letterAt 11, quotedBody]]

/-- The body of the outer `if`. -/
def quotedBlock : Concrete :=
  construct "block" 6 21 (some "consequence") [token "\x7b" 6 7, quotedInner, token "\x7d" 20 21]

/-- The outer `if`. -/
def quotedStmt : Concrete :=
  construct "expression_statement" 1 21 none
    [construct "if_expression" 1 21 none [token "if" 1 3, letterAt 4, quotedBlock]]

/-- The parser that knows that text. -/
def quotedParser : Parser := knowing quotedText 23 quotedStmt

/-- The node of the body of the inner `if`. -/
def quotedBodyNode : Node :=
  .block ⟨12, 18, .root⟩ [.stmt ⟨13, 17, .root⟩ .expr (.lit ⟨13, 17, .root⟩ "\"\n \"")]

/-- The node of the inner `if`. -/
def quotedInnerNode : Node := .ifThen ⟨7, 18, .root⟩ (some (.path ⟨10, 11, .root⟩ ["y"])) (some quotedBodyNode) none

/-- The node of the outer `if`. -/
def quotedNode : Node :=
  .ifThen ⟨0, 20, .root⟩ (some (.path ⟨3, 4, .root⟩ ["x"]))
    (some (.block ⟨5, 20, .root⟩ [.stmt ⟨7, 18, .root⟩ .expr quotedInnerNode])) none

/-- The node of the file. -/
def quotedRoot : Node := .block ⟨0, 20, .root⟩ [.stmt ⟨0, 20, .root⟩ .expr quotedNode]

theorem read_quoted : read quotedParser [] quotedText "main.rs" {} =
    (.ok ⟨quotedRoot, ⟨quotedText, "main.rs"⟩⟩, {}) := by
  have hlit : ReadsAs quotedParser quotedText (.expr (construct "string_literal" 14 18 none []))
      (.lit ⟨13, 17, .root⟩ "\"\n \"") := gives_of_parts rfl rfl gives_nil rfl
  have hbody : ReadsAs quotedParser quotedText (.block quotedBody) quotedBodyNode :=
    gives_of_parts rfl rfl (gives_cons (gives_of_parts rfl rfl (gives_cons hlit gives_nil) rfl) gives_nil) rfl
  have hinnerCond : ReadsAs quotedParser quotedText (.expr (letterAt 11)) (.path ⟨10, 11, .root⟩ ["y"]) :=
    gives_of_parts rfl rfl gives_nil rfl
  have hinner : ReadsAs quotedParser quotedText (.stmt quotedInner) (.stmt ⟨7, 18, .root⟩ .expr quotedInnerNode) :=
    gives_of_parts rfl rfl
      (gives_cons (gives_of_parts rfl rfl (gives_cons hbody (gives_cons hinnerCond gives_nil)) rfl) gives_nil) rfl
  have hblock : ReadsAs quotedParser quotedText (.block quotedBlock)
      (.block ⟨5, 20, .root⟩ [.stmt ⟨7, 18, .root⟩ .expr quotedInnerNode]) :=
    gives_of_parts rfl rfl (gives_cons hinner gives_nil) rfl
  have hcond : ReadsAs quotedParser quotedText (.expr (letterAt 4)) (.path ⟨3, 4, .root⟩ ["x"]) :=
    gives_of_parts rfl rfl gives_nil rfl
  have hstmt : ReadsAs quotedParser quotedText (.stmt quotedStmt) (.stmt ⟨0, 20, .root⟩ .expr quotedNode) :=
    gives_of_parts rfl rfl
      (gives_cons (gives_of_parts rfl rfl (gives_cons hblock (gives_cons hcond gives_nil)) rfl) gives_nil) rfl
  have hroot : ReadsAs quotedParser quotedText (.block (wrapping 23 quotedStmt))
      (.block ⟨0, 22, .root⟩ [.stmt ⟨0, 20, .root⟩ .expr quotedNode]) :=
    gives_of_parts rfl rfl (gives_cons hstmt gives_nil) rfl
  exact read_of_gives "main.rs" rfl hroot

theorem legible_quoted (s : Snippet) (block : Concrete) (h : parse quotedParser s = .ok block) :
    block.Legible s.body :=
  legible_of_knowing (fun _ => rfl) (by decide +kernel) s block h

end Quoted

end Reader

namespace Collapsible

open Reader

/-- What the pass finds in that text. -/
def quotedFinding : Diagnostic :=
  ⟨lint, ⟨0, 20, .root⟩, "this `if` statement can be collapsed",
    some ⟨⟨0, 20, .root⟩, "if x && y \x7b\"\n\"\x7d", .machineApplicable, "try"⟩⟩

theorem findings_quoted :
    (Session.check [collapsibleIf] [] quotedRoot ⟨quotedText, "main.rs"⟩ .silent).1 = [quotedFinding] := by
  rw [findings_collapsibleIf]
  decide +kernel

theorem literals_of_mem_check_quoted :
    (∀ s block, parse quotedParser s = .ok block → block.Legible s.body) ∧ 1 ≤ ({} : Progress).nextOrigin ∧
    read quotedParser [] quotedText "main.rs" {} = (.ok ⟨quotedRoot, ⟨quotedText, "main.rs"⟩⟩, {}) ∧
    quotedFinding ∈ (Session.check [collapsibleIf] [] quotedRoot ⟨quotedText, "main.rs"⟩ .silent).1 ∧
    ∃ e ∈ quotedRoot.expressions, ∃ conditions body,
      Collapses ⟨quotedText, "main.rs"⟩ e quotedFinding conditions body ∧
      ∃ s copied, quotedFinding.suggestion = some s ∧
        SourceText.snippet? ⟨quotedText, "main.rs"⟩ body.span = some (String.ofList copied) ∧
        ∀ l ∈ body.nodes, l.kind = .lit →
          ∃ t, SourceText.snippet? ⟨quotedText, "main.rs"⟩ l.span = some (String.ofList t) ∧
            Text.shifted (Text.inset copied) t <:+: s.replacement.toList ∧
            (Text.shifted (Text.inset copied) t = t ↔ Text.inset copied = 0 ∨ '\n' ∉ t) := by
  have hmem : quotedFinding ∈ (Session.check [collapsibleIf] [] quotedRoot ⟨quotedText, "main.rs"⟩ .silent).1 := by
    rw [findings_quoted]
    exact .head _
  exact ⟨legible_quoted, by decide, read_quoted, hmem,
    literals_of_mem_check legible_quoted (by decide) read_quoted hmem⟩

/-- The blank at the start of the second line of the string is lost. -/
theorem lost_blank :
    let source : SourceText := ⟨quotedText, "main.rs"⟩
    (∀ s block, parse quotedParser s = .ok block → block.Legible s.body) ∧
    read quotedParser [] quotedText "main.rs" {} = (.ok ⟨quotedRoot, source⟩, {}) ∧
    quotedFinding ∈ (Session.check [collapsibleIf] [] quotedRoot source .silent).1 ∧
    (∃ conditions, Collapses source quotedNode quotedFinding conditions quotedBodyNode) ∧
    .lit ⟨13, 17, .root⟩ "\"\n \"" ∈ quotedBodyNode.nodes ∧
    source.snippet? ⟨13, 17, .root⟩ = some "\"\n \"" ∧
    ∃ s, quotedFinding.suggestion = some s ∧ ¬"\"\n \"".toList <:+: s.replacement.toList := by
  intro source
  refine ⟨legible_quoted, read_quoted, ?_, ⟨_, .join rfl (by decide +kernel)⟩, ?_, by decide +kernel, _, rfl,
    by decide +kernel⟩
  · rw [findings_quoted]
    exact .head _
  · rw [Node.nodes_eq, quotedBodyNode]
    simp [Node.nodes_eq, Node.children]

end Collapsible

end NestLint
