import NestLint.Proofs.Lint.Reports
import NestLint.Proofs.Reader.Adequacy
import NestLint.Proofs.Reader.Hygiene

/-!
# What the pass makes of macro expansions

The pass looks at nothing that a macro wrote, and takes over no conditional that a macro wrote into
one that was written by hand. This rests on the marks of the nodes alone, so it holds of every
expansion that kept its mark when the file was read.

Files are read by `SourceReader.read`, and the pass is `CollapsibleIf`.

* `untouched_of_fromExpansion`: the pass leaves alone what is marked;
* `kept_of_read`: the expansions of a file that keep their marks;
* `not_marked_question`: a file in which one loses it.
-/

namespace NestLint

namespace Collapsible

/-- A report on `e` takes over the conditional `m`: it joins the two, or it puts `m` in the place of the
block behind `else`. -/
inductive Takes (source : SourceText) : Node → Node → Prop where
  | join {span : Span} {cond body m : Node} :
    joinReport? source (.ifThen span (some cond) (some body) none) ≠ none → soleExpr? body = some m →
      Takes source (.ifThen span (some cond) (some body) none) m
  | orElse {e block m : Node} :
    elseReport? source e ≠ none → elseOf? e = some block → soleExpr? block = some m → Takes source e m

/-- The pass does not look at a node, and takes it over into nothing that was written by hand. -/
structure Untouched (n : Node) : Prop where
  notCandidate : ∀ index, collapsibleIf.isCandidate ⟨index, n⟩ = .ok false
  notTaken : ∀ source e, e.span.fromExpansion = false → ¬Takes source e n

theorem sameOrigin_of_joinReport? {source : SourceText} {span : Span} {cond body m : Node}
    (h : joinReport? source (.ifThen span (some cond) (some body) none) ≠ none) (hm : soleExpr? body = some m) :
    span.sameOrigin m.span := by
  simp only [joinReport?, hm] at h
  split at h
  · rename_i innerSpan innerCond content heq
    cases heq
    rw [joinFinding?] at h
    split at h
    · exact absurd rfl h
    · rename_i hguard
      rw [Bool.or_eq_true, not_or, Bool.not_eq_true', Bool.not_eq_false] at hguard
      exact hguard.2
  · exact absurd rfl h

theorem not_fromExpansion_of_elseReport? {source : SourceText} {e block m : Node} (h : elseReport? source e ≠ none)
    (hblock : elseOf? e = some block) (hm : soleExpr? block = some m) : m.span.fromExpansion = false := by
  rw [elseReport?, hblock, Option.bind_some, hm, Option.bind_some] at h
  split at h
  · rw [elseFinding?] at h
    split at h
    · exact absurd rfl h
    · rename_i hguard
      rw [Bool.or_eq_true, not_or, Bool.not_eq_true, Bool.not_eq_true] at hguard
      exact hguard.2
  · exact absurd rfl h

theorem fromExpansion_of_sameOrigin {a b : Span} (h : a.sameOrigin b) : a.fromExpansion = b.fromExpansion := by
  rw [Span.fromExpansion, Span.fromExpansion, Origin.isRoot, Origin.isRoot, eq_of_beq h]

/-- The pass leaves alone what a macro wrote. -/
theorem untouched_of_fromExpansion {n : Node} (h : n.span.fromExpansion) : Untouched n := by
  constructor
  · intro index
    show Except.ok ((n.kind == .ifThen || n.kind == .ifLet) && !n.span.fromExpansion) = .ok false
    rw [h, Bool.not_true, Bool.and_false]
  · intro source e he htakes
    cases htakes with
    | join hreport hm =>
      have := fromExpansion_of_sameOrigin (sameOrigin_of_joinReport? hreport hm)
      rw [h] at this
      exact Bool.false_ne_true (he.symm.trans this)
    | orElse hreport hblock hm =>
      have := not_fromExpansion_of_elseReport? hreport hblock hm
      rw [h] at this
      cases this

end Collapsible

namespace Reader

/-- What is true of an expansion, with the origin `o` and the account `e`, that stands in the account of
a file over whose root the span `whole` is put. -/
structure Kept (a : Account) (root : Node) (whole : Span) (s : Snippet) (c : Concrete) (o : Origin) (e : Account) :
    Prop where
  /-- It stands somewhere. -/
  stands : ∃ cover, Stands (.expansion s c o e) cover a (some whole)
  /-- Its node is in the tree. -/
  placed : a.Complete → ∀ cover, Stands (.expansion s c o e) cover a (some whole) → covered cover e.node ∈ root.nodes
  /-- All its nodes are marked exactly if nothing is put over its root. -/
  marked_iff : ∀ cover, Stands (.expansion s c o e) cover a (some whole) →
    ((∀ n ∈ (covered cover e.node).nodes, Marked o e n) ↔ cover = none)
  /-- The nodes below its root are marked in any case. -/
  below : ∀ n ∈ e.node.children.flatMap Node.nodes, Marked o e n
  /-- What is marked is not written by hand, is not from the text around it, and the pass leaves it
  alone. -/
  apart : ∀ n, Marked o e n → n.span.fromExpansion ∧ s.origin.id < n.span.origin.id ∧ Collapsible.Untouched n

/-- Whenever a file is read, its account tells of every expansion whether it keeps its mark: it does
exactly if neither `?` nor type arguments put a span of the text around it over its root. -/
theorem kept_of_read {parser : Parser} {opaqueMacros : List String} {text fileName : String} {start after : Progress}
    {parsed : ParsedSource} (hstart : 1 ≤ start.nextOrigin)
    (hread : read parser opaqueMacros text fileName start = (.ok parsed, after)) :
    ∃ block a, parse parser (Snippet.ofFile text.toList) = .ok block ∧
      Reads parser opaqueMacros endurance (Snippet.ofFile text.toList) [.block block] start.nextOrigin [a]
        after.nextOrigin ∧
      parsed.root = covered (some (wholeSpan text)) a.node ∧
      ∀ s c o e, Account.Within (.expansion s c o e) a → Kept a parsed.root (wholeSpan text) s c o e := by
  obtain ⟨block, a, hparse, hreads, rfl⟩ := reads_of_read hread
  refine ⟨block, a, hparse, hreads, rfl, fun s c o e hwithin => ?_⟩
  have hroot : (Snippet.ofFile text.toList).origin.id < start.nextOrigin := by
    show (0 : Int) < start.nextOrigin
    omega
  have hwhole : ∀ span ∈ some (wholeSpan text), span.origin.id < start.nextOrigin := by
    intro span hspan
    cases hspan
    exact hroot
  obtain ⟨cover, hstands⟩ := exists_stands hwithin (some (wholeSpan text)) hreads
  obtain ⟨t, inner, d, k, ho, he, hi, hs, -⟩ := newer_of_stands hstands hreads hroot hwhole
  exact {
    stands := ⟨cover, hstands⟩
    placed := fun hcomplete cover hstands => (placed_of_stands hstands hreads hcomplete).1
    marked_iff := fun cover hstands => marked_iff_of_stands hstands hreads hroot hwhole
    below := fun n hn => marked_of_reads ho he (Node.mem_nodes_iff.2 (.inr hn))
    apart := by
      intro n hn
      have hle := hn.le he
      have hinvoked : n.span.fromExpansion := by
        rw [Span.fromExpansion, Origin.isRoot, Bool.not_eq_true', beq_eq_false_iff_ne]
        omega
      exact ⟨hinvoked, by omega, Collapsible.untouched_of_fromExpansion hinvoked⟩ }

/-! ## An invocation as a statement -/

section Invocation

open Concrete

/-- The name in a macro invocation that is a file of its own. -/
def invokedName : Concrete := construct "identifier" 1 2 none []

/-- The tree of `m!(a)`. -/
def invocation : Concrete :=
  construct "macro_invocation" 1 6 none
    [construct "identifier" 1 2 (some "macro") [], token "!" 2 3, construct "token_tree" 3 6 none []]

/-- A parser that knows `m!(a)`. -/
def invocationParser : Parser
  | "m!(a)" => some (ofWrapping 8 invocation)
  | "a" => some (ofWrapping 4 invokedName)
  | _ => none

theorem reads_invocation : ∃ a, Reads invocationParser [] endurance (Snippet.ofFile "m!(a)".toList)
    [.block (wrapping 8 invocation)] 1 [a] 2 := by
  let s := Snippet.ofFile "m!(a)".toList
  let inner := s.inner (construct "token_tree" 3 6 none []) ['a'] ⟨1, some "m"⟩
  have hopens : Opens [] s invocation "m" 1 inner := ⟨_, _, rfl, rfl, rfl⟩
  have hsole : Sole (wrapping 4 invokedName) invokedName := ⟨_, rfl, by decide, .inr ⟨by decide, by decide, rfl⟩⟩
  have hname : Reads invocationParser [] endurance inner [.expr invokedName] 2 [_] 2 := .step rfl rfl .nil rfl
  have hinvoked : Reads invocationParser [] endurance s [.expr invocation] 1 [_] 2 :=
    .expansion rfl rfl hopens rfl (.inl ⟨by decide, rfl⟩) hsole hname .nil
  exact ⟨_, .step rfl rfl (.step rfl rfl hinvoked rfl) rfl⟩

theorem kept_of_read_invocation : ∃ parsed after, 1 ≤ ({} : Progress).nextOrigin ∧
    read invocationParser [] "m!(a)" "main.rs" {} = (.ok parsed, after) ∧
      ∃ block a, parse invocationParser (Snippet.ofFile "m!(a)".toList) = .ok block ∧
        Reads invocationParser [] endurance (Snippet.ofFile "m!(a)".toList) [.block block] 1 [a] after.nextOrigin ∧
        parsed.root = covered (some (wholeSpan "m!(a)")) a.node ∧
        ∀ s c o e, Account.Within (.expansion s c o e) a → Kept a parsed.root (wholeSpan "m!(a)") s c o e := by
  obtain ⟨a, ha⟩ := reads_invocation
  obtain ⟨after, -, hread⟩ := read_of_reads "main.rs" {} rfl ha
  exact ⟨_, after, by decide, hread, kept_of_read (by decide) hread⟩

end Invocation

/-! ## An invocation under `?` -/

section Question

open Concrete

/-- An `if` around nothing but an invocation under `?`, whose body is another `if`. -/
def questionText : String := "if x \x7b m!(if y \x7b\x7d)? \x7d"

/-- The tree of `m!(..)` in that text. -/
def asked : Concrete :=
  construct "macro_invocation" 8 19 none
    [construct "identifier" 8 9 (some "macro") [], token "!" 9 10, construct "token_tree" 10 19 none []]

/-- The tree of `m!(..)?`. -/
def askedTry : Concrete := construct "try_expression" 8 20 none [asked, token "?" 19 20]

/-- The body of the `if` that is written by hand. -/
def askedBody : Concrete :=
  construct "block" 6 22 (some "consequence") [token "\x7b" 6 7, askedTry, token "\x7d" 21 22]

/-- The `if` that is written by hand. -/
def handwritten : Concrete := construct "if_expression" 1 22 none [token "if" 1 3, letterAt 4, askedBody]

/-- The statement of the file. -/
def handwrittenStmt : Concrete := construct "expression_statement" 1 22 none [handwritten]

/-- The statement that the body of the macro consists of. -/
def generatedStmt : Concrete := construct "expression_statement" 1 8 none [emptyIf 1]

/-- A parser that knows the text and the body of the macro. -/
def questionParser (body : String) : Option Concrete :=
  if body = questionText then some (ofWrapping 24 handwrittenStmt)
  else if body = "if y \x7b\x7d" then some (ofWrapping 10 generatedStmt)
  else none

/-- The text as a snippet. -/
def askedSnippet : Snippet := .ofFile questionText.toList

/-- The origin of what the macro writes. -/
def macroOrigin : Origin := ⟨1, some "m"⟩

/-- The body of the macro as a snippet. -/
def generatedSnippet : Snippet :=
  askedSnippet.inner (construct "token_tree" 10 19 none []) "if y \x7b\x7d".toList macroOrigin

/-- The node of the `if` that the macro writes. -/
def generatedNode : Node :=
  .ifThen ⟨10, 17, macroOrigin⟩ (some (.path ⟨13, 14, macroOrigin⟩ ["y"])) (some (.block ⟨15, 17, macroOrigin⟩ []))
    none

/-- The account of that node. -/
def generatedAccount : Account :=
  .rule generatedSnippet (.expr (emptyIf 1))
    [.rule generatedSnippet (.block (emptyBody 6)) [] (.block ⟨15, 17, macroOrigin⟩ []),
      .rule generatedSnippet (.expr (letterAt 4)) [] (.path ⟨13, 14, macroOrigin⟩ ["y"])] generatedNode

/-- The node of the invocation under `?`. -/
def askedNode : Node := generatedNode.withSpan ⟨7, 19, .root⟩

/-- The node of the body that is written by hand. -/
def askedBodyNode : Node := .block ⟨5, 21, .root⟩ [.stmt ⟨7, 19, .root⟩ .expr askedNode]

/-- The account of that node. -/
def askedBodyAccount : Account :=
  .rule askedSnippet (.block askedBody)
    [.rule askedSnippet (.stmt askedTry)
      [.rule askedSnippet (.expr askedTry) [.expansion askedSnippet asked macroOrigin generatedAccount] askedNode]
      (.stmt ⟨7, 19, .root⟩ .expr askedNode)] askedBodyNode

/-- The node of the `if` that is written by hand. -/
def handwrittenNode : Node :=
  .ifThen ⟨0, 21, .root⟩ (some (.path ⟨3, 4, .root⟩ ["x"])) (some askedBodyNode) none

/-- The account of the file. -/
def questionAccount : Account :=
  .rule askedSnippet (.block (wrapping 24 handwrittenStmt))
    [.rule askedSnippet (.stmt handwrittenStmt)
      [.rule askedSnippet (.expr handwritten)
        [askedBodyAccount, .rule askedSnippet (.expr (letterAt 4)) [] (.path ⟨3, 4, .root⟩ ["x"])] handwrittenNode]
      (.stmt ⟨0, 21, .root⟩ .expr handwrittenNode)]
    (.block ⟨0, 23, .root⟩ [.stmt ⟨0, 21, .root⟩ .expr handwrittenNode])

theorem reads_generated :
    Reads questionParser [] endurance generatedSnippet [.expr (emptyIf 1)] 2 [generatedAccount] 2 := by
  have hbody : Reads questionParser [] endurance generatedSnippet [.block (emptyBody 6)] 2 [_] 2 :=
    .step rfl rfl .nil rfl
  have hcond : Reads questionParser [] endurance generatedSnippet [.expr (letterAt 4)] 2 [_] 2 :=
    .step rfl rfl .nil rfl
  exact .step rfl rfl (hbody.cons hcond) rfl

theorem reads_askedBody :
    Reads questionParser [] endurance askedSnippet [.block askedBody] 1 [askedBodyAccount] 2 := by
  have hname : macroName askedSnippet asked = .ok "m" := rfl
  have hopens : Opens [] askedSnippet asked "m" 1 generatedSnippet := ⟨_, _, rfl, rfl, rfl⟩
  have hsole : Sole (wrapping 10 generatedStmt) (emptyIf 1) := ⟨_, rfl, by decide, .inl ⟨rfl, rfl, [], rfl⟩⟩
  have hasked : Reads questionParser [] endurance askedSnippet [.expr asked] 1 [_] 2 :=
    .expansion rfl hname hopens rfl (.inl ⟨by decide, rfl⟩) hsole reads_generated .nil
  have htry : Reads questionParser [] endurance askedSnippet [.expr askedTry] 1 [_] 2 := .step rfl rfl hasked rfl
  exact .step rfl rfl (.step rfl rfl htry rfl) rfl

theorem reads_question : Reads questionParser [] endurance askedSnippet [.block (wrapping 24 handwrittenStmt)] 1
    [questionAccount] 2 := by
  have hcond : Reads questionParser [] endurance askedSnippet [.expr (letterAt 4)] 2 [_] 2 := .step rfl rfl .nil rfl
  have hif : Reads questionParser [] endurance askedSnippet [.expr handwritten] 1 [_] 2 :=
    .step rfl rfl (reads_askedBody.cons hcond) rfl
  exact .step rfl rfl (.step rfl rfl hif rfl) rfl

/-- The `if` that the macro writes gets the span and the origin of the text around the macro, so it is
taken over into the `if` that is written by hand. -/
theorem not_marked_question :
    1 ≤ ({} : Progress).nextOrigin ∧
    Reads questionParser [] endurance askedSnippet [.block (wrapping 24 handwrittenStmt)] 1 [questionAccount] 2 ∧
    (∃ after, read questionParser [] questionText "main.rs" {} =
      (.ok ⟨covered (some (wholeSpan questionText)) questionAccount.node, ⟨questionText, "main.rs"⟩⟩, after)) ∧
    Stands (.expansion askedSnippet asked macroOrigin generatedAccount) (some ⟨7, 19, .root⟩) questionAccount
      (some (wholeSpan questionText)) ∧
    (covered (some ⟨7, 19, .root⟩) generatedAccount.node).span.origin = .root ∧
    ¬Marked macroOrigin generatedAccount (covered (some ⟨7, 19, .root⟩) generatedAccount.node) ∧
    collapsibleIf.isCandidate ⟨0, covered (some ⟨7, 19, .root⟩) generatedAccount.node⟩ = .ok true ∧
    Collapsible.reports ⟨questionText, "main.rs"⟩ (covered (some (wholeSpan questionText)) questionAccount.node) =
      [⟨Collapsible.lint, ⟨0, 21, .root⟩, "this `if` statement can be collapsed",
        some ⟨⟨0, 21, .root⟩, "if x && y \x7b\x7d", .machineApplicable, "try"⟩⟩] := by
  refine ⟨by decide, reads_question, ?_, ?_, rfl, ?_, rfl, by decide +kernel⟩
  · obtain ⟨after, -, hread⟩ := read_of_reads "main.rs" {} rfl reads_question
    exact ⟨after, hread⟩
  · -- Five rules keep what is below them, the sixth one is that for `?`.
    iterate 5 refine .part rfl (.head _) ?_
    exact .respanned rfl .here
  · rintro (horigin | hopened)
    · cases horigin
    · have := ((numbers_of_reads reads_generated).2 _ (.head _) _ hopened).1
      revert this
      decide

end Question

end Reader

end NestLint
