import NestLint.Lint.Session
import NestLint.Proofs.Lint.Forms
import NestLint.Proofs.Match.Scheme
import NestLint.Proofs.Tree.Walk

/-!
# What the pass reports

What is reported on a tree can be said without patterns, captures and handlers: it is a function of
each expression alone, and the findings stand in the order of the expressions, inner ones first.

* `joinReport?`, `elseReport?`: the finding of either form on one expression;
* `reportsOn`, `reports`: all findings on an expression and on a tree;
* `checkScheme_collapsibleIf`: the pass gives exactly these, also for trees with missing parts and for
  texts that do not belong to the tree.
-/

namespace NestLint

namespace Collapsible

/-! ## The findings as a function of the tree -/

/-- The expression that a statement consists of, with or without a semicolon. -/
def stmtExpr? : Node → Option Node
  | .stmt _ .expr node | .stmt _ .semi node => some node
  | _ => none

/-- The expression that a block consists of. -/
def soleExpr? : Node → Option Node
  | .block _ [stmt] => stmtExpr? stmt
  | _ => none

/-- The expression that a block consists of is below the block. -/
theorem mem_nodes_of_soleExpr? {block n : Node} (h : soleExpr? block = some n) : n ∈ block.nodes := by
  unfold soleExpr? at h
  split at h
  · rename_i span stmt
    have hn : n ∈ stmt.nodes := by
      unfold stmtExpr? at h
      split at h
      · cases h
        exact Node.mem_nodes_of_mem_children (.head _)
      · cases h
        exact Node.mem_nodes_of_mem_children (.head _)
      · cases h
    exact Node.mem_nodes_of_mem_child_nodes (.head _) hn
  · cases h

/-- The finding on an `if` with a condition and a body around an `if` with a condition and a body. There
is none if a comment would be lost, or if one of the two comes from another macro expansion. -/
def joinFinding? (source : SourceText) (span innerSpan : Span) (cond body innerCond content : Node) :
    Option Diagnostic :=
  if startsWithComment source body.span || !span.sameOrigin innerSpan then none
  else
    let condition := (Operand.ofNode source cond "..").and (Operand.ofNode source innerCond "..")
    let replacement := "if " ++ condition.text ++ " " ++ source.snippetBlock content.span ".."
    some ⟨lint, span, "this `if` statement can be collapsed", some ⟨span, replacement, .machineApplicable, "try"⟩⟩

/-- The finding on an `if` whose body is nothing but an `if`, both without `else`. -/
def joinReport? (source : SourceText) : Node → Option Diagnostic
  | .ifThen span (some cond) (some body) none =>
    match soleExpr? body with
    | some (.ifThen innerSpan (some innerCond) (some content) none) =>
      joinFinding? source span innerSpan cond body innerCond content
    | _ => none
  | _ => none

/-- The `else` of a conditional. -/
def elseOf? : Node → Option Node
  | .ifThen _ _ _ els | .ifLet _ _ _ _ els => els
  | _ => none

/-- The finding on an `else` with a conditional inside. There is none if a comment would be lost, or if
a macro wrote the conditional. A text that cannot be read is not safe to be put in. -/
def elseFinding? (source : SourceText) (block nested : Node) : Option Diagnostic :=
  if startsWithComment source block.span || nested.span.fromExpansion then none
  else
    let rating := if source.readable nested.span then .machineApplicable else .unspecified
    some ⟨lint, block.span, "this `else \x7b if .. \x7d` block can be collapsed",
      some ⟨block.span, source.snippetBlock nested.span "..", rating, "try"⟩⟩

/-- The finding on a conditional whose `else` is nothing but a conditional. -/
def elseReport? (source : SourceText) (e : Node) : Option Diagnostic :=
  (elseOf? e).bind fun block =>
    (soleExpr? block).bind fun nested =>
      if nested.isConditional then elseFinding? source block nested else none

/-- The findings on an expression. There are none on what a macro wrote. -/
def reportsOn (source : SourceText) (e : Node) : List Diagnostic :=
  if e.span.fromExpansion then [] else (joinReport? source e).toList ++ (elseReport? source e).toList

/-- The findings on a tree. -/
def reports (source : SourceText) (root : Node) : List Diagnostic := root.expressions.flatMap (reportsOn source)

/-! ## Forms of nodes and of sites -/

theorem stmtExpr?_eq (s : Site) : stmtExpr? s.node = (exprPart? s).map Site.node := by
  obtain ⟨index, node⟩ := s
  cases node with
  | stmt span form node => cases form <;> rfl
  | _ => rfl

theorem soleExpr?_eq (s : Site) : soleExpr? s.node = (sole? s).map fun pair => pair.2.node := by
  obtain ⟨index, node⟩ := s
  cases node with
  | block span stmts =>
    match stmts with
    | [] => rfl
    | [stmt] =>
      have hsole : sole? ⟨index, .block span [stmt]⟩ =
        (exprPart? ⟨index + 1, stmt⟩).map fun node => (⟨index + 1, stmt⟩, node) := rfl
      rw [hsole, Option.map_map]
      exact stmtExpr?_eq ⟨index + 1, stmt⟩
    | stmt :: stmt' :: rest => rfl
  | _ => rfl

/-- The finding on two conditionals that can be joined. -/
def NestedIf.report? (source : SourceText) (s : Site) (n : NestedIf) : Option Diagnostic :=
  match n.cond, n.innerCond, n.content with
  | some cond, some innerCond, some content =>
    joinFinding? source s.span n.inner.span cond.node n.body.node innerCond.node content.node
  | _, _, _ => none

theorem joinReport?_eq (source : SourceText) (s : Site) :
    joinReport? source s.node = (nestedIf? s).bind (NestedIf.report? source s) := by
  obtain ⟨index, node⟩ := s
  cases node with
  | ifThen span cond body els =>
    cases body with
    | none => cases cond <;> rfl
    | some body =>
      have hsole := soleExpr?_eq ⟨Site.behind (index + 1) cond, body⟩
      rw [nestedIf?]
      simp only [Site.ifParts?, Option.bind_some, Site.partAt, Option.map_some]
      cases hpair : sole? ⟨Site.behind (index + 1) cond, body⟩ with
      | none =>
        rw [hpair] at hsole
        cases cond <;> cases els <;> simp [joinReport?, hsole]
      | some pair =>
        obtain ⟨stmt, ⟨i, inner⟩⟩ := pair
        rw [hpair, Option.map_some] at hsole
        cases els with
        | some els =>
          have hels : ∀ cond, joinReport? source (.ifThen span cond (some body) (some els)) = none := by
            intro cond
            cases cond <;> rfl
          simp [hels]
        | none =>
          cases inner with
          | ifThen innerSpan innerCond content innerEls =>
            cases innerEls with
            | some innerEls => cases cond <;> simp [joinReport?, hsole]
            | none =>
              cases cond <;> cases innerCond <;> cases content <;>
                simp [joinReport?, hsole, NestedIf.report?, Site.span, Node.span]
          | _ => cases cond <;> simp [joinReport?, hsole]
  | _ => rfl

/-- The finding on an `else` that is nothing but a conditional. -/
def NestedElse.report? (source : SourceText) (n : NestedElse) : Option Diagnostic :=
  elseFinding? source n.block.node n.nested.node

theorem elseOf?_eq (s : Site) : elseOf? s.node = (elsePart? s).map Site.node := by
  obtain ⟨index, node⟩ := s
  cases node with
  | ifThen span cond body els => cases els <;> rfl
  | ifLet span pat scrutinee body els => cases els <;> rfl
  | _ => rfl

theorem elseReport?_eq (source : SourceText) (s : Site) :
    elseReport? source s.node = (nestedElse? s).bind (NestedElse.report? source) := by
  rw [elseReport?, nestedElse?, elseOf?_eq]
  cases elsePart? s with
  | none => rfl
  | some block =>
    rw [Option.map_some, Option.bind_some, Option.bind_some, soleExpr?_eq, conditionalBlock?]
    cases sole? block with
    | none => rfl
    | some pair =>
      obtain ⟨stmt, nested⟩ := pair
      simp only [Option.map_some, Option.bind_some]
      by_cases h : nested.node.isConditional
      · rw [if_pos h, if_pos h, Option.bind_some]
        rfl
      · rw [if_neg h, if_neg h, Option.bind_none]

/-! ## The handlers -/

theorem joinFinding?_of_guard {source : SourceText} {span innerSpan : Span} {cond body innerCond content : Node}
    (h : startsWithComment source body.span || !span.sameOrigin innerSpan) :
    joinFinding? source span innerSpan cond body innerCond content = none := if_pos h

theorem joinFinding?_of_not_guard {source : SourceText} {span innerSpan : Span} {cond body innerCond content : Node}
    (h : ¬(startsWithComment source body.span || !span.sameOrigin innerSpan)) :
    joinFinding? source span innerSpan cond body innerCond content =
      some ⟨lint, span, "this `if` statement can be collapsed",
        some ⟨span,
          "if " ++ ((Operand.ofNode source cond "..").and (Operand.ofNode source innerCond "..")).text ++ " " ++
            source.snippetBlock content.span "..", .machineApplicable, "try"⟩⟩ := if_neg h

/-- A guard that throws the match away leaves no finding, whatever the conditions are. -/
theorem NestedIf.report?_of_guard {source : SourceText} {s : Site} {n : NestedIf}
    (h : startsWithComment source n.body.span || !s.span.sameOrigin n.inner.span) : n.report? source s = none := by
  rw [NestedIf.report?]
  split
  · exact joinFinding?_of_guard h
  · rfl

theorem yields_handleNestedIf (source : SourceText) (s : Site) (n : NestedIf) :
    Scheme.Yields (handleNestedIf lint source s n.body n.inner n.cond n.innerCond n.content).2
      ((n.report? source s).map .diagnostic) := by
  rw [handleNestedIf, Pass.after]
  by_cases hcomment : startsWithComment source n.body.span
  · rw [NestedIf.report?_of_guard (by rw [hcomment, Bool.true_or]), if_pos hcomment]
    exact .nothing
  · rw [if_neg hcomment]
    by_cases hygiene : s.span.sameOrigin n.inner.span
    · have hguard : ¬(startsWithComment source n.body.node.span || !s.span.sameOrigin n.inner.span) := by
        rw [Bool.or_eq_true, Bool.not_eq_true']
        exact fun h => h.elim hcomment fun h => absurd (hygiene.symm.trans h) (by decide)
      rw [if_neg (by simp [hygiene]), NestedIf.report?]
      cases n.cond with
      | none => exact .fault _
      | some cond =>
        cases n.innerCond with
        | none => exact .fault _
        | some innerCond =>
          cases n.content with
          | none => exact .fault _
          | some content =>
            simp only
            rw [joinFinding?_of_not_guard hguard]
            exact .result _
    · rw [NestedIf.report?_of_guard (by simp [hygiene]), if_pos (by simp [hygiene])]
      exact .nothing

theorem handle_nestedIf (l : Lint) (source : SourceText) (s : Site) (n : NestedIf) :
    handle l source 0 s n.captures =
      Pass.after [.told (.matched (.text l.name))]
        (handleNestedIf l source s n.body n.inner n.cond n.innerCond n.content) := by
  have hthen : n.captures.item? "then" = some n.body := by simp [NestedIf.captures, Captures.item?_keep]
  have hinner : n.captures.item? "inner" = some n.inner := by simp [NestedIf.captures, Captures.item?_keep]
  have hcond : n.captures.item? "check" = n.cond := by simp [NestedIf.captures, Captures.item?_keep, Captures.item?_nil]
  have hinnerCond : n.captures.item? "check_inner" = n.innerCond := by
    simp [NestedIf.captures, Captures.item?_keep, Captures.item?_nil]
  have hcontent : n.captures.item? "content" = n.content := by
    simp [NestedIf.captures, Captures.item?_keep, Captures.item?_nil]
  simp only [handle, hthen, hinner, hcond, hinnerCond, hcontent, if_true]

theorem yields_nestedIf (source : SourceText) (s : Site) (n : NestedIf) :
    Scheme.Yields (handle lint source 0 s n.captures).2 ((n.report? source s).map .diagnostic) := by
  simp only [handle_nestedIf, Pass.after]
  exact yields_handleNestedIf source s n

/-- A text that a macro did not write is rated by whether it can be read. -/
theorem ratedSnippetBlock_of_root {source : SourceText} {span : Span} (h : span.fromExpansion = false) (text : String) :
    source.ratedSnippetBlock span text .machineApplicable =
      (source.snippetBlock span text, if source.readable span then .machineApplicable else .unspecified) := by
  rw [SourceText.ratedSnippetBlock, SourceText.ratedSnippet, SourceText.snippetBlock, SourceText.snippet, h,
    SourceText.snippet?]
  by_cases hread : source.readable span
  · rw [if_pos hread, if_pos hread]
    rfl
  · rw [if_neg hread, if_neg hread]
    rfl

theorem elseFinding?_of_guard {source : SourceText} {block nested : Node}
    (h : startsWithComment source block.span || nested.span.fromExpansion) :
    elseFinding? source block nested = none := if_pos h

theorem elseFinding?_of_not_guard {source : SourceText} {block nested : Node}
    (h : ¬(startsWithComment source block.span || nested.span.fromExpansion)) :
    elseFinding? source block nested =
      some ⟨lint, block.span, "this `else \x7b if .. \x7d` block can be collapsed",
        some ⟨block.span, source.snippetBlock nested.span "..",
          if source.readable nested.span then .machineApplicable else .unspecified, "try"⟩⟩ := if_neg h

theorem yields_handleNestedElse (source : SourceText) (s block nested : Site) :
    Scheme.Yields (handleNestedElse lint source s block nested).2
      ((elseFinding? source block.node nested.node).map .diagnostic) := by
  rw [handleNestedElse, Pass.after]
  by_cases hcomment : startsWithComment source block.span
  · rw [elseFinding?_of_guard (by rw [Bool.or_eq_true]; exact .inl hcomment), if_pos hcomment]
    exact .nothing
  · rw [if_neg hcomment]
    by_cases hygiene : nested.span.fromExpansion
    · rw [elseFinding?_of_guard (by rw [Bool.or_eq_true]; exact .inr hygiene), if_pos hygiene]
      exact .nothing
    · have hguard : ¬(startsWithComment source block.node.span || nested.node.span.fromExpansion) := by
        rw [Bool.or_eq_true]
        exact fun h => h.elim hcomment hygiene
      rw [if_neg hygiene, ratedSnippetBlock_of_root (Bool.not_eq_true _ ▸ hygiene), elseFinding?_of_not_guard hguard]
      exact .result _

theorem handle_nestedElse (l : Lint) (source : SourceText) (s : Site) (n : NestedElse) :
    handle l source 1 s n.captures =
      Pass.after [.told (.matched (.text l.name))] (handleNestedElse l source s n.block n.nested) := by
  have hblock : n.captures.item? "block" = some n.block := by simp [NestedElse.captures, Captures.item?_keep]
  have hnested : n.captures.item? "else_" = some n.nested := by simp [NestedElse.captures, Captures.item?_keep]
  have hnumber : ¬(1 = 0) := by decide
  rw [handle, if_neg hnumber]
  simp only [hblock, hnested]

theorem yields_nestedElse (source : SourceText) (s : Site) (n : NestedElse) :
    Scheme.Yields (handle lint source 1 s n.captures).2 ((n.report? source).map .diagnostic) := by
  simp only [handle_nestedElse, Pass.after, NestedElse.report?]
  exact yields_handleNestedElse source s n.block n.nested

/-! ## The pass on an expression -/

/-- One form asks for an `else` and the other one forbids it. -/
theorem nestedElse?_of_nestedIf? {s : Site} {n : NestedIf} (h : nestedIf? s = some n) : nestedElse? s = none := by
  obtain ⟨index, node⟩ := s
  cases node with
  | ifThen span cond body els =>
    cases els with
    | none => rfl
    | some els => simp [nestedIf?, Site.ifParts?, Site.partAt] at h
  | _ => cases h

theorem reportsOn_of_not_conditional {source : SourceText} {s : Site} (h : s.node.isConditional = false) :
    reportsOn source s.node = [] := by
  obtain ⟨index, node⟩ := s
  cases node with
  | ifThen span cond body els => cases h
  | ifLet span pat scrutinee body els => cases h
  | _ => exact ite_self []

end Collapsible

open Collapsible

/-- What the patterns of the pass give on an expression, before anything is said about which
expressions are looked at. -/
theorem examineFrom_collapsibleIf (source : SourceText) (s : Site) :
    ((collapsibleIf.scheme source).examineFrom (some Finding.wanted) (some s) 0 collapsibleIf.patterns).2.toOption.getD
        [] =
      ((joinReport? source s.node).toList ++ (elseReport? source s.node).toList).map .diagnostic := by
  have hwanted : ∀ (d? : Option Diagnostic), ∀ f ∈ d?.map Finding.diagnostic, ∀ w ∈ some Finding.wanted, w.fits f := by
    intro d? f hf w hw
    obtain ⟨d, -, rfl⟩ := Option.map_eq_some_iff.1 hf
    cases hw
    rfl
  rw [joinReport?_eq, elseReport?_eq]
  show ((Scheme.examineFrom _ _ _ 0 [nestedIf, nestedElse]).2.toOption.getD []) = _
  cases hjoin : nestedIf? s with
  | none =>
    have hmeans : nestedIf.eval (some s) [] = none := by rw [eval_nestedIf, hjoin]; rfl
    rw [Scheme.examineFrom_of_none rfl hmeans, Nat.zero_add]
    cases helse : nestedElse? s with
    | none =>
      have hmeans' : nestedElse.eval (some s) [] = none := by rw [eval_nestedElse, helse]; rfl
      rw [Scheme.examineFrom_of_none rfl hmeans']
      rfl
    | some n =>
      have hmeans' : nestedElse.eval (some s) [] = some n.captures := by rw [eval_nestedElse, helse]; rfl
      have hyields : Scheme.Yields ((collapsibleIf.scheme source).handle 1 (some s) n.captures).2 _ :=
        yields_nestedElse source s n
      rw [Scheme.examineFrom_of_yields rfl hmeans' hyields (hwanted _) rfl rfl, Option.toList_map, Option.bind_none,
        Option.bind_some, Option.toList_none, List.nil_append]
  | some n =>
    have hmeans : nestedIf.eval (some s) [] = some n.captures := by rw [eval_nestedIf, hjoin]; rfl
    have helse := nestedElse?_of_nestedIf? hjoin
    have hmeans' : nestedElse.eval (some s) [] = none := by rw [eval_nestedElse, helse]; rfl
    have hyields : Scheme.Yields ((collapsibleIf.scheme source).handle 0 (some s) n.captures).2 _ :=
      yields_nestedIf source s n
    rw [Scheme.examineFrom_of_yields rfl hmeans hyields (hwanted _) rfl
      (Scheme.examineFrom_of_none rfl hmeans'), helse, Option.toList_map, Option.bind_none, Option.bind_some,
      Option.toList_none, List.append_nil]

theorem checkScheme_collapsibleIf {m : Matcher Occurrence Finding} (h : m.wanted = some Finding.wanted)
    (source : SourceText) (s : Site) :
    (m.checkScheme (collapsibleIf.scheme source) (some s)).2 = (reportsOn source s.node).map .diagnostic := by
  have haccepts : (collapsibleIf.scheme source).accepts (some s) =
    .ok (s.node.isConditional && !s.node.span.fromExpansion) := rfl
  rw [Matcher.checkScheme_results, h, Scheme.examine, haccepts]
  cases hcond : s.node.isConditional with
  | false =>
    rw [reportsOn_of_not_conditional hcond]
    rfl
  | true =>
    rw [reportsOn]
    cases hinvoked : s.node.span.fromExpansion with
    | true => rfl
    | false => exact examineFrom_collapsibleIf source s

/-! ## The pass on a tree -/

theorem filterMap_diagnostic (ds : List Diagnostic) :
    (ds.map Finding.diagnostic).filterMap Finding.diagnostic? = ds := by
  rw [List.filterMap_map]
  exact List.filterMap_some

/-- A session that runs this pass alone finds on every tree what there is to report, in order, whatever
the context is and wherever the findings go. -/
theorem findings_collapsibleIf (context : Context) (root : Node) (source : SourceText) (sink : Session.Sink) :
    (Session.check [collapsibleIf] context root source sink).1 = reports source root := by
  let m : Matcher Occurrence Finding := Matcher.ofList [collapsibleIf.scheme source] (some Finding.wanted)
  have hfound : (Session.check [collapsibleIf] context root source sink).1 =
    (m.matchTree root).2.filterMap Finding.diagnostic? := rfl
  have hsite : ∀ s, (m.checkSchemes (some s)).2 = (reportsOn source s.node).map .diagnostic := by
    intro s
    rw [Matcher.snd_checkSchemes, ← checkScheme_collapsibleIf (m := m) rfl source s]
    exact List.flatMap_singleton ..
  rw [hfound, Matcher.snd_matchTree, List.filterMap_flatMap, reports, ← Node.map_node_exprSites, List.flatMap_map]
  refine List.flatMap_congr fun s _ => ?_
  rw [hsite, filterMap_diagnostic]

end NestLint
