import NestLint.Proofs.Lint.Reports

/-!
# What the two patterns match

Each of the two patterns of the pass stands for a shape of nodes. It is matched by every node of its shape, whatever
the other slots of the node hold, and by no other node, and what it captures are the parts that the shape names. The
shapes tell an `if` without `else` from a conditional with one, so no node has both.

The patterns are those of `CollapsibleIf`, and a match is one of `match_pattern`.

* `IsNestedIf`, `IsNestedElse`: the shapes;
* `NestedIf.parts`, `NestedElse.parts`: what is captured;
* `match?_iff_shape`: the patterns against the shapes.
-/

namespace NestLint

namespace Collapsible

/-- A block of one statement, which is an expression with or without a semicolon. -/
structure IsSole (block stmt node : Site) : Prop where
  stmts : block.stmts? = some [stmt]
  form : ∃ form, stmt.stmtParts? = some (form, node) ∧ (form = .expr ∨ form = .semi)

/-- An `if` without `else` whose body is a block of one statement, which is an `if` without `else`. -/
structure IsNestedIf (s : Site) (n : NestedIf) : Prop where
  outer : s.ifParts? = some (n.cond, some n.body, none)
  sole : ∃ stmt, IsSole n.body stmt n.inner
  inner : n.inner.ifParts? = some (n.innerCond, n.content, none)

/-- A conditional whose `else` is a block of one statement, which is a conditional. -/
structure IsNestedElse (s : Site) (n : NestedElse) : Prop where
  outer : (∃ cond body, s.ifParts? = some (cond, body, some n.block)) ∨
    ∃ pat scrutinee body, s.ifLetParts? = some (pat, scrutinee, body, some n.block)
  sole : IsSole n.block n.stmt n.nested
  nested : n.nested.kind = .ifThen ∨ n.nested.kind = .ifLet

/-- The names that are given, each with its part. A part that is missing in the tree is not captured. -/
def NestedIf.parts (n : NestedIf) : Captures Site :=
  [("check", n.cond), ("check_inner", n.innerCond), ("content", n.content), ("inner", some n.inner),
    ("then", some n.body)].filter fun entry => entry.2.isSome

/-- The names that are given, each with its part. -/
def NestedElse.parts (n : NestedElse) : Captures Site :=
  [("else_", some n.nested), ("block_inner", some n.stmt), ("block", some n.block)]

theorem NestedIf.captures_eq_parts (n : NestedIf) : n.captures = n.parts := by
  obtain ⟨cond, body, inner, innerCond, content⟩ := n
  cases cond <;> cases innerCond <;> cases content <;> rfl

theorem NestedElse.captures_eq_parts (n : NestedElse) : n.captures = n.parts := rfl

/-! ## The shapes, part by part -/

theorem exprPart?_eq_some {stmt node : Site} :
    exprPart? stmt = some node ↔ ∃ form, stmt.stmtParts? = some (form, node) ∧ (form = .expr ∨ form = .semi) := by
  simp [exprPart?, Option.bind_eq_some_iff]

theorem sole?_eq_some {block stmt node : Site} : sole? block = some (stmt, node) ↔ IsSole block stmt node := by
  constructor
  · intro h
    rw [sole?] at h
    split at h
    · rename_i stmt' hstmts
      obtain ⟨node', hpart, heq⟩ := Option.map_eq_some_iff.1 h
      obtain ⟨rfl, rfl⟩ := Prod.mk.inj heq
      exact ⟨hstmts, exprPart?_eq_some.1 hpart⟩
    · cases h
  · rintro ⟨hstmts, hform⟩
    rw [sole?, hstmts]
    exact Option.map_eq_some_iff.2 ⟨node, exprPart?_eq_some.2 hform, rfl⟩

theorem nestedIf?_eq_some {s : Site} {n : NestedIf} : nestedIf? s = some n ↔ IsNestedIf s n := by
  constructor
  · intro h
    obtain ⟨⟨cond, body?, els⟩, houter, hrest⟩ := Option.bind_eq_some_iff.1 h
    obtain ⟨body, hbody, hrest⟩ := Option.bind_eq_some_iff.1 hrest
    obtain ⟨⟨stmt, inner⟩, hsole, hrest⟩ := Option.bind_eq_some_iff.1 hrest
    obtain ⟨⟨innerCond, content, innerEls⟩, hinner, hrest⟩ := Option.bind_eq_some_iff.1 hrest
    obtain ⟨hnone, hparts⟩ := Option.ite_none_right_eq_some.1 hrest
    simp only [Bool.and_eq_true, Option.isNone_iff_eq_none] at hnone
    obtain ⟨rfl, rfl⟩ := hnone
    obtain rfl := Option.some.inj hparts
    exact ⟨by rw [houter, ← hbody], ⟨stmt, sole?_eq_some.1 hsole⟩, hinner⟩
  · rintro ⟨houter, ⟨stmt, hsole⟩, hinner⟩
    simp [nestedIf?, houter, sole?_eq_some.2 hsole, hinner]

theorem elsePart?_eq_some {s block : Site} :
    elsePart? s = some block ↔ (∃ cond body, s.ifParts? = some (cond, body, some block)) ∨
      ∃ pat scrutinee body, s.ifLetParts? = some (pat, scrutinee, body, some block) := by
  obtain ⟨index, node⟩ := s
  cases node with
  | ifThen span cond body els => simp [elsePart?, Site.ifParts?, Site.ifLetParts?]
  | ifLet span pat scrutinee body els => simp [elsePart?, Site.ifParts?, Site.ifLetParts?]
  | _ => simp [elsePart?, Site.ifParts?, Site.ifLetParts?]

theorem conditionalBlock?_eq_some {block : Site} {n : NestedElse} :
    conditionalBlock? block = some n ↔
      n.block = block ∧ IsSole block n.stmt n.nested ∧ (n.nested.kind = .ifThen ∨ n.nested.kind = .ifLet) := by
  constructor
  · intro h
    obtain ⟨⟨stmt, nested⟩, hsole, hrest⟩ := Option.bind_eq_some_iff.1 h
    obtain ⟨hkind, hparts⟩ := Option.ite_none_right_eq_some.1 hrest
    obtain rfl := Option.some.inj hparts
    exact ⟨rfl, sole?_eq_some.1 hsole, by simpa [Node.isConditional, Site.kind] using hkind⟩
  · rintro ⟨rfl, hsole, hkind⟩
    have hconditional : n.nested.node.isConditional := by simpa [Node.isConditional, Site.kind] using hkind
    rw [conditionalBlock?, sole?_eq_some.2 hsole, Option.bind_some]
    exact if_pos hconditional

theorem nestedElse?_eq_some {s : Site} {n : NestedElse} : nestedElse? s = some n ↔ IsNestedElse s n := by
  rw [nestedElse?, Option.bind_eq_some_iff]
  constructor
  · rintro ⟨block, hels, hblock⟩
    obtain ⟨rfl, hsole, hnested⟩ := conditionalBlock?_eq_some.1 hblock
    exact ⟨elsePart?_eq_some.1 hels, hsole, hnested⟩
  · rintro ⟨houter, hsole, hnested⟩
    exact ⟨n.block, elsePart?_eq_some.2 houter, conditionalBlock?_eq_some.2 ⟨rfl, hsole, hnested⟩⟩

/-! ## The patterns -/

/-- On every node the first pattern captures the parts of an `if` that is the only thing in an `if`, and the second one
those of a conditional that is the only thing in an `else`. On a node of another shape they fail, neither of them ever
breaks off, and no node is matched by both. -/
theorem match?_iff_shape (s : Site) :
    (∀ c, nestedIf.match? (some s) = some c ↔ ∃ n, IsNestedIf s n ∧ c = n.parts) ∧
      (∀ c, nestedElse.match? (some s) = some c ↔ ∃ n, IsNestedElse s n ∧ c = n.parts) ∧
      ((nestedIf.check (some s) []).verdict.lack? = none ∧ (nestedElse.check (some s) []).verdict.lack? = none) ∧
      (nestedIf.match? (some s) = none ∨ nestedElse.match? (some s) = none) := by
  have hif : nestedIf.isCheckable := rfl
  have helse : nestedElse.isCheckable := rfl
  have hmatchIf : nestedIf.match? (some s) = (nestedIf? s).map NestedIf.captures := by
    rw [(Pattern.check_iff_eval hif (some s) []).2.2, eval_nestedIf]
  have hmatchElse : nestedElse.match? (some s) = (nestedElse? s).map NestedElse.captures := by
    rw [(Pattern.check_iff_eval helse (some s) []).2.2, eval_nestedElse]
  refine ⟨fun c => ?_, fun c => ?_, ⟨?_, ?_⟩, ?_⟩
  · rw [hmatchIf, Option.map_eq_some_iff]
    exact exists_congr fun n => and_congr nestedIf?_eq_some (by rw [n.captures_eq_parts, eq_comm])
  · rw [hmatchElse, Option.map_eq_some_iff]
    exact exists_congr fun n => and_congr nestedElse?_eq_some (by rw [n.captures_eq_parts, eq_comm])
  · exact (Pattern.check_agrees hif (some s) []).lack?
  · exact (Pattern.check_agrees helse (some s) []).lack?
  · rw [hmatchIf, hmatchElse, Option.map_eq_none_iff, Option.map_eq_none_iff]
    cases hnested : nestedIf? s with
    | none => exact .inl rfl
    | some n => exact .inr (nestedElse?_of_nestedIf? hnested)

end Collapsible

end NestLint
