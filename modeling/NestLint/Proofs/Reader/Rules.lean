import NestLint.Proofs.Reader.Branches

/-!
# All rules read what the walk finds

With ranges, statements and the constructs that are looked through, every rule reads just the
conditionals below its node. The rule for a binding leaves out the block behind `else`, which is why
such blocks are left out of what a goal holds. All that is read is made use of.

* `covers_of_assemble`: every rule that can be followed;
* `lowered_of_isMacro`: macro invocations;
* `kept_perm`: what is made use of.
-/

namespace NestLint

namespace Reader

open Concrete

section Rules

variable {s : Snippet} {c : Concrete} {ms : List Node} {n : Node}

/-! ## Ranges -/

/-- The bounds of a range are what the walk passes into. -/
theorem map_fst_rangeBounds (seen : Bool) {cs : List Concrete}
    (h : ∀ d ∈ cs, (d.named && !d.isComment) = (enters [] d && !rangeSigns.contains d.type)) :
    (rangeBounds seen cs).map Prod.fst = cs.filter (enters []) := by
  induction cs generalizing seen with
  | nil => rfl
  | cons d rest ih =>
    have hd := h d (.head _)
    have hrest (seen : Bool) := ih seen fun e he => h e (.tail _ he)
    rw [rangeBounds, List.filter_cons]
    cases hsign : rangeSigns.contains d.type with
    | true =>
      have hnot : enters [] d = false := by
        rw [hsign, Bool.not_true, Bool.and_false] at hd
        rw [enters_nil, isPart, hd]
        rfl
      rw [if_pos rfl, hnot, if_neg Bool.false_ne_true, hrest]
    | false =>
      rw [hsign, Bool.not_false, Bool.and_true] at hd
      rw [if_neg Bool.false_ne_true, hd]
      cases enters [] d with
      | true => rw [if_pos rfl, if_pos rfl, List.map_cons, hrest]
      | false => rw [if_neg Bool.false_ne_true, if_neg Bool.false_ne_true, hrest]

theorem covers_rangePlan (h : c.Grammatical) (hc : c.type = "range_expression") :
    Covers (rangePlan s c).parts c.loweredBelow := by
  have hplain : c.Plain := plain_of_mem ["range_expression"] (List.mem_singleton.2 hc) (by decide)
  have hbounds := map_fst_rangeBounds false (h.regular.range hc).1
  have hparts : (rangePlan s c).parts = (c.entered []).map Goal.expr := by
    show (rangeBounds false c.children).map (fun bound => Goal.expr bound.1) = _
    rw [entered, ← hbounds, List.map_map]
    rfl
  rw [hparts]
  constructor
  · intro g hg
    obtain ⟨d, hd, rfl⟩ := List.mem_map.1 hg
    exact h.child (List.mem_filter.1 hd).1
  · rw [lowered_expr, hplain.loweredBelow]

/-! ## Everything else -/

/-- What is looked through is covered by the expressions that are found. -/
theorem covers_targets (h : c.Grammatical) (hc : c.Plain) : Covers (c.targets.map .expr) c.loweredBelow := by
  constructor
  · intro g hg
    obtain ⟨d, hd, rfl⟩ := List.mem_map.1 hg
    exact grammatical_of_mem_targets c h hd
  · rw [lowered_expr, targets_lowered c h hc]

/-- Nothing is read for a literal or a name. -/
theorem covers_textPlan {f : List Char → Node} (h : c.Grammatical) (hc : c.type ∈ literalTypes ++ pathTypes) :
    Covers (textPlan s c f).parts c.loweredBelow := by
  rw [parts_textPlan, h.regular.text hc]
  exact ⟨nofun, .refl _⟩

theorem covers_blockExpr (h : c.Grammatical) (hc : c.type = "block") : Covers [.block c] c.loweredBelow := by
  constructor
  · intro g hg
    rw [List.mem_singleton.1 hg]
    exact ⟨h, hc⟩
  · rw [List.flatMap_singleton]
    exact .refl _

theorem covers_exprPlan (h : c.Grammatical) (hinvoked : c.type ≠ "macro_invocation")
    (hn : (exprPlan s c).assemble ms = some n) : Covers (exprPlan s c).parts c.loweredBelow := by
  generalize hplan : exprPlan s c = plan at hn ⊢
  unfold exprPlan at hplan
  split at hplan
  · subst hplan
    exact covers_textPlan h (List.mem_append_left _ (List.contains_iff_mem.1 ‹_›))
  split at hplan
  · subst hplan
    exact covers_textPlan h (List.mem_append_right _ (List.contains_iff_mem.1 ‹_›))
  -- One case for each construct, in the order of the rules; the last one is for everything looked through.
  split at hplan <;> subst hplan <;> rename_i hc
  · exact covers_ifPlan h hc hn
  · exact covers_ifLetPlan h hc hn
  · exact covers_blockExpr h hc
  · exact covers_binaryPlan h hc hn
  · exact covers_unaryPlan h hc hn
  · exact covers_aroundPlan h hc (by decide) rfl hn
  · exact covers_firstPlan h (by rw [hc]; decide) hn
  · exact covers_callPlan h hc hn
  · exact covers_valuePlan h hc (by decide) rfl hn
  · exact covers_aroundPlan h hc (by decide) rfl hn
  · exact covers_valuePlan h hc (by decide) rfl hn
  · exact covers_sidesPlan h hc (by decide) rfl hn
  · exact covers_compoundPlan h hc hn
  · exact covers_rangePlan h hc
  · exact covers_firstPlan h (by rw [hc]; decide) hn
  · exact covers_closurePlan h hc hn
  · refine covers_targets h (plain_of_not_mem fun hmem => ?_)
    simp only [skippingTypes, List.cons_append, List.nil_append, List.mem_cons, List.not_mem_nil, or_false] at hmem
    rcases hmem with hmem | hmem | hmem | hmem | hmem | hmem | hmem
    all_goals contradiction

/-! ## Statements -/

/-- Of a binding only the value counts. -/
theorem loweredStmt_let (h : c.Grammatical) (hc : c.type = "let_declaration") :
    c.loweredStmt.Perm ((c.child? "value").toList.flatMap lowered) := by
  have hentered := flatMap_entered_perm (fun d => if d.field == some "alternative" then [] else lowered d)
    (h.regular.binding hc) (by decide) fun d hd => by rw [lowered_of_isHollow hd, ite_self]
  rw [loweredStmt, throughBinding, if_pos hc]
  refine hentered.trans (.of_eq ?_)
  have hvalue : (c.child? "value").toList.flatMap (fun d => if d.field == some "alternative" then [] else lowered d) =
      (c.child? "value").toList.flatMap lowered := by
    refine List.flatMap_congr fun d hd => ?_
    rw [(mem_of_child? (Option.mem_toList.1 hd)).2]
    rfl
  have hnone : (c.child? "alternative").toList.flatMap
      (fun d => if d.field == some "alternative" then [] else lowered d) = [] := by
    refine List.flatMap_eq_nil_iff.2 fun d hd => ?_
    rw [(mem_of_child? (Option.mem_toList.1 hd)).2]
    rfl
  rw [List.flatMap_cons, List.flatMap_singleton, hvalue, hnone, List.append_nil]

/-- The rule for a binding reads the value, and nothing of the block behind `else`. -/
theorem covers_let (h : c.Grammatical) (hc : c.type = "let_declaration") :
    Covers ((c.child? "value").toList.map .expr) c.loweredStmt := by
  constructor
  · intro g hg
    obtain ⟨d, hd, rfl⟩ := List.mem_map.1 hg
    exact h.child (mem_of_child? (Option.mem_toList.1 hd)).1
  · rw [lowered_expr]
    exact (loweredStmt_let h hc).symm

theorem covers_stmtPlan (h : c.Grammatical) (hfield : c.field = none) (hn : (stmtPlan s c).assemble ms = some n) :
    Covers (stmtPlan s c).parts c.loweredStmt := by
  simp only [stmtPlan] at hn ⊢
  by_cases hlet : c.type = "let_declaration"
  · have hcovers := covers_let h hlet
    rw [if_pos hlet] at hn ⊢
    cases hpattern : c.child? "pattern" with
    | none =>
      rw [hpattern] at hn
      cases hn
    | some pattern =>
      cases hvalue : c.child? "value" with
      | none =>
        rw [hvalue] at hcovers
        exact hcovers
      | some value =>
        rw [hvalue] at hcovers
        exact hcovers
  · rw [if_neg hlet] at hn ⊢
    rw [loweredStmt_of_ne hlet hfield]
    by_cases hstmt : c.type = "expression_statement"
    · have hsingle : c.type ∈ singleTypes := by
        rw [hstmt]
        decide
      rw [if_pos hstmt] at hn ⊢
      rw [lowered_of_not_isConditional (not_isConditional_of_single hsingle)]
      cases hparts : c.parts with
      | nil =>
        rw [hparts] at hn
        cases hn
      | cons inner rest => exact covers_of_single h hsingle hparts
    · rw [if_neg hstmt] at hn ⊢
      cases hexpr : c.isExpr with
      | true =>
        rw [if_pos rfl]
        constructor
        · intro g hg
          rw [List.mem_singleton.1 hg]
          exact h
        · rw [Plan.parts, List.flatMap_singleton]
          exact .refl _
      | false =>
        rw [if_neg Bool.false_ne_true, lowered_of_not_isConditional (isConditional_of_not_isExpr hexpr)]
        exact covers_targets h (plain_of_not_isExpr hexpr)

/-! ## All rules -/

/-- A goal that is a conditional itself. -/
def Goal.own : Goal → List Concrete
  | .expr c => Concrete.own c
  | _ => []

/-- Every rule that can be followed reads just the conditionals below its node. -/
theorem covers_of_assemble {g : Goal} (h : g.Fits) (hinvoked : g.isMacro = false)
    (hn : (plan s g).assemble ms = some n) : ∃ cs, Covers (plan s g).parts cs ∧ g.lowered = g.own ++ cs := by
  cases g with
  | block c => exact ⟨c.loweredBelow, covers_blockPlan h.1 h.2, rfl⟩
  | expr c =>
    have hne : c.type ≠ "macro_invocation" := beq_eq_false_iff_ne.1 hinvoked
    exact ⟨c.loweredBelow, covers_exprPlan h hne hn, rfl⟩
  | stmt c => exact ⟨c.loweredStmt, covers_stmtPlan h.1 h.2 hn, rfl⟩

/-- Nothing is read of a macro invocation that is not expanded, and the walk does not pass into it. -/
theorem lowered_of_isMacro (hc : c.type = "macro_invocation") : (Goal.expr c).lowered = [] := by
  have hown : c.isConditional = false := isConditional_of_ne (by rw [hc]; decide) (by rw [hc]; decide)
  have hblock : c.type ≠ "block" := by
    rw [hc]
    decide
  rw [Goal.lowered, lowered_of_not_isConditional hown, loweredBelow_of_ne hblock, inside, if_neg hblock, if_pos hc]
  rfl

/-- If at most one bound stands on either side, both are kept. -/
theorem pickBound_perm {α : Type} {sides : List Bool} (hsides : sides.Pairwise (· ≠ ·)) {xs : List α}
    (hlength : xs.length = sides.length) :
    ((pickBound sides false xs).toList ++ (pickBound sides true xs).toList).Perm xs := by
  match sides, xs with
  | [], [] => exact .refl _
  | [false], [x] => exact .refl _
  | [true], [x] => exact .refl _
  | [false, true], [x, y] => exact .refl _
  | [true, false], [x, y] => exact .swap ..
  | [false, false], _ => simp at hsides
  | [true, true], _ => simp at hsides
  | a :: b :: d :: rest, _ =>
    rw [List.pairwise_cons, List.pairwise_cons] at hsides
    have hab := hsides.1 b (by simp)
    have had := hsides.1 d (by simp)
    have hbd := hsides.2.1 d (by simp)
    cases a <;> cases b <;> cases d <;> contradiction

/-- The rules make use of all that is read for them. -/
theorem kept_perm {α : Type} {g : Goal} (h : g.Fits) {xs : List α} (hlength : xs.length = (plan s g).parts.length) :
    (g.kept xs).Perm xs := by
  cases g with
  | block c => exact .refl _
  | stmt c => exact .refl _
  | expr c =>
    rw [Goal.kept]
    by_cases hc : c.type = "range_expression"
    · rw [if_pos hc]
      refine pickBound_perm (h.regular.range hc).2 ?_
      have hparts : (plan s (.expr c)).parts = (rangePlan s c).parts := by
        show (exprPlan s c).parts = _
        rw [exprPlan, hc]
        rfl
      rw [hlength, hparts, List.length_map]
      exact List.length_map _
    · rw [if_neg hc]

end Rules

end Reader

end NestLint
