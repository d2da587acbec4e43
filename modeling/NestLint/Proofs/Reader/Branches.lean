import NestLint.Proofs.Reader.Coverage

/-!
# Conditionals and calls read what the walk finds

These are the rules that reach below the children of their node: an `if` reads the branch behind `else`
and what a `let` in its condition binds, and a call of a field reads what the field is accessed of.

* `covers_ifPlan`, `covers_ifLetPlan`: conditionals;
* `covers_callPlan`: calls.
-/

namespace NestLint

namespace Reader

open Concrete

section Rules

variable {s : Snippet} {c : Concrete} {ms : List Node} {n : Node}

/-! ## Conditionals -/

theorem isConditional_of_if (hc : c.type = "if_expression") : c.isConditional = true := by
  rw [Concrete.isConditional, hc]
  rfl

theorem isConditional_of_ifLet (hc : c.type = "if_let_expression") : c.isConditional = true := by
  rw [Concrete.isConditional, hc]
  rfl

theorem not_isConditional_of_block (hc : c.type = "block") : c.isConditional = false :=
  isConditional_of_ne (by rw [hc]; decide) (by rw [hc]; decide)

theorem not_isConditional_of_single (hc : c.type ∈ singleTypes) : c.isConditional = false := by
  have hall : ∀ type ∈ singleTypes, type ≠ "if_expression" ∧ type ≠ "if_let_expression" := by decide
  exact isConditional_of_ne (hall _ hc).1 (hall _ hc).2

/-- The body of a conditional is a block. -/
theorem fits_body {body : Concrete} (h : c.Grammatical) (hc : c.isConditional = true)
    (hbody : c.child? "consequence" = some body) :
    (Goal.block body).Fits ∧ (Goal.block body).lowered = body.lowered := by
  obtain ⟨hmem, hfield⟩ := mem_of_child? hbody
  have htype := h.regular.body hc body hmem hfield
  exact ⟨⟨h.child hmem, htype⟩, (lowered_of_not_isConditional (not_isConditional_of_block htype)).symm⟩

/-- Of what stands behind `else` the branch is read. -/
theorem fits_elseGoal? {els : Option Goal} (h : c.Grammatical) (hc : c.isConditional = true)
    (hels : elseGoal? (c.child? "alternative") = .ok els) :
    (∀ e ∈ els, e.Fits) ∧ els.toList.flatMap Goal.lowered = (c.child? "alternative").toList.flatMap lowered := by
  cases halt : c.child? "alternative" with
  | none =>
    rw [halt] at hels
    cases hels
    exact ⟨nofun, rfl⟩
  | some alt =>
    obtain ⟨hmem, hfield⟩ := mem_of_child? halt
    have hsingle : alt.type ∈ singleTypes := by
      rw [h.regular.orElse hc alt hmem hfield]
      decide
    have halt' := h.child hmem
    rw [halt] at hels
    simp only [elseGoal?] at hels
    cases hparts : alt.parts with
    | nil =>
      rw [hparts] at hels
      cases hels
    | cons branch rest =>
      rw [hparts] at hels
      cases hels
      have hbranch : branch ∈ alt.children := by
        refine mem_children_of_mem_parts ?_
        rw [hparts]
        exact .head _
      have hlowered : alt.lowered = branch.lowered := by
        rw [lowered_of_not_isConditional (not_isConditional_of_single hsingle)]
        exact loweredBelow_of_single halt'.regular hsingle hparts
      rw [Option.toList_some, Option.toList_some, List.flatMap_singleton, List.flatMap_singleton, hlowered]
      by_cases hblock : branch.type = "block"
      · rw [if_pos hblock]
        refine ⟨?_, (lowered_of_not_isConditional (not_isConditional_of_block hblock)).symm⟩
        rintro _ ⟨⟩
        exact ⟨halt'.child hbranch, hblock⟩
      · rw [if_neg hblock]
        refine ⟨?_, rfl⟩
        rintro _ ⟨⟩
        exact halt'.child hbranch

/-- A conditional is covered by what is tested, the body and what stands behind `else`. -/
theorem covers_conditional {body test : Concrete} {els : Option Goal} (h : c.Grammatical)
    (hc : c.isConditional = true) (hbody : c.child? "consequence" = some body)
    (hels : elseGoal? (c.child? "alternative") = .ok els) (htest : (Goal.expr test).Fits)
    (hperm : c.loweredBelow.Perm (test.lowered ++ ((c.child? "consequence").toList.flatMap lowered ++
      (c.child? "alternative").toList.flatMap lowered))) :
    Covers (.expr test :: .block body :: els.toList) c.loweredBelow := by
  obtain ⟨hfits, hlowered⟩ := fits_body h hc hbody
  obtain ⟨hfitsElse, hloweredElse⟩ := fits_elseGoal? h hc hels
  constructor
  · intro g hg
    simp only [List.mem_cons, Option.mem_toList] at hg
    rcases hg with rfl | rfl | hg
    · exact htest
    · exact hfits
    · exact hfitsElse g hg
  · refine .trans (.of_eq ?_) hperm.symm
    rw [List.flatMap_cons, List.flatMap_cons, hlowered, hloweredElse, hbody, Option.toList_some,
      List.flatMap_singleton]
    rfl

theorem Covers.congr {goals goals' : List Goal} {cs : List Concrete} (h : Covers goals cs)
    (hgoals : goals.Perm goals') : Covers goals' cs :=
  ⟨fun g hg => h.fits g (hgoals.mem_iff.2 hg), (hgoals.symm.flatMap_right _).trans h.perm⟩

theorem lowered_throughLet_of_isHollow {d : Concrete} (h : d.isHollow) : (throughLet d).flatMap lowered = [] := by
  rw [throughLet]
  split
  · rw [isHollow, Bool.and_eq_true, List.isEmpty_iff] at h
    rw [entered, h.1]
    rfl
  · rw [List.flatMap_singleton, lowered_of_isHollow h]

/-- What is tested by an `if`: what fills the condition, or what a `let` there binds. -/
theorem loweredBelow_if (h : c.Grammatical) (hc : c.type = "if_expression") :
    c.loweredBelow.Perm ((c.child? "condition").toList.flatMap (fun d => (throughLet d).flatMap lowered) ++
      ((c.child? "consequence").toList.flatMap lowered ++ (c.child? "alternative").toList.flatMap lowered)) := by
  have hne : c.type ≠ "block" ∧ c.type ≠ "macro_invocation" := by
    rw [hc]
    decide
  have hfilled : c.FilledBy [] ["condition", "consequence", "alternative"] := by
    have := h.regular.fields ["condition", "consequence", "alternative"] (by rw [hc]; rfl)
    rwa [hc] at this
  have hother (f : String) (hf : f ≠ "condition") :
      (c.child? f).toList.flatMap (fun d => (throughLet d).flatMap lowered) = (c.child? f).toList.flatMap lowered := by
    refine List.flatMap_congr fun d hd => ?_
    have hfield := (mem_of_child? (Option.mem_toList.1 hd)).2
    have hnot : (d.field == some "condition") = false := by
      rw [hfield, beq_eq_false_iff_ne]
      rintro ⟨⟩
      exact hf rfl
    rw [throughLet, hnot, Bool.and_false, if_neg Bool.false_ne_true, List.flatMap_singleton]
  have hinside : c.inside = (c.entered []).flatMap throughLet := by
    rw [inside, if_neg hne.1, if_neg hne.2, if_pos hc]
  rw [loweredBelow_of_ne hne.1, hinside, List.flatMap_assoc]
  refine (flatMap_entered_perm _ hfilled (by decide) fun d => lowered_throughLet_of_isHollow).trans (.of_eq ?_)
  rw [← hother "consequence" (by decide), ← hother "alternative" (by decide)]
  simp only [List.flatMap_cons, List.flatMap_nil, List.append_nil]

/-- What an `if` tests, if its condition is no `let`. -/
theorem covers_if {body cond : Concrete} {els : Option Goal} (h : c.Grammatical) (hc : c.type = "if_expression")
    (hbody : c.child? "consequence" = some body) (hels : elseGoal? (c.child? "alternative") = .ok els)
    (hcond : c.child? "condition" = some cond) (hlet : cond.type ≠ "let_condition") :
    Covers (.expr cond :: .block body :: els.toList) c.loweredBelow := by
  have hconditional := isConditional_of_if hc
  have hfits := h.child (mem_of_child? hcond).1
  have hthrough : throughLet cond = [cond] := by
    rw [throughLet, decide_eq_false hlet, Bool.false_and, if_neg Bool.false_ne_true]
  have hbelow := loweredBelow_if h hc
  rw [hcond, Option.toList_some, List.flatMap_singleton, hthrough, List.flatMap_singleton] at hbelow
  exact covers_conditional h hconditional hbody hels hfits hbelow

/-- What an `if` tests, if its condition is a `let`. -/
theorem covers_if_let {body cond value : Concrete} {els : Option Goal} (h : c.Grammatical)
    (hc : c.type = "if_expression") (hbody : c.child? "consequence" = some body)
    (hels : elseGoal? (c.child? "alternative") = .ok els) (hcond : c.child? "condition" = some cond)
    (hlet : cond.type = "let_condition") (hvalue : cond.child? "value" = some value) :
    Covers (.expr value :: .block body :: els.toList) c.loweredBelow := by
  have hconditional := isConditional_of_if hc
  obtain ⟨hmem, hfield⟩ := mem_of_child? hcond
  have hfits := (h.child hmem).child (mem_of_child? hvalue).1
  have hthrough : throughLet cond = cond.entered ["pattern"] := by
    rw [throughLet, decide_eq_true hlet, hfield]
    rfl
  have hentered := flatMap_entered_perm lowered ((h.child hmem).regular.letCondition hlet) (by decide) fun d =>
    lowered_of_isHollow
  rw [List.flatMap_singleton, hvalue, Option.toList_some, List.flatMap_singleton] at hentered
  have hbelow := loweredBelow_if h hc
  rw [hcond, Option.toList_some, List.flatMap_singleton, hthrough] at hbelow
  exact covers_conditional h hconditional hbody hels hfits (hbelow.trans (hentered.append_right _))

theorem covers_ifPlan (h : c.Grammatical) (hc : c.type = "if_expression") (hn : (ifPlan s c).assemble ms = some n) :
    Covers (ifPlan s c).parts c.loweredBelow := by
  simp only [ifPlan] at hn ⊢
  cases hbody : c.child? "consequence" with
  | none =>
    rw [hbody] at hn
    cases hn
  | some body =>
    cases hels : elseGoal? (c.child? "alternative") with
    | error fault =>
      rw [hbody, hels] at hn
      cases hn
    | ok els =>
      cases hcond : c.child? "condition" with
      | none =>
        rw [hbody, hels, hcond] at hn
        cases hn
      | some cond =>
        rw [hbody, hels, hcond] at hn
        simp only at hn ⊢
        by_cases hlet : cond.type = "let_condition"
        · rw [if_pos hlet] at hn ⊢
          cases hpattern : cond.child? "pattern" with
          | none =>
            rw [hpattern] at hn
            cases hn
          | some pattern =>
            cases hvalue : cond.child? "value" with
            | none =>
              rw [hpattern, hvalue] at hn
              cases hn
            | some value =>
              have hcovers := covers_if_let h hc hbody hels hcond hlet hvalue
              cases els with
              | none => exact hcovers.congr (List.perm_append_singleton _ [_]).symm
              | some e => exact hcovers.congr (List.perm_append_singleton _ [_, _]).symm
        · rw [if_neg hlet] at hn ⊢
          have hcovers := covers_if h hc hbody hels hcond hlet
          cases els with
          | none => exact hcovers.congr (List.perm_append_singleton _ [_]).symm
          | some e => exact hcovers.congr (List.perm_append_singleton _ [_, _]).symm

theorem covers_ifLetPlan (h : c.Grammatical) (hc : c.type = "if_let_expression")
    (hn : (ifLetPlan s c).assemble ms = some n) : Covers (ifLetPlan s c).parts c.loweredBelow := by
  have hconditional := isConditional_of_ifLet hc
  simp only [ifLetPlan] at hn ⊢
  cases hpattern : c.child? "pattern" with
  | none =>
    rw [hpattern] at hn
    cases hn
  | some pattern =>
    cases hvalue : c.child? "value" with
    | none =>
      rw [hpattern, hvalue] at hn
      cases hn
    | some value =>
      cases hbody : c.child? "consequence" with
      | none =>
        rw [hpattern, hvalue, hbody] at hn
        cases hn
      | some body =>
        have hbelow := loweredBelow_of_fields h.regular (by rw [hc]; rfl) (by decide) (by rw [hc]; decide)
          (inside_of_ne (by rw [hc]; decide) (by rw [hc]; decide) (by rw [hc]; decide))
        simp only [List.flatMap_cons, List.flatMap_nil, List.append_nil] at hbelow
        rw [hvalue, Option.toList_some, List.flatMap_singleton] at hbelow
        have hfits := h.child (mem_of_child? hvalue).1
        cases hels : elseGoal? (c.child? "alternative") with
        | error fault =>
          rw [hpattern, hvalue, hbody, hels] at hn
          cases hn
        | ok els =>
          have hcovers := covers_conditional h hconditional hbody hels hfits hbelow
          cases els with
          | none => exact hcovers
          | some e => exact hcovers

/-! ## Calls -/

/-- A construct around one expression holds what the expression holds. -/
theorem lowered_of_field {name : String} {d : Concrete} (h : c.Grammatical) (htype : c.type ∉ entangledTypes)
    (hc : c.isConditional = false) (hfields : exprFields c.type = some [name]) (hd : c.child? name = some d) :
    c.lowered.Perm d.lowered := by
  have hcovers := (covers_of_field h rfl htype hfields hd).perm
  rw [List.flatMap_singleton] at hcovers
  rw [lowered_of_not_isConditional hc]
  exact hcovers.symm

/-- The arguments of a call are what the walk passes into. -/
theorem lowered_of_arguments (h : c.Grammatical) (hc : c.type = "arguments") : c.lowered = c.parts.flatMap lowered := by
  have hplain : c.Plain := plain_of_mem ["arguments"] (List.mem_singleton.2 hc) (by decide)
  have hown : c.isConditional = false := isConditional_of_ne (by rw [hc]; decide) (by rw [hc]; decide)
  have hall : (c.parts.filter fun d => !d.isBarren) = c.parts := by
    refine List.filter_eq_self.2 fun d hd => ?_
    rw [h.regular.exprs (by rw [hc]; decide) d hd]
    rfl
  rw [lowered_of_not_isConditional hown, hplain.loweredBelow, entered_nil, hall]

/-- A call is covered by its arguments and by what holds as much as what is called. -/
theorem covers_call {list func callee : Concrete} (h : c.Grammatical) (hc : c.type = "call_expression")
    (hlist : c.child? "arguments" = some list) (hfunc : c.child? "function" = some func)
    (hfits : (Goal.expr callee).Fits) (hcallee : func.lowered.Perm callee.lowered) :
    Covers (list.parts.map .expr ++ [.expr callee]) c.loweredBelow := by
  obtain ⟨hmem, hfield⟩ := mem_of_child? hlist
  have htype := h.regular.arguments hc list hmem hfield
  have hlist' := h.child hmem
  constructor
  · intro g hg
    obtain hg | hg := List.mem_append.1 hg
    · obtain ⟨d, hd, rfl⟩ := List.mem_map.1 hg
      exact hlist'.child (mem_children_of_mem_parts hd)
    · rw [List.mem_singleton.1 hg]
      exact hfits
  · have hbelow := loweredBelow_of_fields h.regular (by rw [hc]; rfl) (by decide) (by rw [hc]; decide)
      (inside_of_ne (by rw [hc]; decide) (by rw [hc]; decide) (by rw [hc]; decide))
    rw [List.flatMap_cons, List.flatMap_singleton, hfunc, hlist, Option.toList_some, Option.toList_some,
      List.flatMap_singleton, List.flatMap_singleton, lowered_of_arguments hlist' htype] at hbelow
    rw [List.flatMap_append, lowered_expr, List.flatMap_singleton]
    exact (List.perm_append_comm.trans (hcallee.symm.append_right _)).trans hbelow.symm

/-- A method call reads its arguments and what the field is accessed of. -/
theorem covers_method {list func access : Concrete} {f : List Char → List Node → Node → Node} (h : c.Grammatical)
    (hc : c.type = "call_expression") (hlist : c.child? "arguments" = some list)
    (hfunc : c.child? "function" = some func) (haccess : access.Grammatical)
    (htype : access.type = "field_expression") (hlowered : func.lowered.Perm access.lowered)
    (hn : (match access.child? "value" with
      | none => Plan.stuck (list.parts.map Goal.expr) (.missingField "value")
      | some value =>
        withText s access "field" (list.parts.map Goal.expr ++ [Goal.expr value]) fun name =>
          .manyThen (list.parts.map Goal.expr) (Goal.expr value) (f name)).assemble ms = some n) :
    Covers (match access.child? "value" with
      | none => Plan.stuck (list.parts.map Goal.expr) (.missingField "value")
      | some value =>
        withText s access "field" (list.parts.map Goal.expr ++ [Goal.expr value]) fun name =>
          .manyThen (list.parts.map Goal.expr) (Goal.expr value) (f name)).parts c.loweredBelow := by
  cases hvalue : access.child? "value" with
  | none =>
    rw [hvalue] at hn
    cases hn
  | some value =>
    rw [hvalue] at hn
    simp only at hn ⊢
    have hbelow := lowered_of_field haccess (by rw [htype]; decide)
      (isConditional_of_ne (by rw [htype]; decide) (by rw [htype]; decide)) (by rw [htype]; rfl) hvalue
    have hfits := haccess.child (mem_of_child? hvalue).1
    unfold withText at hn ⊢
    repeat' split at hn
    any_goals cases hn
    exact covers_call h hc hlist hfunc hfits (hlowered.trans hbelow)

theorem covers_callPlan (h : c.Grammatical) (hc : c.type = "call_expression")
    (hn : (callPlan s c).assemble ms = some n) : Covers (callPlan s c).parts c.loweredBelow := by
  simp only [callPlan] at hn ⊢
  cases hlist : c.child? "arguments" with
  | none =>
    rw [hlist] at hn
    cases hn
  | some list =>
    cases hfunc : c.child? "function" with
    | none =>
      rw [hlist, hfunc] at hn
      cases hn
    | some func =>
      rw [hlist, hfunc] at hn
      simp only at hn ⊢
      have hmem := (mem_of_child? hfunc).1
      have hfits : (Goal.expr func).Fits := h.child hmem
      by_cases hfield : func.type = "field_expression"
      · rw [if_pos hfield] at hn ⊢
        exact covers_method h hc hlist hfunc (h.child hmem) hfield (.refl _) hn
      · rw [if_neg hfield] at hn ⊢
        by_cases hgeneric : func.type = "generic_function"
        · rw [if_pos hgeneric] at hn ⊢
          cases haccess : func.child? "function" with
          | none =>
            rw [haccess] at hn
            cases hn
          | some access =>
            rw [haccess] at hn
            simp only at hn ⊢
            by_cases htype : access.type = "field_expression"
            · rw [if_pos htype] at hn ⊢
              have hbelow := lowered_of_field (h.child hmem) (by rw [hgeneric]; decide)
                (isConditional_of_ne (by rw [hgeneric]; decide) (by rw [hgeneric]; decide)) (by rw [hgeneric]; rfl)
                haccess
              exact covers_method h hc hlist hfunc ((h.child hmem).child (mem_of_child? haccess).1) htype hbelow hn
            · rw [if_neg htype] at hn ⊢
              exact covers_call h hc hlist hfunc hfits (.refl _)
        · rw [if_neg hgeneric] at hn ⊢
          exact covers_call h hc hlist hfunc hfits (.refl _)

end Rules

end Reader

end NestLint
