import NestLint.Reader.Plan

/-!
# Rules read smaller things first

Whatever a rule reads before it can put a node together is a smaller goal than the one that the rule
is for. This is why reading ends as long as no macro has to be expanded.

* `lt_of_mem_parts`: the parts of a plan are smaller than its goal.
-/

namespace NestLint

namespace Reader

theorem mem_of_mem_stmtSlots {cs : List Concrete} {slot : Concrete × Option Nat} (h : slot ∈ stmtSlots cs) :
    slot.1 ∈ cs := by
  induction cs with
  | nil => simp [stmtSlots] at h
  | cons c rest ih =>
    unfold stmtSlots at h
    split at h
    · exact .tail _ (ih h)
    · rcases List.mem_cons.1 h with rfl | h
      · exact .head _
      · exact .tail _ (ih h)

theorem mem_of_mem_rangeBounds {cs : List Concrete} {seen : Bool} {bound : Concrete × Bool}
    (h : bound ∈ rangeBounds seen cs) : bound.1 ∈ cs := by
  induction cs generalizing seen with
  | nil => simp [rangeBounds] at h
  | cons c rest ih =>
    unfold rangeBounds at h
    split at h
    · exact .tail _ (ih h)
    · split at h
      · rcases List.mem_cons.1 h with rfl | h
        · exact .head _
        · exact .tail _ (ih h)
      · exact .tail _ (ih h)

open Concrete

theorem block_lt {c d : Concrete} (h : sizeOf d < sizeOf c) : (Goal.block d).measure < 3 * sizeOf c := by
  simp only [Goal.measure]; omega

theorem expr_lt {c d : Concrete} (h : sizeOf d < sizeOf c) : (Goal.expr d).measure < 3 * sizeOf c := by
  simp only [Goal.measure]; omega

theorem stmt_lt {c d : Concrete} (h : sizeOf d < sizeOf c) : (Goal.stmt d).measure < 3 * sizeOf c := by
  simp only [Goal.measure]; omega

theorem lt_of_elseGoal? {c : Concrete} {g : Goal} (h : elseGoal? (c.child? "alternative") = .ok (some g)) :
    g.measure < 3 * sizeOf c := by
  unfold elseGoal? at h
  split at h
  · simp at h
  · rename_i d hd
    have hc := child?_lt hd
    split at h
    · contradiction
    · rename_i branch rest hp
      have hb := parts_lt (c := d) (d := branch) (by rw [hp]; exact .head _)
      simp only [Except.ok.injEq, Option.some.injEq] at h
      subst h
      split
      · exact block_lt (by omega)
      · exact expr_lt (by omega)

theorem lt_of_mem_blockPlan {s : Snippet} {c : Concrete} {g : Goal} (h : g ∈ (blockPlan s c).parts) :
    g.measure < 3 * sizeOf c := by
  simp only [blockPlan, Plan.parts, List.mem_map] at h
  obtain ⟨slot, hs, rfl⟩ := h
  exact stmt_lt (parts_lt (mem_of_mem_stmtSlots hs))

theorem lt_of_mem_ifPlan {s : Snippet} {c : Concrete} {g : Goal} (h : g ∈ (ifPlan s c).parts) :
    g.measure < 3 * sizeOf c := by
  simp only [ifPlan] at h
  repeat' split at h
  all_goals simp only [Plan.parts, List.mem_cons, List.not_mem_nil, or_false, Option.mem_toList] at h
  all_goals grind [Goal.measure, → child?_lt, → lt_of_elseGoal?]

theorem lt_of_mem_ifLetPlan {s : Snippet} {c : Concrete} {g : Goal} (h : g ∈ (ifLetPlan s c).parts) :
    g.measure < 3 * sizeOf c := by
  simp only [ifLetPlan] at h
  repeat' split at h
  all_goals simp only [Plan.parts, List.mem_cons, List.not_mem_nil, or_false] at h
  all_goals grind [Goal.measure, → child?_lt, → lt_of_elseGoal?]

theorem lt_of_mem_sidesPlan {c : Concrete} {f : Node → Node → Node} {g : Goal} (h : g ∈ (sidesPlan c f).parts) :
    g.measure < 3 * sizeOf c := by
  simp only [sidesPlan] at h
  repeat' split at h
  all_goals simp only [Plan.parts, List.mem_cons, List.not_mem_nil, or_false] at h
  all_goals grind [Goal.measure, → child?_lt]

theorem lt_of_mem_binaryPlan {s : Snippet} {c : Concrete} {g : Goal} (h : g ∈ (binaryPlan s c).parts) :
    g.measure < 3 * sizeOf c := by
  simp only [binaryPlan] at h
  repeat' split at h
  · simp [Plan.parts] at h
  · simp [Plan.parts] at h
  · exact lt_of_mem_sidesPlan h

theorem lt_of_mem_compoundPlan {s : Snippet} {c : Concrete} {g : Goal} (h : g ∈ (compoundPlan s c).parts) :
    g.measure < 3 * sizeOf c := by
  simp only [compoundPlan] at h
  repeat' split at h
  · simp [Plan.parts] at h
  · simp [Plan.parts] at h
  · exact lt_of_mem_sidesPlan h

theorem lt_of_mem_firstPlan {c : Concrete} {f : Node → Node} {g : Goal}
    (h : g ∈ (firstPlan c fun inner => .one (.expr inner) f).parts) : g.measure < 3 * sizeOf c := by
  unfold firstPlan at h
  split at h
  · simp [Plan.parts] at h
  · rename_i inner rest hp
    simp only [Plan.parts, List.mem_singleton] at h
    subst h
    exact expr_lt (parts_lt (by rw [hp]; exact .head _))

theorem lt_of_mem_unaryPlan {s : Snippet} {c : Concrete} {g : Goal} (h : g ∈ (unaryPlan s c).parts) :
    g.measure < 3 * sizeOf c := by
  simp only [unaryPlan] at h
  repeat' split at h
  · simp [Plan.parts] at h
  · simp [Plan.parts] at h
  · simp [Plan.parts] at h
  · rename_i operand rest hp
    simp only [Plan.parts, List.mem_singleton] at h
    subst h
    exact expr_lt (parts_lt (by rw [hp]; exact .head _))

theorem lt_of_mem_aroundPlan {c : Concrete} {name : String} {f : Node → Node} {g : Goal}
    (h : g ∈ (aroundPlan c name f).parts) : g.measure < 3 * sizeOf c := by
  unfold aroundPlan at h
  split at h
  all_goals simp only [Plan.parts, List.mem_cons, List.not_mem_nil, or_false] at h
  grind [Goal.measure, → child?_lt]

/-- A construct with a text reads what was read before the text, or what follows from it. -/
theorem mem_withText {s : Snippet} {c : Concrete} {name : String} {before : List Goal} {f : List Char → Plan}
    {g : Goal} (h : g ∈ (withText s c name before f).parts) : g ∈ before ∨ ∃ text, g ∈ (f text).parts := by
  unfold withText at h
  repeat' split at h
  · exact .inl h
  · exact .inl h
  · exact .inr ⟨_, h⟩

/-- A method call reads its arguments and the receiver, which may be some levels below. -/
theorem lt_of_mem_methodPlan {s : Snippet} {args : List Goal} {access : Concrete}
    {f : List Char → List Node → Node → Node} {n : Nat} {g : Goal} (hargs : ∀ a ∈ args, a.measure < 3 * n)
    (haccess : sizeOf access < n)
    (h : g ∈ (match access.child? "value" with
      | none => Plan.stuck args (.missingField "value")
      | some value =>
        withText s access "field" (args ++ [Goal.expr value]) fun name =>
          .manyThen args (Goal.expr value) (f name)).parts) : g.measure < 3 * n := by
  split at h
  · exact hargs g h
  · rename_i value hv
    have hvalue := child?_lt hv
    rcases mem_withText h with h | ⟨_, h⟩
    all_goals
      simp only [Plan.parts, List.mem_append, List.mem_singleton] at h
      rcases h with h | rfl
      · exact hargs g h
      · simp only [Goal.measure]
        omega

theorem lt_of_mem_callPlan {s : Snippet} {c : Concrete} {g : Goal} (h : g ∈ (callPlan s c).parts) :
    g.measure < 3 * sizeOf c := by
  simp only [callPlan] at h
  split at h
  · simp [Plan.parts] at h
  · rename_i list hl
    have args {g : Goal} (hg : g ∈ list.parts.map Goal.expr) : g.measure < 3 * sizeOf c := by
      obtain ⟨d, hd, rfl⟩ := List.mem_map.1 hg
      have := child?_lt hl
      have := parts_lt hd
      exact expr_lt (by omega)
    split at h
    · exact args h
    · rename_i func hf
      have hfc := child?_lt hf
      have call {f : List Node → Node → Node}
          (h : g ∈ (Plan.manyThen (list.parts.map Goal.expr) (Goal.expr func) f).parts) :
          g.measure < 3 * sizeOf c := by
        simp only [Plan.parts, List.mem_append, List.mem_singleton] at h
        rcases h with h | rfl
        · exact args h
        · exact expr_lt hfc
      split at h
      · exact lt_of_mem_methodPlan (fun _ => args) hfc h
      · split at h
        · split at h
          · exact args h
          · rename_i access ha
            have hac := child?_lt ha
            split at h
            · exact lt_of_mem_methodPlan (fun _ => args) (by omega) h
            · exact call h
        · exact call h

theorem lt_of_mem_valuePlan {s : Snippet} {c : Concrete} {name : String} {f : List Char → Node → Node} {g : Goal}
    (h : g ∈ (match c.child? "value" with
      | none => Plan.stuck [] (.missingField "value")
      | some value => withText s c name [.expr value] fun text => .one (.expr value) (f text)).parts) :
    g.measure < 3 * sizeOf c := by
  split at h
  · simp [Plan.parts] at h
  · rename_i value hv
    rcases mem_withText h with h | ⟨_, h⟩
    all_goals
      simp only [Plan.parts, List.mem_singleton] at h
      subst h
      exact expr_lt (child?_lt hv)

theorem lt_of_mem_rangePlan {s : Snippet} {c : Concrete} {g : Goal} (h : g ∈ (rangePlan s c).parts) :
    g.measure < 3 * sizeOf c := by
  simp only [rangePlan, Plan.parts, List.mem_map] at h
  obtain ⟨bound, hb, rfl⟩ := h
  exact expr_lt (sizeOf_lt_of_mem (mem_of_mem_rangeBounds hb))

theorem lt_of_mem_closurePlan {s : Snippet} {c : Concrete} {g : Goal} (h : g ∈ (closurePlan s c).parts) :
    g.measure < 3 * sizeOf c := by
  unfold closurePlan at h
  split at h
  · simp [Plan.parts] at h
  · exact lt_of_mem_aroundPlan h

theorem parts_textPlan (s : Snippet) (c : Concrete) (f : List Char → Node) : (textPlan s c f).parts = [] := by
  unfold textPlan; split <;> rfl

theorem lt_of_mem_targets {c : Concrete} {g : Goal} (h : g ∈ c.targets.map Goal.expr) : g.measure < 3 * sizeOf c := by
  obtain ⟨d, hd, rfl⟩ := List.mem_map.1 h
  exact expr_lt (targets_lt c hd)

theorem lt_of_mem_exprPlan {s : Snippet} {c : Concrete} {g : Goal} (h : g ∈ (exprPlan s c).parts) :
    g.measure < (Goal.expr c).measure := by
  suffices g.measure < 3 * sizeOf c ∨ g = .block c by
    rcases this with h | rfl <;> simp only [Goal.measure] at * <;> omega
  unfold exprPlan at h
  split at h
  · simp [parts_textPlan] at h
  · split at h
    · simp [parts_textPlan] at h
    · split at h
      · exact .inl (lt_of_mem_ifPlan h)
      · exact .inl (lt_of_mem_ifLetPlan h)
      · exact .inr (by simpa [Plan.parts] using h)
      · exact .inl (lt_of_mem_binaryPlan h)
      · exact .inl (lt_of_mem_unaryPlan h)
      · exact .inl (lt_of_mem_aroundPlan h)
      · exact .inl (lt_of_mem_firstPlan h)
      · exact .inl (lt_of_mem_callPlan h)
      · exact .inl (lt_of_mem_valuePlan h)
      · exact .inl (lt_of_mem_aroundPlan h)
      · exact .inl (lt_of_mem_valuePlan h)
      · exact .inl (lt_of_mem_sidesPlan h)
      · exact .inl (lt_of_mem_compoundPlan h)
      · exact .inl (lt_of_mem_rangePlan h)
      · exact .inl (lt_of_mem_firstPlan h)
      · exact .inl (lt_of_mem_closurePlan h)
      · exact .inl (lt_of_mem_targets h)

theorem lt_of_mem_stmtPlan {s : Snippet} {c : Concrete} {g : Goal} (h : g ∈ (stmtPlan s c).parts) :
    g.measure < (Goal.stmt c).measure := by
  suffices g.measure < 3 * sizeOf c ∨ g = .expr c by
    rcases this with h | rfl <;> simp only [Goal.measure] at * <;> omega
  simp only [stmtPlan] at h
  split at h
  · split at h
    · simp [Plan.parts] at h
    · split at h
      · simp [Plan.parts] at h
      · rename_i value hv
        simp only [Plan.parts, List.mem_singleton] at h
        subst h
        exact .inl (expr_lt (child?_lt hv))
  · split at h
    · split at h
      · simp [Plan.parts] at h
      · rename_i inner rest hp
        simp only [Plan.parts, List.mem_singleton] at h
        subst h
        exact .inl (expr_lt (parts_lt (by rw [hp]; exact .head _)))
    · split at h
      · exact .inr (by simpa [Plan.parts] using h)
      · exact .inl (lt_of_mem_targets h)

theorem lt_of_mem_parts {s : Snippet} {goal g : Goal} (h : g ∈ (plan s goal).parts) : g.measure < goal.measure := by
  cases goal with
  | block c => exact lt_of_mem_blockPlan h
  | expr c => exact lt_of_mem_exprPlan h
  | stmt c => exact lt_of_mem_stmtPlan h

end Reader

end NestLint
