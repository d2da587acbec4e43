import NestLint.Proofs.Reader.Weave

/-!
# Every rule puts nodes together in one of these ways

Rule by rule: what can be put together at all was made around its parts, or from one part by another
span, or from the statements of a block by closing them.

* `around_ifPlan`, `around_callPlan` and others: the rules that set up a node around their parts;
* `made_of_assemble`: all rules.
-/

namespace NestLint

namespace Reader

section Assemble

variable {ms : List Node} {n : Node}

theorem of_assemble_leaf {k : Node} (h : (Plan.leaf k).assemble ms = some n) : ms = [] ∧ n = k := by
  cases ms with
  | nil =>
    cases h
    exact ⟨rfl, rfl⟩
  | cons m rest => cases h

theorem of_assemble_one {a : Goal} {f : Node → Node} (h : (Plan.one a f).assemble ms = some n) :
    ∃ m, ms = [m] ∧ n = f m := by
  match ms, h with
  | [m], h =>
    cases h
    exact ⟨m, rfl, rfl⟩

theorem of_assemble_two {a b : Goal} {f : Node → Node → Node} (h : (Plan.two a b f).assemble ms = some n) :
    ∃ m m', ms = [m, m'] ∧ n = f m m' := by
  match ms, h with
  | [m, m'], h =>
    cases h
    exact ⟨m, m', rfl, rfl⟩

theorem of_assemble_three {a b c : Goal} {f : Node → Node → Node → Node}
    (h : (Plan.three a b c f).assemble ms = some n) : ∃ m m' m'', ms = [m, m', m''] ∧ n = f m m' m'' := by
  match ms, h with
  | [m, m', m''], h =>
    cases h
    exact ⟨m, m', m'', rfl, rfl⟩

theorem of_assemble_many {goals : List Goal} {f : List Node → Node} (h : (Plan.many goals f).assemble ms = some n) :
    n = f ms := by
  cases h
  rfl

theorem of_assemble_manyThen {goals : List Goal} {last : Goal} {f : List Node → Node → Node}
    (h : (Plan.manyThen goals last f).assemble ms = some n) : ∃ ns m, ms = ns ++ [m] ∧ n = f ns m := by
  obtain ⟨m, hm, hn⟩ := Option.map_eq_some_iff.1 h
  have hms : ms ≠ [] := by
    rintro rfl
    cases hm
  rw [List.getLast?_eq_some_getLast hms] at hm
  cases hm
  exact ⟨_, _, (List.dropLast_append_getLast hms).symm, hn.symm⟩

end Assemble

section Rules

variable {s : Snippet} {c : Concrete} {ms : List Node} {n : Node}

/-- A node whose parts are the parts that were read. -/
theorem Around.of_perm {conditional : Bool} (ho : n.span.origin = s.origin) (hn : n.isConditional = conditional)
    (h : ms.Perm n.children) : Around s conditional ms n :=
  ⟨.inl ho, hn, n.children, h, .parts _⟩

/-- A node with fresh nodes in front of the parts that were read. -/
theorem Around.of_fresh {conditional : Bool} {front ks : List Node} (ho : n.span.origin = s.origin)
    (hn : n.isConditional = conditional) (hfront : Woven s.origin [] front) (hchildren : n.children = front ++ ks)
    (h : ms.Perm ks) : Around s conditional ms n := by
  refine ⟨.inl ho, hn, ks, h, ?_⟩
  rw [hchildren]
  exact hfront.append (.parts ks)

theorem woven_pat (span : Span) (ho : span.origin = s.origin) : Woven s.origin [] [.pat span] := .one ho rfl .nil

theorem around_ifWhole {body cond : Node} {els : Option Node} (h : ms.Perm ([cond] ++ [body] ++ els.toList)) :
    Around s true ms (ifWhole (s.span c) cond body els) := .of_perm rfl rfl h

theorem around_ifLetWhole {pattern : Concrete} {body value : Node} {els : Option Node}
    (h : ms.Perm ([value] ++ [body] ++ els.toList)) :
    Around s true ms (ifLetWhole (s.span c) (.pat (s.span pattern)) value body els) :=
  .of_fresh rfl rfl (woven_pat (s.span pattern) rfl) rfl h

theorem around_ifPlan (h : (ifPlan s c).assemble ms = some n) : Around s true ms n := by
  simp only [ifPlan] at h
  repeat' split at h
  any_goals cases h
  · obtain ⟨b, v, rfl, rfl⟩ := of_assemble_two h
    exact around_ifLetWhole (.swap v b [])
  · obtain ⟨b, e, v, rfl, rfl⟩ := of_assemble_three h
    exact around_ifLetWhole (show ([b, e] ++ [v]).Perm ([v] ++ [b, e]) from List.perm_append_comm)
  · obtain ⟨b, t, rfl, rfl⟩ := of_assemble_two h
    exact around_ifWhole (.swap t b [])
  · obtain ⟨b, e, t, rfl, rfl⟩ := of_assemble_three h
    exact around_ifWhole (show ([b, e] ++ [t]).Perm ([t] ++ [b, e]) from List.perm_append_comm)

theorem around_ifLetPlan (h : (ifLetPlan s c).assemble ms = some n) : Around s true ms n := by
  simp only [ifLetPlan] at h
  repeat' split at h
  any_goals cases h
  · obtain ⟨v, b, rfl, rfl⟩ := of_assemble_two h
    exact around_ifLetWhole (.refl _)
  · obtain ⟨v, b, e, rfl, rfl⟩ := of_assemble_three h
    exact around_ifLetWhole (.refl _)

theorem around_sidesPlan {f : Node → Node → Node} (h : (sidesPlan c f).assemble ms = some n)
    (hf : ∀ l r, Around s false [l, r] (f l r)) : Around s false ms n := by
  simp only [sidesPlan] at h
  repeat' split at h
  any_goals cases h
  obtain ⟨l, r, rfl, rfl⟩ := of_assemble_two h
  exact hf l r

theorem around_binaryPlan (h : (binaryPlan s c).assemble ms = some n) : Around s false ms n := by
  simp only [binaryPlan] at h
  repeat' split at h
  any_goals cases h
  exact around_sidesPlan h fun l r => .of_perm rfl rfl (.refl _)

theorem around_compoundPlan (h : (compoundPlan s c).assemble ms = some n) : Around s false ms n := by
  simp only [compoundPlan] at h
  repeat' split at h
  any_goals cases h
  exact around_sidesPlan h fun l r => .of_perm rfl rfl (.refl _)

theorem around_unaryPlan (h : (unaryPlan s c).assemble ms = some n) : Around s false ms n := by
  simp only [unaryPlan] at h
  repeat' split at h
  any_goals cases h
  obtain ⟨m, rfl, rfl⟩ := of_assemble_one h
  exact .of_perm rfl rfl (.refl _)

theorem of_aroundPlan {name : String} {f : Node → Node} (h : (aroundPlan c name f).assemble ms = some n) :
    ∃ m, ms = [m] ∧ n = f m := by
  unfold aroundPlan at h
  split at h
  · cases h
  · exact of_assemble_one h

theorem of_firstPlan {f : Node → Node}
    (h : (firstPlan c fun inner => .one (.expr inner) f).assemble ms = some n) : ∃ m, ms = [m] ∧ n = f m := by
  unfold firstPlan at h
  split at h
  · cases h
  · exact of_assemble_one h

theorem of_withText {name : String} {before : List Goal} {f : List Char → Plan}
    (h : (withText s c name before f).assemble ms = some n) : ∃ text, (f text).assemble ms = some n := by
  unfold withText at h
  repeat' split at h
  · cases h
  · cases h
  · exact ⟨_, h⟩

theorem of_textPlan {f : List Char → Node} (h : (textPlan s c f).assemble ms = some n) :
    ms = [] ∧ ∃ text, n = f text := by
  unfold textPlan at h
  split at h
  · cases h
  · obtain ⟨rfl, rfl⟩ := of_assemble_leaf h
    exact ⟨rfl, _, rfl⟩

/-- A construct around a value and a text. -/
theorem of_valuePlan {name : String} {f : List Char → Node → Node}
    (h : (match c.child? "value" with
      | none => Plan.stuck [] (.missingField "value")
      | some value => withText s c name [.expr value] fun text => .one (.expr value) (f text)).assemble ms = some n) :
    ∃ m text, ms = [m] ∧ n = f text m := by
  split at h
  · cases h
  · obtain ⟨text, h⟩ := of_withText h
    obtain ⟨m, rfl, rfl⟩ := of_assemble_one h
    exact ⟨m, text, rfl, rfl⟩

/-- Arguments that are read before what they are given to, which stands in front of them. -/
theorem around_of_manyThen {goals : List Goal} {last : Goal} {f : List Node → Node → Node}
    (h : (Plan.manyThen goals last f).assemble ms = some n)
    (hf : ∀ ns m, (f ns m).span.origin = s.origin ∧ (f ns m).isConditional = false ∧ (f ns m).children = m :: ns) :
    Around s false ms n := by
  obtain ⟨ns, m, rfl, rfl⟩ := of_assemble_manyThen h
  obtain ⟨ho, hn, hchildren⟩ := hf ns m
  refine .of_perm ho hn ?_
  rw [hchildren]
  exact List.perm_append_comm

theorem around_callPlan (h : (callPlan s c).assemble ms = some n) : Around s false ms n := by
  simp only [callPlan] at h
  split at h
  · cases h
  · split at h
    · cases h
    · have hmethod {access : Concrete} {args : List Goal}
          (h : (match access.child? "value" with
            | none => Plan.stuck args (.missingField "value")
            | some value =>
              withText s access "field" (args ++ [Goal.expr value]) fun name =>
                .manyThen args (.expr value) fun nodes receiver =>
                  .methodCall (s.span c) receiver (String.ofList name) nodes).assemble ms = some n) :
          Around s false ms n := by
        split at h
        · cases h
        · obtain ⟨text, h⟩ := of_withText h
          exact around_of_manyThen h fun ns m => ⟨rfl, rfl, rfl⟩
      split at h
      · exact hmethod h
      · split at h
        · split at h
          · cases h
          · split at h
            · exact hmethod h
            · exact around_of_manyThen h fun ns m => ⟨rfl, rfl, rfl⟩
        · exact around_of_manyThen h fun ns m => ⟨rfl, rfl, rfl⟩

theorem around_closurePlan (h : (closurePlan s c).assemble ms = some n) : Around s false ms n := by
  unfold closurePlan at h
  split at h
  · cases h
  · obtain ⟨m, rfl, rfl⟩ := of_aroundPlan h
    exact .of_fresh rfl rfl (.leaves (fun p => .pat (s.span p)) (fun _ => ⟨rfl, rfl, rfl⟩) _) rfl (.refl _)

theorem around_rangePlan (h : (rangePlan s c).assemble ms = some n) (hc : c.type = "range_expression") :
    Around s false ((Goal.expr c).kept ms) n := by
  have hn := of_assemble_many h
  subst hn
  refine .of_perm rfl rfl ?_
  rw [Goal.kept, if_pos hc]
  exact .refl _

/-- A binding sets up a statement, a binding inside it, and a pattern inside that. -/
theorem around_binding {pattern : Node} (init : Option Node) (hpattern : Woven s.origin [] [pattern]) :
    Around s false init.toList (.stmt (s.span c) .binding (.binding (s.span c) (some pattern) init)) :=
  ⟨.inl rfl, rfl, init.toList, .refl _, .one rfl rfl (hpattern.append (.parts _))⟩

theorem around_stmtPlan (h : (stmtPlan s c).assemble ms = some n) : Around s false ms n := by
  simp only [stmtPlan] at h
  split at h
  · split at h
    · cases h
    · rename_i pattern _
      have hpattern : Woven s.origin [] [bindingPattern s c pattern] := .one rfl rfl .nil
      split at h
      · obtain ⟨rfl, rfl⟩ := of_assemble_leaf h
        exact around_binding none hpattern
      · obtain ⟨m, rfl, rfl⟩ := of_assemble_one h
        exact around_binding (some m) hpattern
  · split at h
    · split at h
      · cases h
      · obtain ⟨m, rfl, rfl⟩ := of_assemble_one h
        exact .of_perm rfl rfl (.refl _)
    · split at h
      · obtain ⟨m, rfl, rfl⟩ := of_assemble_one h
        exact .of_perm rfl rfl (.refl _)
      · have hn := of_assemble_many h
        subst hn
        exact ⟨.inl rfl, rfl, ms, .refl _, .one rfl rfl (.parts ms)⟩

/-- The expressions that are made differently from the rest: a range does not keep everything, and the
others take over a node. -/
def specialTypes : List String := ["range_expression", "try_expression", "generic_function"]

/-- Any other expression is made around all that was read for it. -/
theorem made_expr {conditional : Bool} (hs : c.type ∉ specialTypes) (hc : c.isConditional = conditional)
    (h : Around s conditional ms n) : Made s (.expr c) ms n := by
  rw [specialTypes, List.mem_cons, List.mem_cons, List.mem_singleton, not_or, not_or] at hs
  obtain ⟨hrange, htry, hgeneric⟩ := hs
  refine .around ?_ ?_
  · rw [Goal.respans, beq_eq_false_iff_ne.2 htry, beq_eq_false_iff_ne.2 hgeneric]
    rfl
  · rw [Goal.kept, if_neg hrange, Goal.isConditional, hc]
    exact h

theorem ne_of_mem {types : List String} {type : String} (hmem : types.contains c.type = true)
    (h : types.contains type = false) : c.type ≠ type := by
  intro heq
  rw [heq, h] at hmem
  cases hmem

theorem made_of_type {type : String} {conditional : Bool} (hc : c.type = type) (hs : type ∉ specialTypes)
    (htype : (type == "if_expression" || type == "if_let_expression") = conditional)
    (h : Around s conditional ms n) : Made s (.expr c) ms n := by
  subst hc
  exact made_expr hs htype h

/-- An expression of one of these types is its text. -/
theorem made_textPlan {types : List String} {f : List Char → Node} (hmem : types.contains c.type = true)
    (h : (textPlan s c f).assemble ms = some n)
    (hf : ∀ text, (f text).span.origin = s.origin ∧ (f text).isConditional = false ∧ (f text).children = [])
    (hspecial : ∀ type ∈ specialTypes, types.contains type = false) (hif : types.contains "if_expression" = false)
    (hiflet : types.contains "if_let_expression" = false) : Made s (.expr c) ms n := by
  obtain ⟨rfl, text, rfl⟩ := of_textPlan h
  obtain ⟨ho, hn, hchildren⟩ := hf text
  have hs : c.type ∉ specialTypes := fun hc => ne_of_mem hmem (hspecial _ hc) rfl
  refine made_expr hs (Concrete.isConditional_of_ne (ne_of_mem hmem hif) (ne_of_mem hmem hiflet)) ?_
  refine .of_perm ho hn ?_
  rw [hchildren]

theorem made_exprPlan (h : (exprPlan s c).assemble ms = some n) : Made s (.expr c) ms n := by
  simp only [exprPlan] at h
  split at h
  · rename_i hmem
    exact made_textPlan hmem h (fun _ => ⟨rfl, rfl, rfl⟩) (by decide) (by decide) (by decide)
  · split at h
    · rename_i hmem
      exact made_textPlan hmem h (fun _ => ⟨rfl, rfl, rfl⟩) (by decide) (by decide) (by decide)
    · split at h
      · exact made_of_type ‹_› (by decide) (by decide) (around_ifPlan h)
      · exact made_of_type ‹_› (by decide) (by decide) (around_ifLetPlan h)
      · obtain ⟨m, rfl, rfl⟩ := of_assemble_one h
        have hm : Around s false [m] (.blockExpr m.span m) := ⟨.inr ⟨m, .head _, rfl⟩, rfl, [m], .refl _, .parts _⟩
        exact made_of_type ‹_› (by decide) (by decide) hm
      · exact made_of_type ‹_› (by decide) (by decide) (around_binaryPlan h)
      · exact made_of_type ‹_› (by decide) (by decide) (around_unaryPlan h)
      · obtain ⟨m, rfl, rfl⟩ := of_aroundPlan h
        exact made_of_type ‹_› (by decide) rfl (.of_perm rfl rfl (.refl _))
      · obtain ⟨m, rfl, rfl⟩ := of_firstPlan h
        exact made_of_type ‹_› (by decide) rfl (.of_perm rfl rfl (.refl _))
      · exact made_of_type ‹_› (by decide) (by decide) (around_callPlan h)
      · obtain ⟨m, text, rfl, rfl⟩ := of_valuePlan h
        exact made_of_type ‹_› (by decide) rfl (.of_perm rfl rfl (.refl _))
      · rename_i hc
        obtain ⟨m, rfl, rfl⟩ := of_aroundPlan h
        exact .respanned (by rw [Goal.respans, hc]; decide)
      · obtain ⟨m, text, rfl, rfl⟩ := of_valuePlan h
        exact made_of_type ‹_› (by decide) rfl (.of_perm rfl rfl (.refl _))
      · exact made_of_type ‹_› (by decide) (by decide) (around_sidesPlan h fun l r => .of_perm rfl rfl (.refl _))
      · exact made_of_type ‹_› (by decide) (by decide) (around_compoundPlan h)
      · rename_i hc
        have hn : (Goal.expr c).isConditional = false :=
          Concrete.isConditional_of_ne (by rw [hc]; decide) (by rw [hc]; decide)
        refine .around (by rw [Goal.respans, hc]; decide) ?_
        rw [hn]
        exact around_rangePlan h hc
      · rename_i hc
        obtain ⟨m, rfl, rfl⟩ := of_firstPlan h
        exact .respanned (by rw [Goal.respans, hc]; decide)
      · exact made_of_type ‹_› (by decide) (by decide) (around_closurePlan h)
      · have hn := of_assemble_many h
        subst hn
        have hs : c.type ∉ specialTypes := by
          rw [specialTypes, List.mem_cons, List.mem_cons, List.mem_singleton, not_or, not_or]
          exact ⟨‹_›, ‹_›, ‹_›⟩
        exact made_expr hs
          (Concrete.isConditional_of_ne ‹c.type = "if_expression" → False› ‹c.type = "if_let_expression" → False›)
          (.of_perm rfl rfl (.refl _))

theorem forall₂_zipWith {α β γ : Type} (f : α → β → γ) : ∀ {xs : List α} {ys : List β}, ys.length = xs.length →
    List.Forall₂ (fun y z => ∃ x, z = f x y) ys (List.zipWith f xs ys)
  | [], [], _ => .nil
  | x :: _, _ :: _, h => .cons ⟨x, rfl⟩ (forall₂_zipWith f (Nat.succ.inj h))

/-- Every rule makes a node in one of the three ways. -/
theorem made_of_assemble {g : Goal} (h : (plan s g).assemble ms = some n)
    (hlength : ms.length = (plan s g).parts.length) : Made s g ms n := by
  cases g with
  | block c =>
    have hn := of_assemble_many h
    subst hn
    have hslots : ms.length = (stmtSlots c.parts).length := by
      rw [hlength]
      exact List.length_map _
    have hclosed := forall₂_zipWith (fun slot n => closeBy s slot.2 n) hslots
    exact .block (hclosed.imp fun m n ⟨slot, hn⟩ => ⟨slot.2, hn⟩)
  | expr c => exact made_exprPlan h
  | stmt c => exact .around rfl (around_stmtPlan h)

end Rules

end Reader

end NestLint
