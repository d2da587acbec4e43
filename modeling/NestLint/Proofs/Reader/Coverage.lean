import NestLint.Proofs.Reader.Grammar

/-!
# What rules read against what the walk finds

What a rule reads should hold just the conditionals below its node, in some order, apart from those in
the block of a `let` with `else`. Here this is stated, and shown of the rules that pick the children in
fixed fields or the first part.

* `Goal.lowered`, `Covers`: the conditionals of a goal, and what it means to read them;
* `targets_lowered`: looking through constructs is part of the walk;
* `covers_blockPlan`: the statements of a block;
* `covers_of_fields`, `covers_of_single`: constructs with fields, and of one part.
-/

namespace NestLint

namespace Concrete

/-! ## Where the walk goes on -/

/-- A node whose parts the walk passes into whatever fields they fill. -/
structure Plain (c : Concrete) : Prop where
  notBlock : c.type ≠ "block"
  notMacro : c.type ≠ "macro_invocation"
  notIf : c.type ≠ "if_expression"
  skipped : skippedFields c.type = []

theorem inside_of_ne {c : Concrete} (hblock : c.type ≠ "block") (hinvoked : c.type ≠ "macro_invocation")
    (hif : c.type ≠ "if_expression") : c.inside = c.entered (skippedFields c.type) := by
  rw [inside, if_neg hblock, if_neg hinvoked, if_neg hif]

theorem enters_nil (d : Concrete) : enters [] d = (d.isPart && !d.isBarren) := by
  have hnone : d.field.any ([] : List String).contains = false := by cases d.field <;> rfl
  rw [enters, hnone, Bool.not_false, Bool.and_true]

theorem entered_nil (c : Concrete) : c.entered [] = c.parts.filter fun d => !d.isBarren := by
  rw [entered, parts, List.filter_filter]
  refine List.filter_congr fun d _ => ?_
  rw [enters_nil, Bool.and_comm]

theorem Plain.loweredBelow {c : Concrete} (h : c.Plain) :
    c.loweredBelow = (c.entered []).flatMap lowered := by
  rw [loweredBelow_of_ne h.notBlock, inside_of_ne h.notBlock h.notMacro h.notIf, h.skipped]

theorem own_of_not_isConditional {c : Concrete} (h : c.isConditional = false) : own c = [] := by
  rw [own, h]
  rfl

theorem lowered_of_not_isConditional {c : Concrete} (h : c.isConditional = false) : c.lowered = c.loweredBelow := by
  rw [lowered, own_of_not_isConditional h, List.nil_append]

/-- A node of one of these types is plain. -/
theorem plain_of_mem {c : Concrete} (types : List String) (hmem : c.type ∈ types)
    (h : ∀ type ∈ types, type ≠ "block" ∧ type ≠ "macro_invocation" ∧ type ≠ "if_expression" ∧
      skippedFields type = []) : c.Plain := by
  obtain ⟨hblock, hinvoked, hif, hskipped⟩ := h _ hmem
  exact ⟨hblock, hinvoked, hif, hskipped⟩

/-- The types of which some fields are skipped. -/
def skippingTypes : List String :=
  ["if_let_expression", "closure_expression", "type_cast_expression", "field_expression"]

theorem skippedFields_of_not_mem {type : String} (h : type ∉ skippingTypes) : skippedFields type = [] := by
  unfold skippedFields
  split
  · exact absurd (by decide) h
  · exact absurd (by decide) h
  · exact absurd (by decide) h
  · exact absurd (by decide) h
  · rfl

/-- All nodes but some expressions are plain. -/
theorem plain_of_not_mem {c : Concrete}
    (h : c.type ∉ ["block", "macro_invocation", "if_expression"] ++ skippingTypes) : c.Plain := by
  rw [List.mem_append, not_or] at h
  obtain ⟨hthree, hskipping⟩ := h
  have hne {type : String} {types : List String} (hnot : c.type ∉ types) (hmem : type ∈ types) : c.type ≠ type := by
    rintro rfl
    exact hnot hmem
  exact ⟨hne hthree (by decide), hne hthree (by decide), hne hthree (by decide), skippedFields_of_not_mem hskipping⟩

theorem ne_of_not_isExpr {c : Concrete} (h : c.isExpr = false) {type : String} (hmem : type ∈ shapedTypes) :
    c.type ≠ type := by
  rintro rfl
  rw [isExpr, List.contains_iff_mem.2 hmem] at h
  cases h

theorem plain_of_not_isExpr {c : Concrete} (h : c.isExpr = false) : c.Plain := by
  refine plain_of_not_mem fun hmem => ?_
  have hshaped : ∀ type ∈ ["block", "macro_invocation", "if_expression"] ++ skippingTypes, type ∈ shapedTypes := by
    decide
  exact ne_of_not_isExpr h (hshaped _ hmem) rfl

theorem isConditional_of_not_isExpr {c : Concrete} (h : c.isExpr = false) : c.isConditional = false :=
  isConditional_of_ne (ne_of_not_isExpr h (by decide)) (ne_of_not_isExpr h (by decide))

mutual

/-- Looking through a plain node finds what the walk passes into. -/
theorem targets_lowered : ∀ (c : Concrete), c.Grammatical → c.Plain → c.targets.flatMap lowered = c.loweredBelow
  | mk type start stop named isError missing hasError field cs, h, hplain => by
    rw [hplain.loweredBelow, targets]
    exact targetsIn_lowered cs fun d hd => h.child hd

theorem targetsIn_lowered : ∀ (cs : List Concrete), (∀ d ∈ cs, d.Grammatical) →
    (targetsIn cs).flatMap lowered = (cs.filter (enters [])).flatMap lowered
  | [], _ => rfl
  | d :: rest, h => by
    have hd := h d (.head _)
    have henters : enters [] d = !(!d.isPart || d.isBarren) := by
      rw [enters_nil, Bool.not_or, Bool.not_not]
    rw [targetsIn, List.flatMap_append, targetsIn_lowered rest fun e he => h e (.tail _ he), List.filter_cons, henters]
    cases !d.isPart || d.isBarren with
    | true => rfl
    | false =>
      rw [if_neg Bool.false_ne_true, if_pos Bool.not_false, List.flatMap_cons]
      congr 1
      cases hexpr : d.isExpr with
      | true =>
        rw [if_pos rfl]
        exact List.flatMap_singleton ..
      | false =>
        rw [if_neg Bool.false_ne_true, targets_lowered d hd (plain_of_not_isExpr hexpr),
          lowered_of_not_isConditional (isConditional_of_not_isExpr hexpr)]

end

mutual

theorem grammatical_of_mem_targets : ∀ (c : Concrete), c.Grammatical → ∀ {d : Concrete}, d ∈ c.targets → d.Grammatical
  | mk type start stop named isError missing hasError field cs, h, d, hd => by
    rw [targets] at hd
    exact grammatical_of_mem_targetsIn cs (fun e he => h.child he) hd

theorem grammatical_of_mem_targetsIn : ∀ (cs : List Concrete), (∀ e ∈ cs, e.Grammatical) →
    ∀ {d : Concrete}, d ∈ targetsIn cs → d.Grammatical
  | [], _, d, hd => by
    rw [targetsIn] at hd
    cases hd
  | e :: rest, h, d, hd => by
    rw [targetsIn] at hd
    obtain hd | hd := List.mem_append.1 hd
    · split at hd
      · cases hd
      · split at hd
        · rw [List.mem_singleton.1 hd]
          exact h e (.head _)
        · exact grammatical_of_mem_targets e (h e (.head _)) hd
    · exact grammatical_of_mem_targetsIn rest (fun e' he => h e' (.tail _ he)) hd

end

/-- What the walk passes into in a construct that consists of one part. -/
theorem loweredBelow_of_single {c d : Concrete} {rest : List Concrete} (hreg : c.Regular) (hc : c.type ∈ singleTypes)
    (hparts : c.parts = d :: rest) : c.loweredBelow = d.lowered := by
  have hlength := hreg.single hc
  have hbarren := hreg.exprs (List.mem_cons_of_mem _ hc)
  have hplain : c.Plain := plain_of_mem singleTypes hc (by decide)
  cases rest with
  | cons e rest =>
    rw [hparts] at hlength
    simp at hlength
  | nil =>
    rw [hparts] at hbarren
    rw [hplain.loweredBelow, entered_nil, hparts, List.filter_cons, hbarren d (.head _)]
    exact List.append_nil _

/-- There is no conditional behind what is hollow. -/
theorem lowered_of_isHollow {d : Concrete} (h : d.isHollow) : d.lowered = [] := by
  rw [isHollow, Bool.and_eq_true, List.isEmpty_iff, Bool.not_eq_true'] at h
  have hinside : d.inside = [] := by
    rw [inside, entered, entered, parts, h.1]
    repeat' split
    all_goals rfl
  rw [lowered_of_not_isConditional h.2, loweredBelow_eq, hinside]
  rfl

/-- What the walk passes into in a construct that is read field by field. -/
theorem loweredBelow_of_fields {c : Concrete} {fields : List String} (hreg : c.Regular)
    (hfields : exprFields c.type = some fields) (hnodup : fields.Nodup) (hblock : c.type ≠ "block")
    (hinside : c.inside = c.entered (skippedFields c.type)) :
    c.loweredBelow.Perm (fields.flatMap fun f => (c.child? f).toList.flatMap lowered) := by
  rw [loweredBelow_of_ne hblock, hinside]
  exact flatMap_entered_perm lowered (hreg.fields _ hfields) hnodup fun d => lowered_of_isHollow

/-- The conditionals of a statement of a block that stand in no block of a `let` with `else`. -/
def loweredStmt (c : Concrete) : List Concrete :=
  (throughBinding c).flatMap fun d => if d.field == some "alternative" then [] else lowered d

theorem loweredStmt_of_ne {c : Concrete} (hlet : c.type ≠ "let_declaration") (hfield : c.field = none) :
    c.loweredStmt = c.lowered := by
  rw [loweredStmt, throughBinding, if_neg hlet, List.flatMap_singleton, hfield]
  rfl

theorem loweredBelow_of_block {c : Concrete} (hc : c.type = "block") :
    c.loweredBelow = (c.parts.filter fun d => d.type != "label").flatMap loweredStmt := by
  have hsame : ∀ d, isLetElse c d = (d.field == some "alternative") := by
    intro d
    rw [isLetElse, hc]
    rfl
  simp only [loweredBelow_eq, inside, if_pos hc, hsame, List.flatMap_assoc]
  rfl

end Concrete

namespace Reader

open Concrete

/-- The conditionals of a goal that stand in no block of a `let` with `else`. -/
def Goal.lowered : Goal → List Concrete
  | .block c => c.loweredBelow
  | .expr c => c.lowered
  | .stmt c => c.loweredStmt

/-- A goal of a tree that satisfies the grammar. -/
def Goal.Fits : Goal → Prop
  | .block c => c.Grammatical ∧ c.type = "block"
  | .expr c => c.Grammatical
  | .stmt c => c.Grammatical ∧ c.field = none

/-- The goals hold just the conditionals `cs`, in some order. -/
structure Covers (goals : List Goal) (cs : List Concrete) : Prop where
  fits : ∀ g ∈ goals, g.Fits
  perm : (goals.flatMap Goal.lowered).Perm cs

section Rules

variable {s : Snippet} {c : Concrete} {ms : List Node} {n : Node}

theorem mem_children_of_mem_parts {d : Concrete} (hd : d ∈ c.parts) : d ∈ c.children := (List.mem_filter.1 hd).1

/-! ## Blocks and statements -/

theorem loweredStmt_of_emptyStatement (h : c.Grammatical) (hc : c.type = "empty_statement") (hfield : c.field = none) :
    c.loweredStmt = [] := by
  have hlet : c.type ≠ "let_declaration" := by
    rw [hc]
    decide
  have hplain : c.Plain := plain_of_mem ["empty_statement"] (List.mem_singleton.2 hc) (by decide)
  have hown : c.isConditional = false := isConditional_of_ne (by rw [hc]; decide) (by rw [hc]; decide)
  rw [loweredStmt_of_ne hlet hfield, lowered_of_not_isConditional hown, hplain.loweredBelow, entered_nil,
    h.regular.emptyStatement hc]
  rfl

/-- The statements of a block are what the walk passes into, but for empty ones. -/
theorem lowered_stmtSlots : ∀ {cs : List Concrete}, (∀ d ∈ cs, d.Grammatical ∧ d.field = none) →
    ((stmtSlots cs).map fun slot => Goal.stmt slot.1).flatMap Goal.lowered =
      (cs.filter fun d => d.type != "label").flatMap loweredStmt
  | [], _ => rfl
  | d :: rest, h => by
    have ih := lowered_stmtSlots fun e he => h e (List.mem_cons_of_mem _ he)
    rw [stmtSlots, List.filter_cons]
    by_cases hlabel : d.type = "label"
    · rw [if_pos (by rw [hlabel]; decide), if_neg (by rw [hlabel]; decide)]
      exact ih
    · rw [if_pos (bne_iff_ne.2 hlabel), List.flatMap_cons]
      by_cases hempty : d.type = "empty_statement"
      · obtain ⟨hd, hfield⟩ := h d (.head _)
        rw [if_pos (by rw [hempty]; decide), loweredStmt_of_emptyStatement hd hempty hfield, List.nil_append]
        exact ih
      · have hneither : ¬((d.type = "label" || d.type = "empty_statement") = true) := by
          rw [Bool.or_eq_true, decide_eq_true_eq, decide_eq_true_eq]
          exact fun h => h.elim hlabel hempty
        rw [if_neg hneither, List.map_cons, List.flatMap_cons, ih]
        rfl

theorem covers_blockPlan (h : c.Grammatical) (hc : c.type = "block") :
    Covers (blockPlan s c).parts c.loweredBelow := by
  have hparts : ∀ d ∈ c.parts, d.Grammatical ∧ d.field = none := fun d hd =>
    ⟨h.child (mem_children_of_mem_parts hd), h.regular.statements hc d (mem_children_of_mem_parts hd)⟩
  constructor
  · intro g hg
    obtain ⟨slot, hslot, rfl⟩ := List.mem_map.1 hg
    exact hparts _ (mem_of_mem_stmtSlots hslot)
  · show (((stmtSlots c.parts).map fun slot => Goal.stmt slot.1).flatMap Goal.lowered).Perm c.loweredBelow
    rw [lowered_stmtSlots hparts, loweredBelow_of_block hc]

/-! ## Constructs that are read field by field -/

theorem lowered_expr (ds : List Concrete) : (ds.map Goal.expr).flatMap Goal.lowered = ds.flatMap lowered := by
  rw [List.flatMap_map]
  rfl

/-- The types of constructs whose parts are not simply what fills their fields. -/
def entangledTypes : List String := ["block", "macro_invocation", "if_expression"]

/-- A construct is covered by what fills its fields. -/
theorem covers_of_fields {type : String} {fields : List String} (ds : List Concrete) (h : c.Grammatical)
    (hc : c.type = type) (htype : type ∉ entangledTypes) (hfields : exprFields type = some fields)
    (hnodup : fields.Nodup) (hds : ds.Perm (fields.flatMap fun f => (c.child? f).toList)) :
    Covers (ds.map .expr) c.loweredBelow := by
  subst hc
  simp only [entangledTypes, List.mem_cons, List.not_mem_nil, or_false, not_or] at htype
  obtain ⟨hblock, hinvoked, hif⟩ := htype
  constructor
  · intro g hg
    obtain ⟨d, hd, rfl⟩ := List.mem_map.1 hg
    obtain ⟨f, -, hd⟩ := List.mem_flatMap.1 (hds.mem_iff.1 hd)
    exact h.child (mem_of_child? (Option.mem_toList.1 hd)).1
  · have hfilled := loweredBelow_of_fields h.regular hfields hnodup hblock (inside_of_ne hblock hinvoked hif)
    rw [← List.flatMap_assoc] at hfilled
    rw [lowered_expr]
    exact (hds.flatMap_right _).trans hfilled.symm

theorem covers_sidesPlan {type : String} {f : Node → Node → Node} (h : c.Grammatical) (hc : c.type = type)
    (htype : type ∉ entangledTypes) (hfields : exprFields type = some ["left", "right"])
    (hn : (sidesPlan c f).assemble ms = some n) : Covers (sidesPlan c f).parts c.loweredBelow := by
  unfold sidesPlan at hn ⊢
  cases hleft : c.child? "left" with
  | none =>
    rw [hleft] at hn
    cases hn
  | some left =>
    cases hright : c.child? "right" with
    | none =>
      rw [hleft, hright] at hn
      cases hn
    | some right =>
      refine covers_of_fields [left, right] h hc htype hfields (by decide) ?_
      rw [List.flatMap_cons, List.flatMap_singleton, hleft, hright]
      exact .refl _

theorem covers_binaryPlan (h : c.Grammatical) (hc : c.type = "binary_expression")
    (hn : (binaryPlan s c).assemble ms = some n) : Covers (binaryPlan s c).parts c.loweredBelow := by
  unfold binaryPlan at hn ⊢
  repeat' split at hn
  any_goals cases hn
  exact covers_sidesPlan h hc (by decide) rfl hn

theorem covers_compoundPlan (h : c.Grammatical) (hc : c.type = "compound_assignment_expr")
    (hn : (compoundPlan s c).assemble ms = some n) : Covers (compoundPlan s c).parts c.loweredBelow := by
  simp only [compoundPlan] at hn ⊢
  repeat' split at hn
  any_goals cases hn
  exact covers_sidesPlan h hc (by decide) rfl hn

/-- A construct around what fills one field. -/
theorem covers_of_field {type name : String} {d : Concrete} (h : c.Grammatical) (hc : c.type = type)
    (htype : type ∉ entangledTypes) (hfields : exprFields type = some [name]) (hd : c.child? name = some d) :
    Covers [.expr d] c.loweredBelow := by
  refine covers_of_fields [d] h hc htype hfields (by simp) ?_
  rw [List.flatMap_singleton, hd]
  exact .refl _

theorem covers_aroundPlan {type name : String} {f : Node → Node} (h : c.Grammatical) (hc : c.type = type)
    (htype : type ∉ entangledTypes) (hfields : exprFields type = some [name])
    (hn : (aroundPlan c name f).assemble ms = some n) : Covers (aroundPlan c name f).parts c.loweredBelow := by
  unfold aroundPlan at hn ⊢
  cases hd : c.child? name with
  | none =>
    rw [hd] at hn
    cases hn
  | some d => exact covers_of_field h hc htype hfields hd

/-- A construct around a value and a text. -/
theorem covers_valuePlan {type name : String} {f : List Char → Node → Node} (h : c.Grammatical) (hc : c.type = type)
    (htype : type ∉ entangledTypes) (hfields : exprFields type = some ["value"])
    (hn : (match c.child? "value" with
      | none => Plan.stuck [] (.missingField "value")
      | some value => withText s c name [.expr value] fun text => .one (.expr value) (f text)).assemble ms = some n) :
    Covers (match c.child? "value" with
      | none => Plan.stuck [] (.missingField "value")
      | some value => withText s c name [.expr value] fun text => .one (.expr value) (f text)).parts
      c.loweredBelow := by
  cases hd : c.child? "value" with
  | none =>
    rw [hd] at hn
    cases hn
  | some d =>
    rw [hd] at hn
    simp only at hn ⊢
    unfold withText at hn ⊢
    repeat' split at hn
    any_goals cases hn
    exact covers_of_field h hc htype hfields hd

theorem covers_closurePlan (h : c.Grammatical) (hc : c.type = "closure_expression")
    (hn : (closurePlan s c).assemble ms = some n) : Covers (closurePlan s c).parts c.loweredBelow := by
  unfold closurePlan at hn ⊢
  split at hn
  · cases hn
  · exact covers_aroundPlan h hc (by decide) rfl hn

/-! ## Constructs of one part -/

theorem covers_of_single {d : Concrete} {rest : List Concrete} (h : c.Grammatical) (hc : c.type ∈ singleTypes)
    (hparts : c.parts = d :: rest) : Covers [.expr d] c.loweredBelow := by
  constructor
  · intro g hg
    rw [List.mem_singleton.1 hg]
    refine h.child (mem_children_of_mem_parts ?_)
    rw [hparts]
    exact .head _
  · rw [loweredBelow_of_single h.regular hc hparts, List.flatMap_singleton]
    exact .refl _

theorem covers_firstPlan {f : Node → Node} (h : c.Grammatical) (hc : c.type ∈ singleTypes)
    (hn : (firstPlan c fun inner => .one (.expr inner) f).assemble ms = some n) :
    Covers (firstPlan c fun inner => .one (.expr inner) f).parts c.loweredBelow := by
  unfold firstPlan at hn ⊢
  cases hparts : c.parts with
  | nil =>
    rw [hparts] at hn
    cases hn
  | cons d rest => exact covers_of_single h hc hparts

theorem covers_unaryPlan (h : c.Grammatical) (hc : c.type = "unary_expression")
    (hn : (unaryPlan s c).assemble ms = some n) : Covers (unaryPlan s c).parts c.loweredBelow := by
  unfold unaryPlan at hn ⊢
  repeat' split at hn
  any_goals cases hn
  exact covers_of_single h (by rw [hc]; decide) ‹_›

end Rules

end Reader

end NestLint
