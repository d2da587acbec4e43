import NestLint.Proofs.Reader.Frames

/-!
# How readings fail

A reading that fails has a fault that can be traced: to a rule whose construct is not as it should be, to a
snippet that the parser or the shape of its tree does not let in, or to patience that has run out. A syntax
error in the body of a macro is never what a reading fails with, because the invocation is kept then.

* `Plan.Within`: rules read below their own node and get stuck for want of a part, an operator or a text only;
* `Fails`: readings that fail, as runs;
* `Blame`, `blame_of_build`: where the fault of a reading comes from;
* `ne_malformed_of_blame`: which fault it is not.
-/

namespace NestLint

/-- Whether a rule has the fault: what stands in a construct is not what the rule asks for. -/
def ReadFault.ofRule : ReadFault → Bool
  | .missingField _ | .missingPart | .unknownBinary _ | .unknownUnary _ | .undecodable => true
  | .malformed .. | .unwrapped | .unparsed | .endless => false

namespace Reader

/-! ## What rules read, and where they get stuck -/

/-- The fault of a rule that does not fit its construct. -/
def Plan.fault? : Plan → Option ReadFault
  | .stuck _ fault => some fault
  | _ => none

/-- A rule reads nodes below `c`, also if it gets stuck, and if it does its fault is one of rules. -/
structure Plan.Within (c : Concrete) (p : Plan) : Prop where
  below : ∀ g ∈ p.parts, g.source ∈ c.subtrees
  fault : ∀ fault ∈ p.fault?, fault.ofRule

section Within

variable {s : Snippet} {c : Concrete}

theorem source_of_child? {d : Concrete} {name : String} (h : c.child? name = some d) : d ∈ c.subtrees :=
  Concrete.mem_subtrees_of_child? h d.mem_subtrees_self

theorem source_of_mem_parts {d : Concrete} (h : d ∈ c.parts) : d ∈ c.subtrees :=
  Concrete.mem_subtrees_of_mem_parts h d.mem_subtrees_self

theorem source_of_parts {d : Concrete} {rest : List Concrete} (h : c.parts = d :: rest) : d ∈ c.subtrees :=
  source_of_mem_parts (h ▸ .head _)

/-- A list of expressions below a node. -/
theorem source_of_mem_exprs {ds : List Concrete} (h : ∀ d ∈ ds, d ∈ c.subtrees) :
    ∀ g ∈ ds.map Goal.expr, g.source ∈ c.subtrees := by
  intro g hg
  obtain ⟨d, hd, rfl⟩ := List.mem_map.1 hg
  exact h d hd

namespace Plan

theorem within_stuck {goals : List Goal} {fault : ReadFault} (h : ∀ g ∈ goals, g.source ∈ c.subtrees)
    (hfault : fault.ofRule) : (stuck goals fault).Within c := by
  refine ⟨h, fun f hf => ?_⟩
  cases hf
  exact hfault

/-- A rule that gets stuck before it reads anything. -/
theorem within_bare {fault : ReadFault} (hfault : fault.ofRule) : (stuck [] fault).Within c :=
  within_stuck nofun hfault

theorem within_leaf (n : Node) : (leaf n).Within c := ⟨nofun, nofun⟩

theorem within_one {a : Goal} (ha : a.source ∈ c.subtrees) (f : Node → Node) : (one a f).Within c :=
  ⟨List.forall_mem_singleton.2 ha, nofun⟩

theorem within_two {a b : Goal} (ha : a.source ∈ c.subtrees) (hb : b.source ∈ c.subtrees) (f : Node → Node → Node) :
    (two a b f).Within c :=
  ⟨List.forall_mem_cons.2 ⟨ha, List.forall_mem_singleton.2 hb⟩, nofun⟩

theorem within_three {a b e : Goal} (ha : a.source ∈ c.subtrees) (hb : b.source ∈ c.subtrees)
    (he : e.source ∈ c.subtrees) (f : Node → Node → Node → Node) : (three a b e f).Within c :=
  ⟨List.forall_mem_cons.2 ⟨ha, List.forall_mem_cons.2 ⟨hb, List.forall_mem_singleton.2 he⟩⟩, nofun⟩

theorem within_many {goals : List Goal} (h : ∀ g ∈ goals, g.source ∈ c.subtrees) (f : List Node → Node) :
    (many goals f).Within c :=
  ⟨h, nofun⟩

theorem within_manyThen {goals : List Goal} {last : Goal} (h : ∀ g ∈ goals, g.source ∈ c.subtrees)
    (hlast : last.source ∈ c.subtrees) (f : List Node → Node → Node) : (manyThen goals last f).Within c :=
  ⟨List.forall_mem_append.2 ⟨h, List.forall_mem_singleton.2 hlast⟩, nofun⟩

end Plan

open Plan

theorem ofRule_of_elseGoal? {branch : Option Concrete} {fault : ReadFault} (h : elseGoal? branch = .error fault) :
    fault.ofRule := by
  unfold elseGoal? at h
  split at h
  · cases h
  · split at h
    · cases h
      rfl
    · cases h

theorem within_ifPlan : (ifPlan s c).Within c := by
  simp only [ifPlan]
  split
  · exact within_bare rfl
  · rename_i body hbody
    have hbody := source_of_child? hbody
    split
    · rename_i fault hfault
      exact within_stuck (List.forall_mem_singleton.2 hbody) (ofRule_of_elseGoal? hfault)
    · rename_i els hels
      have hbranches : ∀ g ∈ Goal.block body :: els.toList, g.source ∈ c.subtrees := by
        refine List.forall_mem_cons.2 ⟨hbody, fun g hg => ?_⟩
        rw [Option.mem_toList.1 hg] at hels
        exact (from_elseGoal? hels).1
      split
      · exact within_stuck hbranches rfl
      · rename_i cond hcond
        have hbelow {d : Concrete} (hd : d ∈ cond.subtrees) := Concrete.mem_subtrees_of_child? hcond hd
        split
        · split
          · exact within_stuck hbranches rfl
          · split
            · exact within_stuck hbranches rfl
            · rename_i value hvalue
              have hvalue : (Goal.expr value).source ∈ c.subtrees := hbelow (source_of_child? hvalue)
              split
              · exact within_two hbody hvalue _
              · exact within_three hbody (from_elseGoal? hels).1 hvalue _
        · split
          · exact within_two hbody (source_of_child? hcond) _
          · exact within_three hbody (from_elseGoal? hels).1 (source_of_child? hcond) _

theorem within_ifLetPlan : (ifLetPlan s c).Within c := by
  simp only [ifLetPlan]
  split
  · exact within_bare rfl
  · split
    · exact within_bare rfl
    · rename_i value hvalue
      have hvalue := source_of_child? hvalue
      split
      · exact within_stuck (List.forall_mem_singleton.2 hvalue) rfl
      · rename_i body hbody
        have hbody := source_of_child? hbody
        split
        · rename_i fault hfault
          refine within_stuck (List.forall_mem_cons.2 ⟨hvalue, ?_⟩) (ofRule_of_elseGoal? hfault)
          exact List.forall_mem_singleton.2 hbody
        · exact within_two hvalue hbody _
        · exact within_three hvalue hbody (from_elseGoal? ‹_›).1 _

theorem within_sidesPlan (f : Node → Node → Node) : (sidesPlan c f).Within c := by
  unfold sidesPlan
  split
  · exact within_bare rfl
  · rename_i left hleft
    have hleft := source_of_child? hleft
    split
    · exact within_stuck (List.forall_mem_singleton.2 hleft) rfl
    · exact within_two hleft (source_of_child? ‹_›) f

theorem within_binaryPlan : (binaryPlan s c).Within c := by
  unfold binaryPlan
  split
  · exact within_bare rfl
  · split
    · exact within_bare rfl
    · exact within_sidesPlan _

theorem within_compoundPlan : (compoundPlan s c).Within c := by
  simp only [compoundPlan]
  split
  · exact within_bare rfl
  · split
    · exact within_bare rfl
    · exact within_sidesPlan _

theorem within_unaryPlan : (unaryPlan s c).Within c := by
  unfold unaryPlan
  split
  · exact within_bare rfl
  · split
    · exact within_bare rfl
    · split
      · exact within_bare rfl
      · exact within_one (source_of_parts ‹_›) _

theorem within_aroundPlan (name : String) (f : Node → Node) : (aroundPlan c name f).Within c := by
  unfold aroundPlan
  split
  · exact within_bare rfl
  · exact within_one (source_of_child? ‹_›) f

theorem within_firstPlan (f : Node → Node) : (firstPlan c fun inner => .one (.expr inner) f).Within c := by
  unfold firstPlan
  split
  · exact within_bare rfl
  · exact within_one (source_of_parts ‹_›) f

theorem within_withText {d : Concrete} {name : String} {before : List Goal} {f : List Char → Plan}
    (hbefore : ∀ g ∈ before, g.source ∈ c.subtrees) (h : ∀ text, (f text).Within c) :
    (withText s d name before f).Within c := by
  unfold withText
  split
  · exact within_stuck hbefore rfl
  · split
    · exact within_stuck hbefore rfl
    · exact h _

theorem within_textPlan (f : List Char → Node) : (textPlan s c f).Within c := by
  unfold textPlan
  split
  · exact within_bare rfl
  · exact within_leaf _

/-- A construct around a value and a text. -/
theorem within_valuePlan (name : String) (f : List Char → Node → Node) :
    (match c.child? "value" with
      | none => Plan.stuck [] (.missingField "value")
      | some value => withText s c name [.expr value] fun text => .one (.expr value) (f text)).Within c := by
  split
  · exact within_bare rfl
  · rename_i value hvalue
    have hvalue := source_of_child? hvalue
    exact within_withText (List.forall_mem_singleton.2 hvalue) fun text => within_one hvalue _

theorem within_callPlan : (callPlan s c).Within c := by
  simp only [callPlan]
  split
  · exact within_bare rfl
  · rename_i list hlist
    have hargs : ∀ g ∈ list.parts.map Goal.expr, g.source ∈ c.subtrees :=
      source_of_mem_exprs fun d hd => Concrete.mem_subtrees_of_child? hlist (source_of_mem_parts hd)
    split
    · exact within_stuck hargs rfl
    · rename_i func hfunc
      have hmethod {access : Concrete} (haccess : ∀ d ∈ access.subtrees, d ∈ c.subtrees) :
          (match access.child? "value" with
            | none => Plan.stuck (list.parts.map Goal.expr) (.missingField "value")
            | some value =>
              withText s access "field" (list.parts.map Goal.expr ++ [Goal.expr value]) fun name =>
                .manyThen (list.parts.map Goal.expr) (.expr value) fun nodes receiver =>
                  .methodCall (s.span c) receiver (String.ofList name) nodes).Within c := by
        split
        · exact within_stuck hargs rfl
        · rename_i value hvalue
          have hvalue : (Goal.expr value).source ∈ c.subtrees := haccess _ (source_of_child? hvalue)
          refine within_withText (List.forall_mem_append.2 ⟨hargs, List.forall_mem_singleton.2 hvalue⟩) fun text => ?_
          exact within_manyThen hargs hvalue _
      split
      · exact hmethod fun d hd => Concrete.mem_subtrees_of_child? hfunc hd
      · split
        · split
          · exact within_stuck hargs rfl
          · rename_i access haccess
            split
            · exact hmethod fun d hd =>
                Concrete.mem_subtrees_of_child? hfunc (Concrete.mem_subtrees_of_child? haccess hd)
            · exact within_manyThen hargs (source_of_child? hfunc) _
        · exact within_manyThen hargs (source_of_child? hfunc) _

theorem within_rangePlan : (rangePlan s c).Within c := by
  refine within_many (fun g hg => ?_) _
  obtain ⟨bound, hbound, rfl⟩ := List.mem_map.1 hg
  exact Concrete.mem_subtrees_child (mem_of_mem_rangeBounds hbound) bound.1.mem_subtrees_self

theorem within_closurePlan : (closurePlan s c).Within c := by
  unfold closurePlan
  split
  · exact within_bare rfl
  · exact within_aroundPlan _ _

theorem within_targets (f : List Node → Node) : (Plan.many (c.targets.map Goal.expr) f).Within c :=
  within_many (source_of_mem_exprs fun _ hd => c.mem_subtrees_of_mem_targets hd) f

theorem within_blockPlan : (blockPlan s c).Within c := by
  refine within_many (fun g hg => ?_) _
  obtain ⟨slot, hslot, rfl⟩ := List.mem_map.1 hg
  exact source_of_mem_parts (mem_of_mem_stmtSlots hslot)

theorem within_stmtPlan : (stmtPlan s c).Within c := by
  simp only [stmtPlan]
  split
  · split
    · exact within_bare rfl
    · split
      · exact within_leaf _
      · exact within_one (source_of_child? ‹_›) _
  · split
    · split
      · exact within_bare rfl
      · exact within_one (source_of_parts ‹_›) _
    · split
      · exact within_one c.mem_subtrees_self _
      · exact within_targets _

theorem within_exprPlan : (exprPlan s c).Within c := by
  simp only [exprPlan]
  split
  · exact within_textPlan _
  · split
    · exact within_textPlan _
    · split
      · exact within_ifPlan
      · exact within_ifLetPlan
      · exact within_one c.mem_subtrees_self _
      · exact within_binaryPlan
      · exact within_unaryPlan
      · exact within_aroundPlan _ _
      · exact within_firstPlan _
      · exact within_callPlan
      · exact within_valuePlan _ _
      · exact within_aroundPlan _ _
      · exact within_valuePlan _ _
      · exact within_sidesPlan _
      · exact within_compoundPlan
      · exact within_rangePlan
      · exact within_firstPlan _
      · exact within_closurePlan
      · exact within_targets _

theorem within_plan (s : Snippet) (g : Goal) : (plan s g).Within g.source := by
  cases g with
  | block c => exact within_blockPlan
  | expr c => exact within_exprPlan
  | stmt c => exact within_stmtPlan

end Within

/-! ## Readings that fail -/

/-- Reading ends with a fault and goes from one progress to another. -/
def Fails {α : Type} (x : Read α) (p : Progress) (fault : ReadFault) (q : Progress) : Prop :=
  x.run p = (.error fault, q)

section Fails

variable {α β : Type} {p q : Progress} {fault : ReadFault}

theorem not_fails_pure {a : α} : ¬Fails (pure a) p fault q := nofun

theorem fails_throw {f : ReadFault} : Fails (throw f : Read α) p fault q ↔ f = fault ∧ p = q := by
  constructor
  · intro h
    cases h
    exact ⟨rfl, rfl⟩
  · rintro ⟨rfl, rfl⟩
    rfl

/-- Two steps fail if the first one does, or else if the second one does. -/
theorem fails_bind {x : Read α} {f : α → Read β} :
    Fails (x >>= f) p fault q ↔ Fails x p fault q ∨ ∃ a r, Gives x p a r ∧ Fails (f a) r fault q := by
  rw [Fails, Fails, run_bind]
  cases hx : x.run p with
  | mk result r =>
    cases result with
    | ok a =>
      constructor
      · intro h
        exact .inr ⟨a, r, hx, h⟩
      · rintro (h | ⟨b, r', hb, h⟩)
        · cases h
        · cases hx.symm.trans hb
          exact h
    | error f' =>
      constructor
      · intro h
        cases h
        exact .inl rfl
      · rintro (h | ⟨b, r', hb, -⟩)
        · cases h
          rfl
        · cases hx.symm.trans hb

theorem fails_ofExcept {e : Except ReadFault α} : Fails (ofExcept e) p fault q ↔ e = .error fault ∧ p = q := by
  cases e with
  | ok a => exact ⟨nofun, nofun⟩
  | error f =>
    constructor
    · intro h
      cases h
      exact ⟨rfl, rfl⟩
    · rintro ⟨h, rfl⟩
      cases h
      rfl

theorem not_fails_note {text : String} : ¬Fails (note text) p fault q := nofun

theorem not_fails_freshOrigin {name : String} : ¬Fails (freshOrigin name) p fault q := nofun

/-- A list of goals fails with a fault of one of them. -/
theorem fails_readAll : ∀ {goals : List Goal} {f : (k : Goal) → k ∈ goals → Read Node} {p q : Progress},
    Fails (readAll goals f) p fault q → ∃ k h r r', Fails (f k h) r fault r'
  | [], _, _, _, h => absurd h not_fails_pure
  | g :: rest, f, p, q, h => by
    rw [readAll, fails_bind] at h
    obtain h | ⟨n, r, -, h⟩ := h
    · exact ⟨g, .head _, p, q, h⟩
    · obtain h | ⟨ns, r', -, h⟩ := fails_bind.1 h
      · obtain ⟨k, hk, r₁, r₂, hfails⟩ := fails_readAll h
        exact ⟨k, .tail _ hk, r₁, r₂, hfails⟩
      · exact absurd h not_fails_pure

/-- A plan that fails is stuck, or one of its parts fails. -/
theorem fails_run {plan : Plan} {f : (k : Goal) → k ∈ plan.parts → Read Node} (h : Fails (plan.run f) p fault q) :
    plan.fault? = some fault ∨ ∃ k hk r r', Fails (f k hk) r fault r' := by
  cases plan with
  | stuck parts f' =>
    obtain h | ⟨ns, r, -, h⟩ := fails_bind.1 h
    · exact .inr (fails_readAll h)
    · obtain ⟨rfl, -⟩ := fails_throw.1 h
      exact .inl rfl
  | leaf node => exact absurd h not_fails_pure
  | one a g =>
    obtain h | ⟨_, _, -, h⟩ := fails_bind.1 h
    · exact .inr ⟨a, _, p, q, h⟩
    · exact absurd h not_fails_pure
  | two a b g =>
    obtain h | ⟨_, r, -, h⟩ := fails_bind.1 h
    · exact .inr ⟨a, _, p, q, h⟩
    obtain h | ⟨_, _, -, h⟩ := fails_bind.1 h
    · exact .inr ⟨b, _, r, q, h⟩
    · exact absurd h not_fails_pure
  | three a b c g =>
    obtain h | ⟨_, r, -, h⟩ := fails_bind.1 h
    · exact .inr ⟨a, _, p, q, h⟩
    obtain h | ⟨_, r', -, h⟩ := fails_bind.1 h
    · exact .inr ⟨b, _, r, q, h⟩
    obtain h | ⟨_, _, -, h⟩ := fails_bind.1 h
    · exact .inr ⟨c, _, r', q, h⟩
    · exact absurd h not_fails_pure
  | many parts g =>
    obtain h | ⟨_, _, -, h⟩ := fails_bind.1 h
    · exact .inr (fails_readAll h)
    · exact absurd h not_fails_pure
  | manyThen parts last g =>
    obtain h | ⟨_, r, -, h⟩ := fails_bind.1 h
    · obtain ⟨k, hk, r₁, r₂, hfails⟩ := fails_readAll h
      exact .inr ⟨k, _, r₁, r₂, hfails⟩
    obtain h | ⟨_, _, -, h⟩ := fails_bind.1 h
    · exact .inr ⟨last, _, r, q, h⟩
    · exact absurd h not_fails_pure

end Fails

/-! ## Where faults come from -/

section Blame

variable (parser : Parser) (opaqueMacros : List String)

/-- Where the fault of a reading comes from. The number is the patience. -/
inductive Blame : Nat → Snippet → Goal → ReadFault → Prop where
  /-- A construct is not what its rule asks for. -/
  | rule {t : Nat} {s : Snippet} {g : Goal} {fault : ReadFault} : fault.ofRule → Blame t s g fault
  /-- A part could not be read. -/
  | part {t : Nat} {s : Snippet} {g k : Goal} {fault : ReadFault} :
    g.isMacro = false → k ∈ (plan s g).parts → Blame t s k fault → Blame t s g fault
  /-- The body of an invocation was not taken for a list of statements, although it has no syntax error. -/
  | shut {t : Nat} {s inner : Snippet} {c : Concrete} {name : String} {i : Int} {fault : ReadFault} :
    c.type = "macro_invocation" → Opens opaqueMacros s c name i inner → parse parser inner = .error fault →
      (∀ what position, fault ≠ .malformed what position) → Blame t s (.expr c) fault
  /-- The body of an invocation is not shorter than the snippet that holds it, and no patience is left. -/
  | long {s inner : Snippet} {c block : Concrete} {name : String} {i : Int} :
    c.type = "macro_invocation" → Opens opaqueMacros s c name i inner → parse parser inner = .ok block →
      ¬inner.body.length < s.body.length → Blame 0 s (.expr c) .endless
  /-- The body of an invocation could not be read. -/
  | body {t t' : Nat} {s inner : Snippet} {c block : Concrete} {name : String} {i : Int} {fault : ReadFault} :
    c.type = "macro_invocation" → Opens opaqueMacros s c name i inner → parse parser inner = .ok block →
      Enters t s inner t' → Blame t' inner (.block block) fault → Blame t s (.expr c) fault

end Blame

variable {parser : Parser} {opaqueMacros : List String} {t : Nat} {s : Snippet}

/-- A rule that fails is not met by its construct, or one of its parts is to blame. -/
theorem blame_of_run {g : Goal} (hm : g.isMacro = false) {f : (k : Goal) → k ∈ (plan s g).parts → Read Node}
    (hf : ∀ k h p fault q, Fails (f k h) p fault q → Blame parser opaqueMacros t s k fault) {p q : Progress}
    {fault : ReadFault} (h : Fails ((plan s g).run f) p fault q) : Blame parser opaqueMacros t s g fault := by
  obtain hstuck | ⟨k, hk, r, r', hfails⟩ := fails_run h
  · exact .rule ((within_plan s g).fault fault hstuck)
  · exact .part hm hk (hf k hk r fault r' hfails)

theorem ofRule_of_macroName {c : Concrete} {fault : ReadFault} (h : macroName s c = .error fault) : fault.ofRule := by
  unfold macroName at h
  split at h
  · cases h
    rfl
  · split at h
    · cases h
      rfl
    · cases h

/-- What is done with the body of an invocation that was read cannot fail. -/
theorem not_fails_replaced {n kept : Node} {text : String} {p q : Progress} {fault : ReadFault} :
    ¬Fails (match soleExpr? n with
      | some node => pure node
      | none => do
        note text
        pure kept) p fault q := by
  intro h
  cases hsole : soleExpr? n with
  | some node =>
    rw [hsole] at h
    exact not_fails_pure h
  | none =>
    rw [hsole] at h
    obtain h | ⟨_, _, -, h⟩ := fails_bind.1 h
    · exact not_fails_note h
    · exact not_fails_pure h

/-- The fault of every reading that fails comes from somewhere. -/
theorem blame_of_build (patience : Nat) (s : Snippet) (goal : Goal) {p q : Progress} {fault : ReadFault}
    (h : Fails (build parser opaqueMacros patience s goal) p fault q) :
    Blame parser opaqueMacros patience s goal fault := by
  match goal with
  | .block c =>
    rw [build_of_not_isMacro rfl] at h
    exact blame_of_run rfl (fun k hk _ _ _ hfails => blame_of_build patience s k hfails) h
  | .stmt c =>
    rw [build_of_not_isMacro rfl] at h
    exact blame_of_run rfl (fun k hk _ _ _ hfails => blame_of_build patience s k hfails) h
  | .expr c =>
    by_cases hc : c.type = "macro_invocation"
    · rw [build, if_pos hc] at h
      obtain h | ⟨name, r, -, h⟩ := fails_bind.1 h
      · exact .rule (ofRule_of_macroName (fails_ofExcept.1 h).1)
      cases htree : bodyTree? opaqueMacros name c with
      | none =>
        rw [htree] at h
        exact absurd h not_fails_pure
      | some tree =>
        rw [htree] at h
        obtain h | ⟨origin, r', hfresh, h⟩ := fails_bind.1 h
        · exact absurd h not_fails_freshOrigin
        obtain ⟨rfl, -⟩ := gives_freshOrigin hfresh
        cases hinside : s.inside? tree with
        | none =>
          rw [hinside] at h
          obtain ⟨rfl, -⟩ := fails_throw.1 h
          exact .rule rfl
        | some body =>
          have ho : Opens opaqueMacros s c name r.nextOrigin (s.inner tree body ⟨r.nextOrigin, some name⟩) :=
            ⟨tree, body, htree, hinside, rfl⟩
          rw [hinside] at h
          simp only at h
          split at h
          · obtain h | ⟨_, _, -, h⟩ := fails_bind.1 h
            · exact absurd h not_fails_note
            · exact absurd h not_fails_pure
          · rename_i fault' hfault hparse
            obtain ⟨rfl, -⟩ := fails_throw.1 h
            exact .shut hc ho hparse hfault
          · rename_i block hparse
            split at h
            · rename_i hshort
              obtain h | ⟨_, _, -, h⟩ := fails_bind.1 h
              · exact .body hc ho hparse (.inl ⟨hshort, rfl⟩) (blame_of_build patience _ _ h)
              · exact absurd h not_fails_replaced
            · rename_i hlong
              split at h
              · obtain h | ⟨_, _, hthrow, -⟩ := fails_bind.1 h
                · obtain ⟨rfl, -⟩ := fails_throw.1 h
                  exact .long hc ho hparse hlong
                · exact absurd hthrow not_gives_throw
              · obtain h | ⟨_, _, -, h⟩ := fails_bind.1 h
                · exact .body hc ho hparse (.inr ⟨hlong, rfl⟩) (blame_of_build _ _ _ h)
                · exact absurd h not_fails_replaced
    · have hm : (Goal.expr c).isMacro = false := beq_eq_false_iff_ne.2 hc
      rw [build_of_not_isMacro hm] at h
      exact blame_of_run hm (fun k hk _ _ _ hfails => blame_of_build patience s k hfails) h
termination_by (patience, s.body.length, goal.measure)
decreasing_by
  · exact .right _ (.right _ (lt_of_mem_parts ‹_›))
  · exact .right _ (.right _ (lt_of_mem_parts ‹_›))
  · exact .left _ _ (by omega)
  · exact .right _ (.left _ _ ‹_›)
  · exact .right _ (.right _ (lt_of_mem_parts ‹_›))

/-- A syntax error in a body is not what a reading fails with, at whatever depth the body stands. -/
theorem ne_malformed_of_blame {g : Goal} {fault : ReadFault} (h : Blame parser opaqueMacros t s g fault) :
    ∀ what position, fault ≠ .malformed what position := by
  induction h with
  | rule hfault =>
    rintro what position rfl
    cases hfault
  | part _ _ _ ih => exact ih
  | shut _ _ _ hfault => exact hfault
  | long _ _ _ _ => exact nofun
  | body _ _ _ _ _ ih => exact ih

end Reader

end NestLint
