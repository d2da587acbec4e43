import NestLint.Proofs.Reader.Assembly
import NestLint.Proofs.Reader.Grammar
import NestLint.Proofs.Reader.Offsets

/-!
# Which nodes rules set up, and where

The nodes of the parts that a rule reads become its children, next to patterns that it sets up itself. A
parser lays the children of a node one after the other inside its range, so all this lies in the range of the
node that the rule is for.

* `Laid`, `Arranged`: how a parser lays a node over the text, and what this says of ranges alone;
* `Goal.From`, `Hung`: where the parts of a rule are from, and what hangs below its node;
* `framed_of_assemble`: what every rule sets up.
-/

namespace NestLint

namespace Concrete

/-! ## Ranges -/

/-- A node lies in the body of a snippet, and its children lie inside it, one after the other. -/
structure Laid (body : List Char) (c : Concrete) : Prop where
  inside : c.Inside body
  within : ∀ d ∈ c.children, c.start ≤ d.start ∧ d.stop ≤ c.stop
  ordered : c.children.Pairwise fun d e => d.stop ≤ e.start
  delimited : c.type = "token_tree" → c.Delimited body

instance (body : List Char) (c : Concrete) : Decidable (c.Laid body) :=
  decidable_of_iff
    (c.Inside body ∧ (∀ d ∈ c.children, c.start ≤ d.start ∧ d.stop ≤ c.stop) ∧
      c.children.Pairwise (fun d e => d.stop ≤ e.start) ∧ (c.type = "token_tree" → c.Delimited body))
    ⟨fun ⟨hinside, hwithin, hordered, hdelimited⟩ => ⟨hinside, hwithin, hordered, hdelimited⟩,
      fun ⟨hinside, hwithin, hordered, hdelimited⟩ => ⟨hinside, hwithin, hordered, hdelimited⟩⟩

/-- The children of a node lie inside its range, one after the other. A token tree is not empty, for it has its
delimiters. -/
structure Arranged (c : Concrete) : Prop where
  range : c.start ≤ c.stop
  within : ∀ d ∈ c.children, c.start ≤ d.start ∧ d.stop ≤ c.stop
  ordered : c.children.Pairwise fun d e => d.stop ≤ e.start
  delimited : c.type = "token_tree" → c.start < c.stop

instance (c : Concrete) : Decidable c.Arranged :=
  decidable_of_iff
    (c.start ≤ c.stop ∧ (∀ d ∈ c.children, c.start ≤ d.start ∧ d.stop ≤ c.stop) ∧
      c.children.Pairwise (fun d e => d.stop ≤ e.start) ∧ (c.type = "token_tree" → c.start < c.stop))
    ⟨fun ⟨hrange, hwithin, hordered, hdelimited⟩ => ⟨hrange, hwithin, hordered, hdelimited⟩,
      fun ⟨hrange, hwithin, hordered, hdelimited⟩ => ⟨hrange, hwithin, hordered, hdelimited⟩⟩

theorem Laid.arranged {body : List Char} {c : Concrete} (h : c.Laid body) : c.Arranged where
  range := h.inside.ordered
  within := h.within
  ordered := h.ordered
  delimited htype := Nat.lt_of_lt_of_le (Nat.lt_add_of_pos_right (by decide)) (h.delimited htype).closing.1

theorem mem_subtrees_child {c d e : Concrete} (hd : d ∈ c.children) (he : e ∈ d.subtrees) : e ∈ c.subtrees := by
  cases c
  exact List.mem_cons_of_mem _ (mem_subtreesIn he hd)

mutual

theorem range_of_mem_subtrees : ∀ (c : Concrete), (∀ d ∈ c.subtrees, d.Arranged) →
    ∀ {d : Concrete}, d ∈ c.subtrees → c.start ≤ d.start ∧ d.stop ≤ c.stop
  | mk type start stop named isError missing hasError field cs, hc, d, hd => by
    rw [subtrees, List.mem_cons] at hd
    obtain rfl | hd := hd
    · exact ⟨Nat.le_refl _, Nat.le_refl _⟩
    · obtain ⟨e, he, hed⟩ := range_of_mem_subtreesIn cs (fun d hd => hc d (List.mem_cons_of_mem _ hd)) hd
      have hwithin := (hc _ (mem_subtrees_self _)).within e he
      omega

theorem range_of_mem_subtreesIn : ∀ (cs : List Concrete), (∀ d ∈ subtreesIn cs, d.Arranged) →
    ∀ {d : Concrete}, d ∈ subtreesIn cs → ∃ c ∈ cs, c.start ≤ d.start ∧ d.stop ≤ c.stop
  | [], _, d, hd => by cases hd
  | c :: rest, hcs, d, hd => by
    rw [subtreesIn, List.mem_append] at hd
    obtain hd | hd := hd
    · exact ⟨c, .head _, range_of_mem_subtrees c (fun d hd => hcs d (List.mem_append_left _ hd)) hd⟩
    · obtain ⟨e, he, hed⟩ := range_of_mem_subtreesIn rest (fun d hd => hcs d (List.mem_append_right _ hd)) hd
      exact ⟨e, .tail _ he, hed⟩

end

mutual

theorem mem_subtrees_trans : ∀ (c : Concrete) {d e : Concrete}, d ∈ c.subtrees → e ∈ d.subtrees → e ∈ c.subtrees
  | mk type start stop named isError missing hasError field cs, d, e, hd, he => by
    rw [subtrees, List.mem_cons] at hd
    obtain rfl | hd := hd
    · exact he
    · rw [subtrees]
      exact List.mem_cons_of_mem _ (mem_subtreesIn_trans cs hd he)

theorem mem_subtreesIn_trans : ∀ (cs : List Concrete) {d e : Concrete}, d ∈ subtreesIn cs → e ∈ d.subtrees →
    e ∈ subtreesIn cs
  | [], _, _, hd, _ => by cases hd
  | c :: rest, d, e, hd, he => by
    rw [subtreesIn, List.mem_append] at hd ⊢
    exact hd.imp (fun hd => mem_subtrees_trans c hd he) fun hd => mem_subtreesIn_trans rest hd he

end

theorem mem_subtrees_of_child? {c d e : Concrete} {name : String} (hd : c.child? name = some d)
    (he : e ∈ d.subtrees) : e ∈ c.subtrees := mem_subtrees_child (mem_of_child? hd).1 he

theorem mem_subtrees_of_mem_parts {c d e : Concrete} (hd : d ∈ c.parts) (he : e ∈ d.subtrees) : e ∈ c.subtrees :=
  mem_subtrees_child (List.mem_filter.1 hd).1 he

mutual

theorem mem_subtrees_of_mem_targets : ∀ (c : Concrete) {d : Concrete}, d ∈ c.targets → d ∈ c.subtrees
  | mk _ _ _ _ _ _ _ _ cs, d, h => by
    rw [subtrees]
    exact List.mem_cons_of_mem _ (mem_subtreesIn_of_mem_targetsIn cs h)

theorem mem_subtreesIn_of_mem_targetsIn : ∀ (cs : List Concrete) {d : Concrete}, d ∈ targetsIn cs → d ∈ subtreesIn cs
  | [], d, h => by cases h
  | c :: rest, d, h => by
    rw [targetsIn, List.mem_append] at h
    rw [subtreesIn, List.mem_append]
    obtain h | h := h
    · left
      split at h
      · cases h
      · split at h
        · rw [List.mem_singleton.1 h]
          exact c.mem_subtrees_self
        · exact mem_subtrees_of_mem_targets c h
    · exact .inr (mem_subtreesIn_of_mem_targetsIn rest h)

end

/-- What `?` and type arguments are given to. -/
def operand? (c : Concrete) : Option Concrete :=
  if c.type = "try_expression" then c.parts.head?
  else if c.type = "generic_function" then c.child? "function"
  else none

/-- What a node of this kind was read from. -/
def Shows (c : Concrete) : Kind → Prop
  | .lit => c.type ∈ literalTypes
  | .ifThen | .ifLet => c.isConditional
  | .block => c.type = "block"
  | _ => True

end Concrete

namespace Reader

/-- The concrete node of a goal. -/
def Goal.source : Goal → Concrete
  | .block c | .expr c | .stmt c => c

/-- Where the parts of a rule are from: from below its node, or it is itself read as a block. What is read as
a block is one, unless it is the body of a conditional. -/
def Goal.From (c : Concrete) (g : Goal) : Prop :=
  g.source ∈ c.subtrees ∧
    ∀ b, g = .block b → b.type = "block" ∨ (c.isConditional ∧ b ∈ c.children ∧ b.field = some "consequence")

/-- What hangs below the node of a rule: the nodes `ms` of its parts, patterns, and bindings and items around
them. -/
inductive Hung (s : Snippet) (c : Concrete) (ms : List Node) : Node → Prop where
  | part {m : Node} : m ∈ ms → Hung s c ms m
  | pattern {lo hi : Nat} : c.start ≤ lo → lo ≤ hi → hi ≤ c.stop →
    Hung s c ms (.pat ⟨s.position lo, s.position hi, s.origin⟩)
  | frame {k : Node} : k.kind = .binding ∨ k.kind = .item → k.span = s.span c → (∀ l ∈ k.children, Hung s c ms l) →
    Hung s c ms k

/-- The node `n` is set up for `c`, with the nodes `ms` below it. -/
structure Frames (s : Snippet) (c : Concrete) (ms : List Node) (n : Node) : Prop where
  span : n.span = s.span c
  shows : c.Shows n.kind
  hung : ∀ k ∈ n.children, Hung s c ms k

/-- What a rule makes is set up for `c`, from parts that are from there. -/
def Plan.Draws (s : Snippet) (c : Concrete) (p : Plan) : Prop :=
  ∀ ms n, p.assemble ms = some n → Frames s c ms n ∧ ∀ g ∈ p.parts, g.From c

section Draws

variable {s : Snippet} {c : Concrete}

theorem Frames.of_subset {ms : List Node} {n : Node} (hspan : n.span = s.span c) (hshows : c.Shows n.kind)
    (h : n.children ⊆ ms) : Frames s c ms n := ⟨hspan, hshows, fun _ hk => .part (h hk)⟩

theorem Goal.from_expr {d : Concrete} (h : d ∈ c.subtrees) : (Goal.expr d).From c := ⟨h, nofun⟩

theorem Goal.from_stmt {d : Concrete} (h : d ∈ c.subtrees) : (Goal.stmt d).From c := ⟨h, nofun⟩

theorem Goal.from_child {d : Concrete} {name : String} (h : c.child? name = some d) : (Goal.expr d).From c :=
  from_expr (Concrete.mem_subtrees_of_child? h d.mem_subtrees_self)

namespace Plan

theorem draws_stuck (goals : List Goal) (fault : ReadFault) : (stuck goals fault).Draws s c := nofun

theorem draws_leaf {n : Node} (h : Frames s c [] n) : (leaf n).Draws s c := by
  intro ms k hk
  obtain ⟨rfl, rfl⟩ := of_assemble_leaf hk
  exact ⟨h, nofun⟩

theorem draws_one {a : Goal} {f : Node → Node} (ha : a.From c) (h : ∀ m, Frames s c [m] (f m)) :
    (one a f).Draws s c := by
  intro ms k hk
  obtain ⟨m, rfl, rfl⟩ := of_assemble_one hk
  exact ⟨h m, List.forall_mem_singleton.2 ha⟩

theorem draws_two {a b : Goal} {f : Node → Node → Node} (ha : a.From c) (hb : b.From c)
    (h : ∀ m m', Frames s c [m, m'] (f m m')) : (two a b f).Draws s c := by
  intro ms k hk
  obtain ⟨m, m', rfl, rfl⟩ := of_assemble_two hk
  exact ⟨h m m', List.forall_mem_cons.2 ⟨ha, List.forall_mem_singleton.2 hb⟩⟩

theorem draws_three {a b e : Goal} {f : Node → Node → Node → Node} (ha : a.From c) (hb : b.From c) (he : e.From c)
    (h : ∀ m m' m'', Frames s c [m, m', m''] (f m m' m'')) : (three a b e f).Draws s c := by
  intro ms k hk
  obtain ⟨m, m', m'', rfl, rfl⟩ := of_assemble_three hk
  exact ⟨h m m' m'', List.forall_mem_cons.2 ⟨ha, List.forall_mem_cons.2 ⟨hb, List.forall_mem_singleton.2 he⟩⟩⟩

theorem draws_many {goals : List Goal} {f : List Node → Node} (hg : ∀ g ∈ goals, g.From c)
    (h : ∀ ms, Frames s c ms (f ms)) : (many goals f).Draws s c := by
  intro ms k hk
  obtain rfl := of_assemble_many hk
  exact ⟨h ms, hg⟩

theorem draws_manyThen {goals : List Goal} {last : Goal} {f : List Node → Node → Node} (hg : ∀ g ∈ goals, g.From c)
    (hlast : last.From c) (h : ∀ ms m, Frames s c (ms ++ [m]) (f ms m)) : (manyThen goals last f).Draws s c := by
  intro ms k hk
  obtain ⟨ns, m, rfl, rfl⟩ := of_assemble_manyThen hk
  refine ⟨h ns m, fun g hmem => ?_⟩
  obtain hmem | hmem := List.mem_append.1 hmem
  · exact hg g hmem
  · rw [List.mem_singleton.1 hmem]
    exact hlast

end Plan

/-! ## The rules -/

theorem from_elseGoal? {g : Goal} (h : elseGoal? (c.child? "alternative") = .ok (some g)) : g.From c := by
  unfold elseGoal? at h
  split at h
  · cases h
  · rename_i clause hclause
    split at h
    · cases h
    · rename_i branch rest hparts
      have hmem : branch ∈ clause.parts := by
        rw [hparts]
        exact .head _
      have hbranch : branch ∈ c.subtrees :=
        Concrete.mem_subtrees_of_child? hclause (Concrete.mem_subtrees_of_mem_parts hmem branch.mem_subtrees_self)
      cases h
      split
      · refine ⟨hbranch, fun b hb => ?_⟩
        cases hb
        exact .inl ‹_›
      · exact Goal.from_expr hbranch

theorem from_consequence {body : Concrete} (hc : c.isConditional) (h : c.child? "consequence" = some body) :
    (Goal.block body).From c := by
  obtain ⟨hmem, hfield⟩ := Concrete.mem_of_child? h
  refine ⟨Concrete.mem_subtrees_of_child? h body.mem_subtrees_self, fun b hb => ?_⟩
  cases hb
  exact .inr ⟨hc, hmem, hfield⟩

/-- The parts of a conditional are read in another order than they stand. -/
theorem frames_ifWhole {ms : List Node} {cond body : Node} {els : Option Node} (hc : c.isConditional)
    (h : ∀ k ∈ cond :: body :: els.toList, k ∈ ms) : Frames s c ms (ifWhole (s.span c) cond body els) :=
  .of_subset rfl hc fun k hk => h k hk

/-- The pattern of a conditional lies below it. -/
theorem frames_ifLetWhole {ms : List Node} {pattern : Concrete} {value body : Node} {els : Option Node}
    (harranged : ∀ d ∈ c.subtrees, d.Arranged) (hc : c.isConditional) (hpattern : pattern ∈ c.subtrees)
    (h : ∀ k ∈ value :: body :: els.toList, k ∈ ms) :
    Frames s c ms (ifLetWhole (s.span c) (.pat (s.span pattern)) value body els) := by
  obtain ⟨hlo, hhi⟩ := c.range_of_mem_subtrees harranged hpattern
  refine ⟨rfl, hc, List.forall_mem_cons.2 ⟨.pattern hlo (harranged _ hpattern).range hhi, fun k hk => ?_⟩⟩
  exact .part (h k hk)

theorem draws_ifPlan (harranged : ∀ d ∈ c.subtrees, d.Arranged) (hc : c.type = "if_expression") :
    (ifPlan s c).Draws s c := by
  have hcond : c.isConditional := by
    rw [Concrete.isConditional, hc]
    rfl
  simp only [ifPlan]
  split
  · exact Plan.draws_stuck _ _
  · rename_i body hbody
    have hbody := from_consequence hcond hbody
    split
    · exact Plan.draws_stuck _ _
    · rename_i els hels
      split
      · exact Plan.draws_stuck _ _
      · rename_i cond hc'
        split
        · split
          · exact Plan.draws_stuck _ _
          · rename_i pattern hpattern
            split
            · exact Plan.draws_stuck _ _
            · rename_i value hvalue
              have hpattern : pattern ∈ c.subtrees := Concrete.mem_subtrees_of_child? hc'
                (Concrete.mem_subtrees_of_child? hpattern pattern.mem_subtrees_self)
              have hvalue : (Goal.expr value).From c := Goal.from_expr <| Concrete.mem_subtrees_of_child? hc'
                (Concrete.mem_subtrees_of_child? hvalue value.mem_subtrees_self)
              split
              · exact Plan.draws_two hbody hvalue fun b v => frames_ifLetWhole harranged hcond hpattern (by simp)
              · exact Plan.draws_three hbody (from_elseGoal? hels) hvalue fun b e v =>
                  frames_ifLetWhole harranged hcond hpattern (by simp)
        · split
          · exact Plan.draws_two hbody (Goal.from_child hc') fun b t => frames_ifWhole hcond (by simp)
          · exact Plan.draws_three hbody (from_elseGoal? hels) (Goal.from_child hc') fun b e t =>
              frames_ifWhole hcond (by simp)

theorem draws_ifLetPlan (harranged : ∀ d ∈ c.subtrees, d.Arranged) (hc : c.type = "if_let_expression") :
    (ifLetPlan s c).Draws s c := by
  have hcond : c.isConditional := by
    rw [Concrete.isConditional, hc]
    rfl
  simp only [ifLetPlan]
  split
  · exact Plan.draws_stuck _ _
  · rename_i pattern hpattern
    have hpattern : pattern ∈ c.subtrees := Concrete.mem_subtrees_of_child? hpattern pattern.mem_subtrees_self
    split
    · exact Plan.draws_stuck _ _
    · rename_i value hvalue
      split
      · exact Plan.draws_stuck _ _
      · rename_i body hbody
        have hbody := from_consequence hcond hbody
        split
        · exact Plan.draws_stuck _ _
        · exact Plan.draws_two (Goal.from_child hvalue) hbody fun v b =>
            frames_ifLetWhole harranged hcond hpattern (by simp)
        · exact Plan.draws_three (Goal.from_child hvalue) hbody (from_elseGoal? ‹_›) fun v b e =>
            frames_ifLetWhole harranged hcond hpattern (by simp)

theorem draws_sidesPlan {f : Node → Node → Node} (h : ∀ l r, Frames s c [l, r] (f l r)) :
    (sidesPlan c f).Draws s c := by
  unfold sidesPlan
  split
  · exact Plan.draws_stuck _ _
  · split
    · exact Plan.draws_stuck _ _
    · exact Plan.draws_two (Goal.from_child ‹_›) (Goal.from_child ‹_›) h

theorem draws_binaryPlan : (binaryPlan s c).Draws s c := by
  unfold binaryPlan
  split
  · exact Plan.draws_stuck _ _
  · split
    · exact Plan.draws_stuck _ _
    · exact draws_sidesPlan fun l r => .of_subset rfl trivial (List.Subset.refl _)

theorem draws_compoundPlan : (compoundPlan s c).Draws s c := by
  simp only [compoundPlan]
  split
  · exact Plan.draws_stuck _ _
  · split
    · exact Plan.draws_stuck _ _
    · exact draws_sidesPlan fun l r => .of_subset rfl trivial (List.Subset.refl _)

theorem draws_unaryPlan : (unaryPlan s c).Draws s c := by
  unfold unaryPlan
  split
  · exact Plan.draws_stuck _ _
  · split
    · exact Plan.draws_stuck _ _
    · split
      · exact Plan.draws_stuck _ _
      · rename_i operand rest hparts
        have hmem : operand ∈ c.parts := by
          rw [hparts]
          exact .head _
        exact Plan.draws_one (Goal.from_expr (Concrete.mem_subtrees_of_mem_parts hmem operand.mem_subtrees_self))
          fun m => .of_subset rfl trivial (List.Subset.refl _)

theorem draws_aroundPlan {name : String} {f : Node → Node} (h : ∀ m, Frames s c [m] (f m)) :
    (aroundPlan c name f).Draws s c := by
  unfold aroundPlan
  split
  · exact Plan.draws_stuck _ _
  · exact Plan.draws_one (Goal.from_child ‹_›) h

theorem draws_firstPlan {f : Node → Node} (h : ∀ m, Frames s c [m] (f m)) :
    (firstPlan c fun inner => .one (.expr inner) f).Draws s c := by
  unfold firstPlan
  split
  · exact Plan.draws_stuck _ _
  · rename_i inner rest hparts
    have hmem : inner ∈ c.parts := by
      rw [hparts]
      exact .head _
    exact Plan.draws_one (Goal.from_expr (Concrete.mem_subtrees_of_mem_parts hmem inner.mem_subtrees_self)) h

theorem draws_withText {d : Concrete} {name : String} {before : List Goal} {f : List Char → Plan}
    (h : ∀ text, (f text).Draws s c) : (withText s d name before f).Draws s c := by
  unfold withText
  split
  · exact Plan.draws_stuck _ _
  · split
    · exact Plan.draws_stuck _ _
    · exact h _

theorem draws_textPlan {f : List Char → Node} (h : ∀ text, Frames s c [] (f text)) : (textPlan s c f).Draws s c := by
  unfold textPlan
  split
  · exact Plan.draws_stuck _ _
  · exact Plan.draws_leaf (h _)

/-- A construct around a value and a text. -/
theorem draws_valuePlan {name : String} {f : List Char → Node → Node} (h : ∀ text m, Frames s c [m] (f text m)) :
    (match c.child? "value" with
      | none => Plan.stuck [] (.missingField "value")
      | some value => withText s c name [.expr value] fun text => .one (.expr value) (f text)).Draws s c := by
  split
  · exact Plan.draws_stuck _ _
  · exact draws_withText fun text => Plan.draws_one (Goal.from_child ‹_›) (h text)

theorem draws_callPlan : (callPlan s c).Draws s c := by
  simp only [callPlan]
  split
  · exact Plan.draws_stuck _ _
  · rename_i list hlist
    have hargs : ∀ g ∈ list.parts.map Goal.expr, g.From c := by
      intro g hg
      obtain ⟨d, hd, rfl⟩ := List.mem_map.1 hg
      exact Goal.from_expr (Concrete.mem_subtrees_of_child? hlist
        (Concrete.mem_subtrees_of_mem_parts hd d.mem_subtrees_self))
    split
    · exact Plan.draws_stuck _ _
    · rename_i func hfunc
      have hcall : (Plan.manyThen (list.parts.map Goal.expr) (.expr func) fun nodes f =>
          .call (s.span c) f nodes).Draws s c :=
        Plan.draws_manyThen hargs (Goal.from_child hfunc) fun ns m => .of_subset rfl trivial (by simp [Node.children])
      have hmethod {access : Concrete} (haccess : ∀ d ∈ access.subtrees, d ∈ c.subtrees) :
          (match access.child? "value" with
            | none => Plan.stuck (list.parts.map Goal.expr) (.missingField "value")
            | some value =>
              withText s access "field" (list.parts.map Goal.expr ++ [Goal.expr value]) fun name =>
                .manyThen (list.parts.map Goal.expr) (.expr value) fun nodes receiver =>
                  .methodCall (s.span c) receiver (String.ofList name) nodes).Draws s c := by
        split
        · exact Plan.draws_stuck _ _
        · rename_i value hvalue
          have hvalue : (Goal.expr value).From c := Goal.from_expr
            (haccess _ (Concrete.mem_subtrees_of_child? hvalue value.mem_subtrees_self))
          exact draws_withText fun text => Plan.draws_manyThen hargs hvalue fun ns m =>
            .of_subset rfl trivial (by simp [Node.children])
      split
      · exact hmethod fun d hd => Concrete.mem_subtrees_of_child? hfunc hd
      · split
        · split
          · exact Plan.draws_stuck _ _
          · rename_i access haccess
            split
            · exact hmethod fun d hd =>
                Concrete.mem_subtrees_of_child? hfunc (Concrete.mem_subtrees_of_child? haccess hd)
            · exact hcall
        · exact hcall

theorem draws_rangePlan : (rangePlan s c).Draws s c := by
  refine Plan.draws_many (fun g hg => ?_) fun ms => .of_subset rfl trivial fun k hk => ?_
  · obtain ⟨bound, hbound, rfl⟩ := List.mem_map.1 hg
    exact Goal.from_expr (Concrete.mem_subtrees_child (mem_of_mem_rangeBounds hbound) bound.1.mem_subtrees_self)
  · obtain hk | hk := List.mem_append.1 hk
    · exact mem_of_pickBound (Option.mem_toList.1 hk)
    · exact mem_of_pickBound (Option.mem_toList.1 hk)

theorem draws_closurePlan (harranged : ∀ d ∈ c.subtrees, d.Arranged) : (closurePlan s c).Draws s c := by
  unfold closurePlan
  split
  · exact Plan.draws_stuck _ _
  · rename_i list hlist
    refine draws_aroundPlan fun m => ⟨rfl, trivial, fun k hk => ?_⟩
    obtain hk | hk := List.mem_append.1 hk
    · obtain ⟨p, hp, rfl⟩ := List.mem_map.1 hk
      have hmem := Concrete.mem_subtrees_of_child? hlist (Concrete.mem_subtrees_of_mem_parts hp p.mem_subtrees_self)
      obtain ⟨hlo, hhi⟩ := c.range_of_mem_subtrees harranged hmem
      exact .pattern hlo (harranged p hmem).range hhi
    · exact .part hk

theorem from_targets : ∀ g ∈ c.targets.map Goal.expr, g.From c := by
  intro g hg
  obtain ⟨d, hd, rfl⟩ := List.mem_map.1 hg
  exact Goal.from_expr (c.mem_subtrees_of_mem_targets hd)

/-- The pattern of a binding starts at `mut` if that stands in front of it. -/
theorem hung_bindingPattern {ms : List Node} {pattern : Concrete} (harranged : ∀ d ∈ c.subtrees, d.Arranged)
    (hpattern : pattern ∈ c.children) : Hung s c ms (bindingPattern s c pattern) := by
  have hrange (d : Concrete) (hd : d ∈ c.children) : c.start ≤ d.start ∧ d.start ≤ d.stop ∧ d.stop ≤ c.stop := by
    have hmem := Concrete.mem_subtrees_child hd d.mem_subtrees_self
    obtain ⟨hlo, hhi⟩ := c.range_of_mem_subtrees harranged hmem
    exact ⟨hlo, (harranged d hmem).range, hhi⟩
  have hmin (starts : List Nat) (hstarts : ∀ start ∈ starts, c.start ≤ start) (start : Nat) (h : c.start ≤ start) :
      c.start ≤ starts.foldl min start ∧ starts.foldl min start ≤ start := by
    induction starts generalizing start with
    | nil => exact ⟨h, Nat.le_refl _⟩
    | cons first rest ih =>
      have hfirst := hstarts first (.head _)
      have := ih (fun k hk => hstarts k (.tail _ hk)) (min start first) (by omega)
      rw [List.foldl_cons]
      omega
  obtain ⟨hlo, hordered, hhi⟩ := hrange pattern hpattern
  have hstarts : ∀ start ∈ (c.children.filter fun d => d.type == "mutable_specifier").map Concrete.start,
      c.start ≤ start := by
    intro start hstart
    obtain ⟨d, hd, rfl⟩ := List.mem_map.1 hstart
    exact (hrange d (List.mem_filter.1 hd).1).1
  obtain ⟨hlo, hle⟩ := hmin _ hstarts pattern.start hlo
  exact .pattern hlo (Nat.le_trans hle hordered) hhi

theorem draws_stmtPlan (harranged : ∀ d ∈ c.subtrees, d.Arranged) : (stmtPlan s c).Draws s c := by
  simp only [stmtPlan]
  split
  · split
    · exact Plan.draws_stuck _ _
    · rename_i pattern hpattern
      have hpattern {ms : List Node} : Hung s c ms (bindingPattern s c pattern) :=
        hung_bindingPattern harranged (Concrete.mem_of_child? hpattern).1
      have hbinding {ms : List Node} {init : Option Node} (hinit : ∀ m ∈ init, m ∈ ms) :
          Frames s c ms
            (.stmt (s.span c) .binding (.binding (s.span c) (some (bindingPattern s c pattern)) init)) := by
        refine ⟨rfl, trivial, List.forall_mem_singleton.2 (.frame (.inl rfl) rfl ?_)⟩
        exact List.forall_mem_cons.2 ⟨hpattern, fun k hk => .part (hinit k (Option.mem_toList.1 hk))⟩
      split
      · exact Plan.draws_leaf (hbinding (by simp))
      · exact Plan.draws_one (Goal.from_child ‹_›) fun m => hbinding (by simp)
  · split
    · split
      · exact Plan.draws_stuck _ _
      · rename_i inner rest hparts
        have hmem : inner ∈ c.parts := by
          rw [hparts]
          exact .head _
        exact Plan.draws_one (Goal.from_expr (Concrete.mem_subtrees_of_mem_parts hmem inner.mem_subtrees_self))
          fun m => .of_subset rfl trivial (List.Subset.refl _)
    · split
      · exact Plan.draws_one (Goal.from_expr c.mem_subtrees_self) fun m =>
          .of_subset rfl trivial (List.Subset.refl _)
      · refine Plan.draws_many from_targets fun ms => ⟨rfl, trivial, List.forall_mem_singleton.2 ?_⟩
        exact .frame (.inr rfl) rfl fun k hk => .part hk

/-- The expressions whose rules set up a node of their own at the span of the expression. -/
theorem draws_exprPlan (harranged : ∀ d ∈ c.subtrees, d.Arranged) (hblock : c.type ≠ "block")
    (hrespans : (Goal.expr c).respans = false) : (exprPlan s c).Draws s c := by
  rw [Goal.respans, Bool.or_eq_false_iff, beq_eq_false_iff_ne, beq_eq_false_iff_ne] at hrespans
  obtain ⟨htry, hgeneric⟩ := hrespans
  have hone {f : Node → Node} (hspan : ∀ m, (f m).span = s.span c) (hshows : ∀ m, c.Shows (f m).kind)
      (hchildren : ∀ m, (f m).children = [m]) (m : Node) : Frames s c [m] (f m) :=
    .of_subset (hspan m) (hshows m) (by rw [hchildren]; exact List.Subset.refl _)
  simp only [exprPlan]
  split
  · rename_i htype
    exact draws_textPlan fun text => .of_subset rfl (List.elem_iff.1 htype) (List.nil_subset _)
  · split
    · exact draws_textPlan fun text => .of_subset rfl trivial (List.nil_subset _)
    · split
      · exact draws_ifPlan harranged ‹_›
      · exact draws_ifLetPlan harranged ‹_›
      · exact absurd ‹_› hblock
      · exact draws_binaryPlan
      · exact draws_unaryPlan
      · exact draws_aroundPlan (hone (fun _ => rfl) (fun _ => trivial) fun _ => rfl)
      · exact draws_firstPlan (hone (fun _ => rfl) (fun _ => trivial) fun _ => rfl)
      · exact draws_callPlan
      · exact draws_valuePlan fun text => hone (fun _ => rfl) (fun _ => trivial) fun _ => rfl
      · exact absurd ‹_› hgeneric
      · exact draws_valuePlan fun text => hone (fun _ => rfl) (fun _ => trivial) fun _ => rfl
      · exact draws_sidesPlan fun l r => .of_subset rfl trivial (List.Subset.refl _)
      · exact draws_compoundPlan
      · exact draws_rangePlan
      · exact absurd ‹_› htry
      · exact draws_closurePlan harranged
      · exact Plan.draws_many from_targets fun ms => .of_subset rfl trivial (List.Subset.refl _)

/-! ## All rules -/

/-- What the rule for a goal makes of the nodes of its parts. -/
inductive Framed (s : Snippet) : Goal → List Node → Node → Prop where
  | around {g : Goal} {ms : List Node} {n : Node} : g.respans = false → Frames s g.source ms n → Framed s g ms n
  /-- The node of the operand is taken over. -/
  | respanned {c d : Concrete} {m : Node} : c.operand? = some d → (plan s (.expr c)).parts = [.expr d] →
    Framed s (.expr c) [m] (m.withSpan (s.span c))
  /-- A block in place of an expression. -/
  | whole {c : Concrete} {m : Node} : (plan s (.expr c)).parts = [.block c] →
    Framed s (.expr c) [m] (.blockExpr m.span m)
  | block {c : Concrete} {ms : List Node} :
    Framed s (.block c) ms
      (.block (s.span c) (List.zipWith (fun slot n => closeBy s slot.2 n) (stmtSlots c.parts) ms))

theorem Plan.Draws.framed {ms : List Node} {n : Node} {g : Goal} (h : (plan s g).Draws s g.source)
    (hrespans : g.respans = false) (hn : (plan s g).assemble ms = some n) :
    Framed s g ms n ∧ ∀ k ∈ (plan s g).parts, k.From g.source :=
  ⟨.around hrespans (h ms n hn).1, (h ms n hn).2⟩

theorem framed_respanned {ms : List Node} {n : Node} (h : (Goal.expr c).respans)
    (hn : (plan s (.expr c)).assemble ms = some n) :
    Framed s (.expr c) ms n ∧ ∀ g ∈ (plan s (.expr c)).parts, g.From c := by
  -- Both rules read one part and put the span over its node.
  have hone {d : Concrete} (hd : c.operand? = some d) (hmem : d ∈ c.subtrees)
      (hplan : plan s (.expr c) = .one (.expr d) fun m => m.withSpan (s.span c)) :
      Framed s (.expr c) ms n ∧ ∀ g ∈ (plan s (.expr c)).parts, g.From c := by
    have hparts : (plan s (.expr c)).parts = [.expr d] := by
      rw [hplan]
      rfl
    rw [hplan] at hn
    obtain ⟨m, rfl, rfl⟩ := of_assemble_one hn
    refine ⟨.respanned hd hparts, ?_⟩
    rw [hparts]
    exact List.forall_mem_singleton.2 (Goal.from_expr hmem)
  rw [Goal.respans, Bool.or_eq_true, beq_iff_eq, beq_iff_eq] at h
  obtain hc | hc := h
  · have hplan : plan s (.expr c) = firstPlan c fun inner => .one (.expr inner) fun n => n.withSpan (s.span c) := by
      rw [plan, exprPlan, hc]
      rfl
    rw [hplan, firstPlan] at hn
    split at hn
    · cases hn
    · rename_i inner rest hparts
      have hmem : inner ∈ c.parts := by
        rw [hparts]
        exact .head _
      refine hone ?_ (Concrete.mem_subtrees_of_mem_parts hmem inner.mem_subtrees_self) ?_
      · rw [Concrete.operand?, if_pos hc, hparts]
        rfl
      · rw [hplan, firstPlan, hparts]
  · have hplan : plan s (.expr c) = aroundPlan c "function" fun n => n.withSpan (s.span c) := by
      rw [plan, exprPlan, hc]
      rfl
    rw [hplan, aroundPlan] at hn
    split at hn
    · cases hn
    · rename_i func hfunc
      refine hone ?_ (Concrete.mem_subtrees_of_child? hfunc func.mem_subtrees_self) ?_
      · rw [Concrete.operand?, hc, if_neg (by decide), if_pos rfl, hfunc]
      · rw [hplan, aroundPlan, hfunc]

/-- Every rule makes a node in one of the four ways, from parts below its own node. -/
theorem framed_of_assemble {g : Goal} {ms : List Node} {n : Node} (harranged : ∀ d ∈ g.source.subtrees, d.Arranged)
    (hn : (plan s g).assemble ms = some n) : Framed s g ms n ∧ ∀ k ∈ (plan s g).parts, k.From g.source := by
  cases g with
  | block c =>
    obtain rfl := of_assemble_many hn
    refine ⟨.block, fun g hg => ?_⟩
    obtain ⟨slot, hslot, rfl⟩ := List.mem_map.1 hg
    exact Goal.from_stmt (Concrete.mem_subtrees_of_mem_parts (mem_of_mem_stmtSlots hslot) slot.1.mem_subtrees_self)
  | stmt c => exact Plan.Draws.framed (draws_stmtPlan harranged) rfl hn
  | expr c =>
    by_cases hblock : c.type = "block"
    · have hplan : plan s (.expr c) = .one (.block c) fun b => .blockExpr b.span b := by
        rw [plan, exprPlan, hblock]
        rfl
      rw [hplan] at hn
      obtain ⟨m, rfl, rfl⟩ := of_assemble_one hn
      have hparts : (plan s (.expr c)).parts = [.block c] := by
        rw [hplan]
        rfl
      refine ⟨.whole hparts, ?_⟩
      rw [hparts]
      refine List.forall_mem_singleton.2 ⟨c.mem_subtrees_self, fun b hb => ?_⟩
      cases hb
      exact .inl hblock
    · cases hrespans : (Goal.expr c).respans with
      | true => exact framed_respanned hrespans hn
      | false => exact Plan.Draws.framed (draws_exprPlan harranged hblock hrespans) hrespans hn

end Draws

end Reader

end NestLint
