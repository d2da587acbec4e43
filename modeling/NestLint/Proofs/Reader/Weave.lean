import Mathlib.Data.List.Forall2
import NestLint.Proofs.Reader.Account
import NestLint.Proofs.Tree.Walk

/-!
# How rules put nodes together

A rule sets up a few nodes of its own, in the text of its snippet, and hangs the nodes of its parts
among them as they are. Two kinds of rules do more: `?` and type arguments take over the node of
their operand and give it their own span, and a block closes statements by the semicolons behind
them. A range keeps no more than one bound on either side.

* `Woven`: nodes that are made of nodes of an origin with the given nodes among them;
* `Goal.kept`: what a rule makes use of, of all that was read for it;
* `Made`: what a rule makes of its parts.
-/

namespace NestLint

/-- Whether a concrete node is a conditional. -/
def Concrete.isConditional (c : Concrete) : Bool := c.type == "if_expression" || c.type == "if_let_expression"

theorem Concrete.isConditional_of_ne {c : Concrete} (hif : c.type ≠ "if_expression")
    (hiflet : c.type ≠ "if_let_expression") : c.isConditional = false := by
  rw [isConditional, beq_eq_false_iff_ne.2 hif, beq_eq_false_iff_ne.2 hiflet]
  rfl

namespace Reader

/-! ## Nodes among fresh nodes -/

/-- The nodes `ns` are made of the nodes `ms`, in order, and of nodes of the origin `o` that are no
conditionals. -/
inductive Woven (o : Origin) : List Node → List Node → Prop where
  | nil : Woven o [] []
  | part {m : Node} {ms ns : List Node} : Woven o ms ns → Woven o (m :: ms) (m :: ns)
  | fresh {n : Node} {ms ms' ns : List Node} :
    n.span.origin = o → n.isConditional = false → Woven o ms n.children → Woven o ms' ns →
      Woven o (ms ++ ms') (n :: ns)

namespace Woven

variable {o : Origin} {ms ms' ns ns' : List Node}

theorem parts : ∀ ns : List Node, Woven o ns ns
  | [] => .nil
  | _ :: rest => .part (parts rest)

theorem append (h : Woven o ms ns) (h' : Woven o ms' ns') : Woven o (ms ++ ms') (ns ++ ns') := by
  induction h with
  | nil => exact h'
  | part _ ih => exact .part ih
  | fresh ho hn hparts _ _ ih =>
    rw [List.append_assoc]
    exact .fresh ho hn hparts ih

theorem one {n : Node} (ho : n.span.origin = o) (hn : n.isConditional = false) (h : Woven o ms n.children) :
    Woven o ms [n] := by
  have := Woven.fresh ho hn h .nil
  rwa [List.append_nil] at this

/-- Fresh nodes without parts. -/
theorem leaves {α : Type} (f : α → Node)
    (h : ∀ x, (f x).span.origin = o ∧ (f x).isConditional = false ∧ (f x).children = []) :
    ∀ xs : List α, Woven o [] (xs.map f)
  | [] => .nil
  | x :: rest => by
    obtain ⟨ho, hn, hchildren⟩ := h x
    have hx : Woven o [] (f x).children := by
      rw [hchildren]
      exact .nil
    exact .fresh ho hn hx (leaves f h rest)

/-- A node is fresh, or it is below one that was given. -/
theorem origin (h : Woven o ms ns) {k : Node} (hk : k ∈ ns.flatMap Node.nodes) :
    k.span.origin = o ∨ k ∈ ms.flatMap Node.nodes := by
  induction h with
  | nil => exact .inr hk
  | @part m ms ns _ ih =>
    rw [List.flatMap_cons, List.mem_append] at hk ⊢
    obtain hk | hk := hk
    · exact .inr (.inl hk)
    · obtain ho | hk := ih hk
      · exact .inl ho
      · exact .inr (.inr hk)
  | @fresh n ms ms' ns ho _ _ _ ihparts ih =>
    rw [List.flatMap_cons, Node.nodes_eq, List.cons_append, List.mem_cons, List.mem_append] at hk
    rw [List.flatMap_append, List.mem_append]
    obtain rfl | hk | hk := hk
    · exact .inl ho
    · obtain ho | hk := ihparts hk
      · exact .inl ho
      · exact .inr (.inl hk)
    · obtain ho | hk := ih hk
      · exact .inl ho
      · exact .inr (.inr hk)

/-- The nodes that were given are there. -/
theorem subset (h : Woven o ms ns) {k : Node} (hk : k ∈ ms.flatMap Node.nodes) : k ∈ ns.flatMap Node.nodes := by
  induction h with
  | nil => exact hk
  | @part m ms ns _ ih =>
    rw [List.flatMap_cons, List.mem_append] at hk ⊢
    exact hk.imp_right ih
  | @fresh n ms ms' ns _ _ _ _ ihparts ih =>
    rw [List.flatMap_append, List.mem_append] at hk
    rw [List.flatMap_cons, Node.nodes_eq, List.cons_append, List.mem_cons, List.mem_append]
    obtain hk | hk := hk
    · exact .inr (.inl (ihparts hk))
    · exact .inr (.inr (ih hk))

/-- The conditionals are those of the nodes that were given, in order. -/
theorem conditionals (h : Woven o ms ns) : ns.flatMap Node.conditionals = ms.flatMap Node.conditionals := by
  induction h with
  | nil => rfl
  | part _ ih => rw [List.flatMap_cons, ih, List.flatMap_cons]
  | fresh _ hn _ _ ihparts ih =>
    rw [List.flatMap_cons, Node.conditionals_eq, hn, ihparts, ih, List.flatMap_append]
    rfl

end Woven

/-! ## What a rule makes use of -/

/-- The last of the bounds on one side, of those that stand at these sides. -/
def pickBound {α : Type} (sides : List Bool) (behind : Bool) (xs : List α) : Option α :=
  (((List.zip sides xs).filter fun entry => entry.1 == behind).map Prod.snd).getLast?

/-- What a rule makes use of, of all that was read for it: everything, but of a range only the last
bound on either side. -/
def Goal.kept {α : Type} (g : Goal) (xs : List α) : List α :=
  match g with
  | .expr c =>
    if c.type = "range_expression" then
      let sides := (rangeBounds false c.children).map Prod.snd
      (pickBound sides false xs).toList ++ (pickBound sides true xs).toList
    else xs
  | _ => xs

section Kept

variable {α β : Type}

theorem pickBound_map (f : α → β) (sides : List Bool) (behind : Bool) (xs : List α) :
    pickBound sides behind (xs.map f) = (pickBound sides behind xs).map f := by
  simp only [pickBound, List.zip_map_right, List.filter_map, List.map_map, ← List.getLast?_map]
  rfl

theorem kept_map (f : α → β) (g : Goal) (xs : List α) : g.kept (xs.map f) = (g.kept xs).map f := by
  cases g with
  | expr c =>
    rw [Goal.kept, Goal.kept]
    split
    · simp only [pickBound_map, List.map_append, Option.toList_map]
    · rfl
  | _ => rfl

theorem mem_of_pickBound {sides : List Bool} {behind : Bool} {xs : List α} {x : α}
    (h : pickBound sides behind xs = some x) : x ∈ xs := by
  obtain ⟨entry, hentry, rfl⟩ := List.mem_map.1 (List.mem_of_getLast? h)
  exact (List.of_mem_zip (List.mem_filter.1 hentry).1).2

theorem mem_of_mem_kept {g : Goal} {xs : List α} {x : α} (h : x ∈ g.kept xs) : x ∈ xs := by
  cases g with
  | expr c =>
    rw [Goal.kept] at h
    split at h
    · obtain h | h := List.mem_append.1 h
      · exact mem_of_pickBound (Option.mem_toList.1 h)
      · exact mem_of_pickBound (Option.mem_toList.1 h)
    · exact h
  | block c => exact h
  | stmt c => exact h

end Kept

/-! ## What rules make -/

/-- Whether the rule for a goal takes over the node of its only part, with another span. -/
def Goal.respans : Goal → Bool
  | .expr c => c.type == "try_expression" || c.type == "generic_function"
  | _ => false

/-- Whether a goal is a conditional. -/
def Goal.isConditional : Goal → Bool
  | .expr c => c.isConditional
  | _ => false

/-- What takes over a node is no conditional and keeps its part. -/
theorem plain_of_respans {α : Type} (xs : List α) {c : Concrete} (h : (Goal.expr c).respans) :
    (Goal.expr c).kept xs = xs ∧ (Goal.expr c).isConditional = false := by
  have htype : c.type = "try_expression" ∨ c.type = "generic_function" := by
    rw [Goal.respans, Bool.or_eq_true, beq_iff_eq, beq_iff_eq] at h
    exact h
  have hne {type : String} (htry : "try_expression" ≠ type) (hgeneric : "generic_function" ≠ type) :
      c.type ≠ type := by
    obtain hc | hc := htype
    · rwa [hc]
    · rwa [hc]
  constructor
  · rw [Goal.kept, if_neg (hne (by decide) (by decide))]
  · rw [Goal.isConditional, Concrete.isConditional, beq_eq_false_iff_ne.2 (hne (by decide) (by decide)),
      beq_eq_false_iff_ne.2 (hne (by decide) (by decide))]
    rfl

/-- A node that a rule sets up around the nodes of parts, which it keeps as they are. The span may be
that of a part. -/
structure Around (s : Snippet) (conditional : Bool) (ms : List Node) (n : Node) : Prop where
  origin : n.span.origin = s.origin ∨ ∃ m ∈ ms, n.span = m.span
  conditional : n.isConditional = conditional
  parts : ∃ ks, ms.Perm ks ∧ Woven s.origin ks n.children

/-- What a rule makes of the nodes of its parts. -/
inductive Made (s : Snippet) : Goal → List Node → Node → Prop where
  | around {g : Goal} {ms : List Node} {n : Node} :
    g.respans = false → Around s g.isConditional (g.kept ms) n → Made s g ms n
  | respanned {c : Concrete} {m : Node} : (Goal.expr c).respans → Made s (.expr c) [m] (m.withSpan (s.span c))
  | block {c : Concrete} {ms ns : List Node} :
    List.Forall₂ (fun m n => ∃ semicolon, n = closeBy s semicolon m) ms ns →
      Made s (.block c) ms (.block (s.span c) ns)

/-! ## Closing statements -/

section Close

variable {s : Snippet}

theorem children_closeBy (semicolon : Option Nat) (n : Node) : (closeBy s semicolon n).children = n.children := by
  unfold closeBy
  split <;> rfl

theorem isConditional_closeBy (semicolon : Option Nat) (n : Node) :
    (closeBy s semicolon n).isConditional = n.isConditional := by
  unfold closeBy
  split <;> rfl

theorem origin_closeBy (semicolon : Option Nat) (n : Node) :
    (closeBy s semicolon n).span.origin = s.origin ∨ (closeBy s semicolon n).span.origin = n.span.origin := by
  unfold closeBy
  split
  · exact .inl rfl
  · exact .inr rfl

theorem closeBy_of_isConditional {semicolon : Option Nat} {n : Node} (h : n.isConditional) :
    closeBy s semicolon n = n := by
  unfold closeBy
  split
  · cases h
  · rfl

theorem conditionals_closeBy (semicolon : Option Nat) (n : Node) :
    (closeBy s semicolon n).conditionals = n.conditionals := by
  rw [Node.conditionals_eq, Node.conditionals_eq n, children_closeBy, isConditional_closeBy]
  split
  · rw [closeBy_of_isConditional ‹_›]
  · rfl

end Close

/-! ## What is below a node that was made -/

theorem exists_of_forall₂ {α β : Type} {R : α → β → Prop} {xs : List α} {ys : List β} (h : List.Forall₂ R xs ys) :
    (∀ x ∈ xs, ∃ y ∈ ys, R x y) ∧ ∀ y ∈ ys, ∃ x ∈ xs, R x y := by
  induction h with
  | nil => exact ⟨nofun, nofun⟩
  | @cons x y xs ys hxy _ ih =>
    constructor
    · intro x' hx
      obtain rfl | hx := List.mem_cons.1 hx
      · exact ⟨y, .head _, hxy⟩
      · obtain ⟨y', hy, hr⟩ := ih.1 x' hx
        exact ⟨y', .tail _ hy, hr⟩
    · intro y' hy
      obtain rfl | hy := List.mem_cons.1 hy
      · exact ⟨x, .head _, hxy⟩
      · obtain ⟨x', hx, hr⟩ := ih.2 y' hy
        exact ⟨x', .tail _ hx, hr⟩

namespace Made

variable {s : Snippet} {g : Goal} {ms : List Node} {n : Node}

/-- Every node of what a rule makes is from the text of the snippet, or from where a node of a part
is from. -/
theorem origin (h : Made s g ms n) {k : Node} (hk : k ∈ n.nodes) :
    k.span.origin = s.origin ∨ ∃ m ∈ ms, ∃ l ∈ m.nodes, k.span.origin = l.span.origin := by
  rw [Node.mem_nodes_iff] at hk
  cases h with
  | around _ h =>
    obtain ⟨horigin, -, ks, hperm, hwoven⟩ := h
    obtain rfl | hk := hk
    · obtain ho | ⟨m, hm, hspan⟩ := horigin
      · exact .inl ho
      · exact .inr ⟨m, mem_of_mem_kept hm, m, m.mem_nodes_self, congrArg Span.origin hspan⟩
    · obtain ho | hk := hwoven.origin hk
      · exact .inl ho
      · obtain ⟨m, hm, hk⟩ := List.mem_flatMap.1 hk
        exact .inr ⟨m, mem_of_mem_kept (hperm.mem_iff.2 hm), k, hk, rfl⟩
  | @respanned c m _ =>
    obtain rfl | hk := hk
    · left
      rw [Node.span_withSpan]
      rfl
    · rw [Node.children_withSpan] at hk
      exact .inr ⟨m, .head _, k, Node.mem_nodes_iff.2 (.inr hk), rfl⟩
  | block h =>
    obtain rfl | hk := hk
    · exact .inl rfl
    · obtain ⟨n', hn', hk⟩ := List.mem_flatMap.1 hk
      obtain ⟨m, hm, semicolon, rfl⟩ := (exists_of_forall₂ h).2 n' hn'
      rw [Node.mem_nodes_iff, children_closeBy] at hk
      obtain rfl | hk := hk
      · obtain ho | ho := origin_closeBy (s := s) semicolon m
        · exact .inl ho
        · exact .inr ⟨m, hm, m, m.mem_nodes_self, ho⟩
      · exact .inr ⟨m, hm, k, Node.mem_nodes_iff.2 (.inr hk), rfl⟩

/-- What is below a node that a rule makes use of is below what it makes. -/
theorem below (h : Made s g ms n) (hg : g.respans = false) {m k : Node} (hm : m ∈ g.kept ms)
    (hk : k ∈ m.children.flatMap Node.nodes) : k ∈ n.children.flatMap Node.nodes := by
  cases h with
  | around _ h =>
    obtain ⟨-, -, ks, hperm, hwoven⟩ := h
    exact hwoven.subset (List.mem_flatMap.2 ⟨m, hperm.mem_iff.1 hm, Node.mem_nodes_iff.2 (.inr hk)⟩)
  | respanned hc =>
    rw [hc] at hg
    cases hg
  | block h =>
    obtain ⟨n', hn', semicolon, rfl⟩ := (exists_of_forall₂ h).1 m hm
    refine List.mem_flatMap.2 ⟨_, hn', Node.mem_nodes_iff.2 (.inr ?_)⟩
    rw [children_closeBy]
    exact hk

/-- Outside of blocks, a node that a rule makes use of is itself below what it makes. -/
theorem inside (h : Made s g ms n) (hg : g.respans = false) (hblock : ∀ c, g ≠ .block c) {m k : Node}
    (hm : m ∈ g.kept ms) (hk : k ∈ m.nodes) : k ∈ n.children.flatMap Node.nodes := by
  cases h with
  | around _ h =>
    obtain ⟨-, -, ks, hperm, hwoven⟩ := h
    exact hwoven.subset (List.mem_flatMap.2 ⟨m, hperm.mem_iff.1 hm, hk⟩)
  | respanned hc =>
    rw [hc] at hg
    cases hg
  | block _ => exact absurd rfl (hblock _)

/-- A rule makes a conditional of a conditional only, and keeps those of the parts that it makes use
of. -/
theorem conditionals (h : Made s g ms n) :
    n.conditionals.Perm ((if g.isConditional then [n.bare] else []) ++ (g.kept ms).flatMap Node.conditionals) := by
  cases h with
  | around _ h =>
    obtain ⟨-, hn, ks, hperm, hwoven⟩ := h
    rw [Node.conditionals_eq, hn, hwoven.conditionals]
    exact (hperm.flatMap_right _).symm.append_left _
  | @respanned c m hc =>
    obtain ⟨hkept, hplain⟩ := plain_of_respans [m] hc
    rw [Node.conditionals_withSpan, hkept, hplain, List.flatMap_singleton]
    exact .refl _
  | @block c ms ns h =>
    have hparts : ns.flatMap Node.conditionals = ms.flatMap Node.conditionals := by
      induction h with
      | nil => rfl
      | cons hclosed _ ih =>
        obtain ⟨semicolon, rfl⟩ := hclosed
        rw [List.flatMap_cons, conditionals_closeBy, ih, List.flatMap_cons]
    rw [Node.conditionals_eq]
    exact .of_eq hparts

end Made

end Reader

end NestLint
