import NestLint.Proofs.Tree.Walk

/-!
# Trees whose spans nest

In the tree of a file the text of a part is inside that of the whole, and the texts of two parts of one whole
have nothing in common. Then the same holds of nodes at any distance: one is inside the other, or they have
nothing in common, and the walk over the expressions meets the inner one first.

* `Span.Within`, `Span.Disjoint`, `Span.Apart`: how two spans lie to each other;
* `Span.Separation`: what the two readings of "nothing in common" share;
* `Node.Nests`: a tree whose spans nest;
* `pairwise_expressions`: a relation that holds between neighbours and between a node and what is below it holds
  in the order of the walk.
-/

namespace NestLint

namespace Span

/-- The text of the first span is a part of that of the second. -/
def Within (a b : Span) : Prop := b.lo ≤ a.lo ∧ a.hi ≤ b.hi

instance (a b : Span) : Decidable (a.Within b) := inferInstanceAs (Decidable (_ ∧ _))

/-- No character is in both spans. -/
def Disjoint (a b : Span) : Prop := ∀ x : Int, a.lo ≤ x → x < a.hi → b.lo ≤ x → ¬x < b.hi

/-- One span ends before the other begins. This also tells where spans without characters lie. -/
def Apart (a b : Span) : Prop := a.hi ≤ b.lo ∨ b.hi ≤ a.lo

instance (a b : Span) : Decidable (a.Apart b) := inferInstanceAs (Decidable (_ ∨ _))

/-- The first span has text, all of it in the second one, which reaches further. -/
def Inside (a b : Span) : Prop := a.lo < a.hi ∧ a.Within b ∧ ¬b.Within a

theorem Within.refl (a : Span) : a.Within a := ⟨Int.le_refl _, Int.le_refl _⟩

theorem Within.trans {a b c : Span} (hab : a.Within b) (hbc : b.Within c) : a.Within c :=
  ⟨Int.le_trans hbc.1 hab.1, Int.le_trans hab.2 hbc.2⟩

theorem Apart.disjoint {a b : Span} (h : a.Apart b) : a.Disjoint b := by
  intro x hlo hhi hlo' hhi'
  simp only [Apart] at h
  omega

/-- A relation between spans that have nothing in common: their parts have nothing in common either, and neither
of them has text inside the other one. -/
structure Separation (apart : Span → Span → Prop) : Prop where
  parts {a b a' b' : Span} : apart a b → a'.Within a → b'.Within b → apart a' b'
  not_inside {a b : Span} : apart a b → ¬b.Inside a

theorem separation_disjoint : Separation Disjoint where
  parts h ha hb x hlo hhi hlo' hhi' :=
    h x (Int.le_trans ha.1 hlo) (Int.lt_of_lt_of_le hhi ha.2) (Int.le_trans hb.1 hlo') (Int.lt_of_lt_of_le hhi' hb.2)
  not_inside := by
    rintro a b h ⟨htext, hwithin, -⟩
    exact h b.lo hwithin.1 (Int.lt_of_lt_of_le htext hwithin.2) (Int.le_refl _) htext

theorem separation_apart : Separation Apart where
  parts h ha hb := h.imp (fun h => Int.le_trans ha.2 (Int.le_trans h hb.1)) fun h =>
    Int.le_trans hb.2 (Int.le_trans h ha.1)
  not_inside := by
    rintro a b h ⟨htext, hwithin, -⟩
    simp only [Apart, Within] at h hwithin
    omega

end Span

namespace Node

/-- Every part of every node lies within it, and no two parts of a node have anything in common. -/
structure Nests (apart : Span → Span → Prop) (root : Node) : Prop where
  within : ∀ n ∈ root.nodes, ∀ c ∈ n.children, c.span.Within n.span
  apart : ∀ n ∈ root.nodes, n.children.Pairwise fun c c' => apart c.span c'.span

instance (apart : Span → Span → Prop) [∀ a b, Decidable (apart a b)] (root : Node) : Decidable (root.Nests apart) :=
  decidable_of_iff ((∀ n ∈ root.nodes, ∀ c ∈ n.children, c.span.Within n.span) ∧
    ∀ n ∈ root.nodes, n.children.Pairwise fun c c' => apart c.span c'.span)
    ⟨fun h => ⟨h.1, h.2⟩, fun h => ⟨h.within, h.apart⟩⟩

theorem Nests.imp {apart apart' : Span → Span → Prop} (himp : ∀ {a b : Span}, apart a b → apart' a b) {root : Node}
    (h : root.Nests apart) : root.Nests apart' where
  within := h.within
  apart n hn := (h.apart n hn).imp himp

theorem Nests.below {apart : Span → Span → Prop} {n root : Node} (h : root.Nests apart) (hn : n ∈ root.nodes) :
    n.Nests apart where
  within k hk := h.within k (mem_nodes_trans hk hn)
  apart k hk := h.apart k (mem_nodes_trans hk hn)

/-- A node lies within every node above it. -/
theorem span_within_of_mem_nodes {k n : Node} (h : ∀ m ∈ n.nodes, ∀ c ∈ m.children, c.span.Within m.span)
    (hk : k ∈ n.nodes) : k.span.Within n.span := by
  obtain rfl | ⟨c, hc, hk⟩ := eq_or_mem_child_nodes hk
  · exact .refl _
  · have hinner := span_within_of_mem_nodes (fun m hm => h m (mem_nodes_trans hm (mem_nodes_of_mem_children hc))) hk
    exact hinner.trans (h n n.mem_nodes_self c hc)
termination_by sizeOf n
decreasing_by exact sizeOf_lt_of_mem_children hc

/-- The walk over the expressions goes from part to part and from inside to outside. A relation that holds from
what is below one part to what is below a later one, and from what is below an expression to that expression,
holds from every expression to all those that come later. -/
theorem pairwise_expressions {R : Node → Node → Prop} (root : Node)
    (hparts : ∀ n ∈ root.nodes, n.children.Pairwise fun c c' => ∀ x ∈ c.nodes, ∀ y ∈ c'.nodes, R x y)
    (hself : ∀ n ∈ root.nodes, ∀ c ∈ n.children, ∀ x ∈ c.nodes, R x n) : root.expressions.Pairwise R := by
  rw [expressions_eq, List.pairwise_append, List.pairwise_flatMap]
  refine ⟨⟨fun c hc => ?_, ?_⟩, ?_, ?_⟩
  · have hbelow : ∀ m ∈ c.nodes, m ∈ root.nodes := fun m hm => mem_nodes_trans hm (mem_nodes_of_mem_children hc)
    exact pairwise_expressions c (fun n hn => hparts n (hbelow n hn)) fun n hn => hself n (hbelow n hn)
  · refine (hparts root root.mem_nodes_self).imp fun h x hx y hy => ?_
    exact h x (mem_nodes_of_mem_expressions hx) y (mem_nodes_of_mem_expressions hy)
  · split
    · exact List.pairwise_singleton ..
    · exact .nil
  · intro x hx y hy
    obtain ⟨c, hc, hx⟩ := List.mem_flatMap.1 hx
    split at hy
    · rw [List.mem_singleton.1 hy]
      exact hself root root.mem_nodes_self c hc x (mem_nodes_of_mem_expressions hx)
    · cases hy
termination_by sizeOf root
decreasing_by exact sizeOf_lt_of_mem_children hc

end Node

end NestLint
