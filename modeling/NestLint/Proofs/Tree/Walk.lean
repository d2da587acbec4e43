import Mathlib.Data.List.Basic
import NestLint.Tree.Site

/-!
# What the walks visit

The walks that run keep a list of trees still to do. Each of them visits what the recursion on the
tree visits, in the same order, because opening a tree puts exactly its parts in front of the rest.
Seen without the places, this is an order on the nodes of a tree alone.

* `scan_eq`, `scanExprs_eq`: the walks against the recursions;
* `map_node_sites`, `map_node_exprSites`: the nodes that are visited;
* `map_index_sites`: every place is visited exactly once;
* `conditionals_eq`: the conditionals that are visited.
-/

namespace NestLint

/-! ## Walks and recursions -/

namespace Site

theorem subsites_eq (s : Site) : s.subsites = s :: s.children.flatMap subsites := by
  rw [subsites, List.flatMap_subtype, List.unattach_attach]
  intro c _
  rfl

theorem exprs_eq (s : Site) : s.exprs = s.children.flatMap exprs ++ if s.isExpr then [s] else [] := by
  rw [exprs, List.flatMap_subtype, List.unattach_attach]
  intro c _
  rfl

theorem scan_eq (work : List Site) : scan work = work.flatMap subsites := by
  induction work using scan.induct with
  | case1 => rw [scan, List.flatMap_nil]
  | case2 s rest ih => rw [scan, ih, List.flatMap_append, List.flatMap_cons, subsites_eq s, List.cons_append]

/-- What a list of work still has to give: the expressions of a tree that is not opened, and no more
than the tree itself where it is. -/
def pending (work : List (Site × Bool)) : List Site :=
  work.flatMap fun entry => if entry.2 then (if entry.1.isExpr then [entry.1] else []) else entry.1.exprs

theorem pending_unopened (sites : List Site) (rest : List (Site × Bool)) :
    pending ((sites.map fun s => (s, false)) ++ rest) = sites.flatMap exprs ++ pending rest := by
  rw [pending, List.flatMap_append, List.flatMap_map]
  rfl

theorem scanExprs_eq (work : List (Site × Bool)) : scanExprs work = pending work := by
  induction work using scanExprs.induct with
  | case1 => rw [scanExprs, pending, List.flatMap_nil]
  | case2 s rest h ih =>
    rw [scanExprs, if_pos h, ih, pending, pending, List.flatMap_cons, if_pos rfl, if_pos h, List.singleton_append]
  | case3 s rest h ih =>
    rw [scanExprs, if_neg h, ih, pending, pending, List.flatMap_cons, if_pos rfl, if_neg h, List.nil_append]
  | case4 s rest ih =>
    rw [scanExprs, ih, pending_unopened]
    simp only [pending, List.flatMap_cons, if_true, Bool.false_eq_true, if_false]
    rw [exprs_eq s, List.append_assoc]

end Site

/-! ## The nodes that are visited -/

namespace Node

/-- A node and all nodes below it, each before its parts. -/
def nodes (n : Node) : List Node := n :: n.children.attach.flatMap fun c => nodes c.1
termination_by sizeOf n
decreasing_by exact sizeOf_lt_of_mem_children c.2

/-- The expressions among a node and the nodes below it, each after the expressions inside it. -/
def expressions (n : Node) : List Node :=
  (n.children.attach.flatMap fun c => expressions c.1) ++ if n.isExpr then [n] else []
termination_by sizeOf n
decreasing_by exact sizeOf_lt_of_mem_children c.2

theorem nodes_eq (n : Node) : n.nodes = n :: n.children.flatMap nodes := by
  rw [nodes, List.flatMap_subtype, List.unattach_attach]
  intro c _
  rfl

theorem mem_nodes_self (n : Node) : n ∈ n.nodes := by
  rw [nodes_eq]
  exact List.mem_cons_self

theorem mem_nodes_iff {k n : Node} : k ∈ n.nodes ↔ k = n ∨ k ∈ n.children.flatMap nodes := by
  rw [nodes_eq, List.mem_cons]

theorem eq_or_mem_child_nodes {k n : Node} (h : k ∈ n.nodes) : k = n ∨ ∃ c ∈ n.children, k ∈ c.nodes := by
  rwa [mem_nodes_iff, List.mem_flatMap] at h

theorem mem_nodes_of_mem_child_nodes {k c n : Node} (hc : c ∈ n.children) (hk : k ∈ c.nodes) : k ∈ n.nodes :=
  mem_nodes_iff.2 (.inr (List.mem_flatMap.2 ⟨c, hc, hk⟩))

theorem mem_nodes_of_mem_children {c n : Node} (h : c ∈ n.children) : c ∈ n.nodes :=
  mem_nodes_of_mem_child_nodes h c.mem_nodes_self

theorem expressions_eq (n : Node) :
    n.expressions = n.children.flatMap expressions ++ if n.isExpr then [n] else [] := by
  rw [expressions, List.flatMap_subtype, List.unattach_attach]
  intro c _
  rfl

/-- What is below a node that is below another is below that one. -/
theorem mem_nodes_trans {k m n : Node} (hk : k ∈ m.nodes) (hm : m ∈ n.nodes) : k ∈ n.nodes := by
  obtain rfl | ⟨c, hc, hm⟩ := eq_or_mem_child_nodes hm
  · exact hk
  · exact mem_nodes_of_mem_child_nodes hc (mem_nodes_trans hk hm)
termination_by sizeOf n
decreasing_by exact sizeOf_lt_of_mem_children hc

theorem mem_nodes_of_mem_expressions {k n : Node} (h : k ∈ n.expressions) : k ∈ n.nodes := by
  rw [expressions_eq, List.mem_append] at h
  obtain h | h := h
  · obtain ⟨c, hc, h⟩ := List.mem_flatMap.1 h
    exact mem_nodes_of_mem_child_nodes hc (mem_nodes_of_mem_expressions h)
  · split at h
    · rw [List.mem_singleton.1 h]
      exact mem_nodes_self n
    · cases h
termination_by sizeOf n
decreasing_by exact sizeOf_lt_of_mem_children hc

/-- Expressions with a property are counted the same in both orders. -/
theorem countP_expressions {p : Node → Bool} (hp : ∀ n, p n → n.isExpr) (n : Node) :
    n.expressions.countP p = n.nodes.countP p := by
  have hparts : (n.children.map fun c => c.expressions.countP p) = n.children.map fun c => c.nodes.countP p :=
    List.map_congr_left fun c hc => countP_expressions hp c
  have hself : (if n.isExpr then [n] else []).countP p = if p n then 1 else 0 := by
    by_cases h : p n
    · rw [if_pos (hp n h), if_pos h, List.countP_singleton, if_pos h]
    · rw [if_neg h]
      split
      · rw [List.countP_singleton, if_neg h]
      · rfl
  rw [expressions_eq, nodes_eq, List.countP_append, List.countP_cons, List.countP_flatMap, List.countP_flatMap, hself]
  simp only [Function.comp_def, hparts]
termination_by sizeOf n
decreasing_by exact sizeOf_lt_of_mem_children hc

end Node

namespace Site

theorem map_node_subsites (s : Site) : s.subsites.map node = s.node.nodes := by
  rw [subsites_eq, Node.nodes_eq, List.map_cons, List.map_flatMap, ← map_node_children, List.flatMap_map]
  congr 1
  exact List.flatMap_congr fun c hc => map_node_subsites c
termination_by sizeOf s.node
decreasing_by exact sizeOf_node_lt hc

theorem map_node_exprs (s : Site) : s.exprs.map node = s.node.expressions := by
  rw [exprs_eq, Node.expressions_eq, List.map_append, List.map_flatMap, ← map_node_children, List.flatMap_map]
  congr 1
  · exact List.flatMap_congr fun c hc => map_node_exprs c
  · show (if s.isExpr then [s] else []).map node = if s.isExpr then [s.node] else []
    split <;> rfl
termination_by sizeOf s.node
decreasing_by exact sizeOf_node_lt hc

/-! ## The places that are visited -/

/-- Trees that stand one after the other take up the places one after the other. -/
theorem map_index_flatMap_place {f : Site → List Site} : ∀ (i : Nat) (ns : List Node),
    (∀ s ∈ place i ns, (f s).map index = List.range' s.index s.node.size) →
      ((place i ns).flatMap f).map index = List.range' i (ns.foldr (fun n k => n.size + k) 0)
  | _, [], _ => rfl
  | i, n :: rest, h => by
    have hrest := map_index_flatMap_place (i + n.size) rest fun s hs => h s (List.mem_cons_of_mem _ hs)
    have hfirst := h ⟨i, n⟩ List.mem_cons_self
    rw [place, List.flatMap_cons, List.map_append, hrest, hfirst, List.foldr_cons, List.range'_append_1]

theorem map_index_subsites (s : Site) : s.subsites.map index = List.range' s.index s.node.size := by
  have hparts : (s.children.flatMap subsites).map index =
      List.range' (s.index + 1) (s.node.children.foldr (fun n k => n.size + k) 0) :=
    map_index_flatMap_place _ _ fun c hc => map_index_subsites c
  rw [subsites_eq, List.map_cons, hparts, Node.size_eq, Nat.add_comm 1, List.range'_succ]
termination_by sizeOf s.node
decreasing_by exact sizeOf_node_lt hc

end Site

namespace Node

theorem sites_eq (n : Node) : n.sites = (Site.root n).subsites := by
  rw [sites, Site.scan_eq, List.flatMap_singleton]

theorem exprSites_eq (n : Node) : n.exprSites = (Site.root n).exprs := by
  rw [exprSites, Site.scanExprs_eq, Site.pending, List.flatMap_singleton]
  rfl

theorem map_node_sites (n : Node) : n.sites.map Site.node = n.nodes := by
  rw [sites_eq, Site.map_node_subsites]
  rfl

theorem map_node_exprSites (n : Node) : n.exprSites.map Site.node = n.expressions := by
  rw [exprSites_eq, Site.map_node_exprs]
  rfl

/-- Every place of a tree is visited exactly once, in order. -/
theorem map_index_sites (n : Node) : n.sites.map Site.index = List.range n.size := by
  rw [sites_eq, Site.map_index_subsites, List.range_eq_range']
  rfl

/-! ## Conditionals -/

/-- Whether a node is an `if` or an `if let`. -/
def isConditional (n : Node) : Bool := n.kind == .ifThen || n.kind == .ifLet

theorem isConditional_withSpan (s : Span) (n : Node) : (n.withSpan s).isConditional = n.isConditional := by
  rw [isConditional, kind_withSpan]
  rfl

/-- A node without its place in the text. -/
def bare (n : Node) : Node := n.withSpan .dummy

theorem bare_withSpan (s : Span) (n : Node) : (n.withSpan s).bare = n.bare := by cases n <;> rfl

/-- The conditionals of a tree, each before those inside it, without their places in the text. -/
def conditionals (n : Node) : List Node := (n.nodes.filter isConditional).map bare

theorem conditionals_eq (n : Node) :
    n.conditionals = (if n.isConditional then [n.bare] else []) ++ n.children.flatMap conditionals := by
  have hrest : ((n.children.flatMap nodes).filter isConditional).map bare = n.children.flatMap conditionals := by
    rw [List.filter_flatMap, List.map_flatMap]
    rfl
  rw [conditionals, nodes_eq, List.filter_cons]
  split
  · rw [List.map_cons, hrest, List.singleton_append]
  · rw [hrest, List.nil_append]

theorem conditionals_withSpan (s : Span) (n : Node) : (n.withSpan s).conditionals = n.conditionals := by
  rw [conditionals_eq, conditionals_eq n, children_withSpan, isConditional_withSpan, bare_withSpan]

/-- The conditionals are what stands at the places of conditionals. -/
theorem conditionals_eq_map_sites (n : Node) :
    n.conditionals = (n.sites.filter fun p => p.node.isConditional).map fun p => p.node.bare := by
  rw [conditionals, ← map_node_sites, List.filter_map, List.map_map]
  rfl

end Node

end NestLint
