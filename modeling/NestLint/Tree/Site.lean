import NestLint.Tree.Node

/-!
# Places in a tree

A site is a node together with its place in the tree: the number of nodes that come before it when
the tree is read from the root, each node before its parts. Within one tree two sites are the same
node exactly when their places agree, so "this node" means a place, and two equal subtrees at
different places are told apart.

There are two walks, each written twice: by recursion on the tree, which says what the order is, and
with a list of work still to do, which is what runs.

The walks are `iterate_all_subitems` and `walk_exprs`.

* `subsites`, `scan`: every node, each before its parts;
* `exprs`, `scanExprs`: every expression, each after the expressions inside it.
-/

namespace NestLint

namespace Node

/-- The number of nodes of a tree. -/
def size (n : Node) : Nat := 1 + n.children.attach.foldr (fun c k => size c.1 + k) 0
termination_by sizeOf n
decreasing_by exact sizeOf_lt_of_mem_children c.2

theorem size_eq (n : Node) : n.size = 1 + n.children.foldr (fun c k => c.size + k) 0 := by
  rw [size]; simp

theorem size_pos (n : Node) : 0 < n.size := by rw [size_eq]; omega

end Node

/-- A node at its place in a tree. -/
structure Site where
  index : Nat
  node : Node
  deriving Repr, Inhabited

namespace Site

/-- The root of a tree. -/
def root (n : Node) : Site := ⟨0, n⟩

/-- Whether two sites of one tree are the same node. -/
def same (a b : Site) : Bool := a.index == b.index

instance : BEq Site := ⟨same⟩

/-- The kind of the node. -/
def kind (s : Site) : Kind := s.node.kind

/-- The span of the node. -/
def span (s : Site) : Span := s.node.span

/-- Whether the node is an expression. -/
def isExpr (s : Site) : Bool := s.node.isExpr

/-- The node as it is shown in messages. -/
def text (s : Site) : String := s.node.text

/-- An item as it is shown in messages: a node, or that there is none. -/
def itemText (item : Option Site) : String := (item.map text).getD "None"

/-- Trees that stand one after the other, the first one at place `i`. -/
def place : Nat → List Node → List Site
  | _, [] => []
  | i, n :: rest => ⟨i, n⟩ :: place (i + n.size) rest

/-- The parts of the node, left to right, each at its place. -/
def children (s : Site) : List Site := place (s.index + 1) s.node.children

theorem map_node_place (i : Nat) (ns : List Node) : (place i ns).map node = ns := by
  induction ns generalizing i with
  | nil => rfl
  | cons n rest ih => simp [place, ih]

theorem map_node_children (s : Site) : s.children.map node = s.node.children := map_node_place ..

theorem node_mem_of_mem_children {c s : Site} (h : c ∈ s.children) : c.node ∈ s.node.children :=
  map_node_children s ▸ List.mem_map_of_mem h

theorem sizeOf_node_lt {c s : Site} (h : c ∈ s.children) : sizeOf c.node < sizeOf s.node :=
  Node.sizeOf_lt_of_mem_children (node_mem_of_mem_children h)

/-! ## The orders -/

/-- The node and all nodes below it, each before its parts. -/
def subsites (s : Site) : List Site := s :: s.children.attach.flatMap fun c => subsites c.1
termination_by sizeOf s.node
decreasing_by exact sizeOf_node_lt c.2

/-- The expressions of a tree, each after the expressions inside it. -/
def exprs (s : Site) : List Site :=
  (s.children.attach.flatMap fun c => exprs c.1) ++ if s.isExpr then [s] else []
termination_by sizeOf s.node
decreasing_by exact sizeOf_node_lt c.2

/-! ## The walks that run -/

/-- The number of nodes in all trees of a list. -/
def total (sites : List Site) : Nat := sites.foldr (fun s k => s.node.size + k) 0

theorem total_cons (s : Site) (sites : List Site) : total (s :: sites) = s.node.size + total sites := rfl

theorem total_children (s : Site) : total s.children + 1 = s.node.size := by
  rw [Node.size_eq, Nat.add_comm, total, ← map_node_children, List.foldr_map]

theorem total_append (a b : List Site) : total (a ++ b) = total a + total b := by
  induction a with
  | nil => simp [total]
  | cons s rest ih => rw [List.cons_append, total_cons, total_cons, ih, Nat.add_assoc]

/-- The nodes of all trees in a list of work, each before its parts. -/
def scan : List Site → List Site
  | [] => []
  | s :: rest => s :: scan (s.children ++ rest)
termination_by work => total work
decreasing_by
  have := total_children s
  rw [total_append]
  rw [total_cons]
  omega

/-- What is left to do in a list of trees: a tree still to open counts each node twice, an opened
one counts once. -/
def effort : List (Site × Bool) → Nat
  | [] => 0
  | (_, true) :: rest => 1 + effort rest
  | (s, false) :: rest => s.node.size + s.node.size + effort rest

theorem effort_unopened_append (sites : List Site) (work : List (Site × Bool)) :
    effort ((sites.map fun s => (s, false)) ++ work) = total sites + total sites + effort work := by
  induction sites with
  | nil => simp [total]
  | cons s rest ih =>
    simp only [List.map_cons, List.cons_append, effort, ih, total_cons]
    omega

/-- The expressions of all trees in a list of work. A tree is opened first, which puts its parts in
front of it; an opened one is done. -/
def scanExprs : List (Site × Bool) → List Site
  | [] => []
  | (s, true) :: rest => if s.isExpr then s :: scanExprs rest else scanExprs rest
  | (s, false) :: rest => scanExprs ((s.children.map fun c => (c, false)) ++ (s, true) :: rest)
termination_by work => effort work
decreasing_by
  · simp only [effort]; omega
  · simp only [effort]; omega
  · have := total_children s
    simp only [effort_unopened_append, effort]
    omega

end Site

namespace Node

/-- All nodes of a tree, each before its parts. -/
def sites (n : Node) : List Site := Site.scan [Site.root n]

/-- The expressions of a tree, each after the expressions inside it. -/
def exprSites (n : Node) : List Site := Site.scanExprs [(Site.root n, false)]

end Node

/-! ## The parts by name -/

namespace Site

/-- A part that may be missing, at place `i`. -/
def partAt (i : Nat) (part : Option Node) : Option Site := part.map fun n => ⟨i, n⟩

/-- The place behind a part at place `i` that may be missing. -/
def behind (i : Nat) (part : Option Node) : Nat := i + (part.map Node.size).getD 0

/-- The condition, the body and the other branch of an `if`. -/
def ifParts? (s : Site) : Option (Option Site × Option Site × Option Site) :=
  match s.node with
  | .ifThen _ cond body els =>
    let i := s.index + 1
    let j := behind i cond
    some (partAt i cond, partAt j body, partAt (behind j body) els)
  | _ => none

/-- The pattern, the scrutinee, the body and the other branch of an `if let`. -/
def ifLetParts? (s : Site) : Option (Option Site × Option Site × Option Site × Option Site) :=
  match s.node with
  | .ifLet _ pat scrutinee body els =>
    let i := s.index + 1
    let j := behind i pat
    let k := behind j scrutinee
    some (partAt i pat, partAt j scrutinee, partAt k body, partAt (behind k body) els)
  | _ => none

/-- The statements of a block. -/
def stmts? (s : Site) : Option (List Site) :=
  match s.node with
  | .block .. => some s.children
  | _ => none

/-- The form of a statement and its node. -/
def stmtParts? (s : Site) : Option (StmtForm × Site) :=
  match s.node with
  | .stmt _ form node => some (form, ⟨s.index + 1, node⟩)
  | _ => none

end Site

end NestLint
