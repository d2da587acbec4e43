import Mathlib.Data.List.Perm.Basic
import Mathlib.Logic.Function.Iterate
import Mathlib.Logic.Relation
import NestLint.Proofs.Tree.Walk

/-!
# The walks as loops

A walk is a loop over a list of work: a round takes the first entry, may give a node out, and puts more work in its
place. What has been given out, followed by what the work still has to give, is the same before and after a round, and
the rounds that are left are one fewer after it, so the number of rounds is known beforehand: one for each node where
nodes are given out before their parts, and two where they are given out after them.

The walks are `iterate_all_subitems` and `walk_exprs`, over the fields that `get_children` gives.

* `Ends`: what a loop gives out, and after how many rounds it ends;
* `ends_round`, `ends_roundExprs`: the two walks;
* `Node.Holds`: the fields of a node, whatever its kind;
* `walks_end`: both walks against the recursions, with what they visit and in which order.
-/

namespace NestLint

/-! ## Loops over a list of work -/

/-- A loop that starts with some work has none left after `n` rounds and not before, and has given `out` out then. -/
structure Ends {α β : Type} (round : List α × List β → List α × List β) (work : List β) (n : Nat) (out : List α) :
    Prop where
  rounds : ∀ k, (round^[k] ([], work)).2 = [] ↔ n ≤ k
  out : ∀ k, n ≤ k → (round^[k] ([], work)).1 = out

section Loops

variable {α β : Type} {round : List α × List β → List α × List β} {left : List β → Nat} {rest : List β → List α}

theorem iterate_left (hleft : ∀ state, left (round state).2 = left state.2 - 1) (k : Nat) (state : List α × List β) :
    left (round^[k] state).2 = left state.2 - k := by
  induction k generalizing state with
  | zero => rfl
  | succ k ih =>
    rw [Function.iterate_succ_apply, ih, hleft]
    omega

theorem iterate_rest (hrest : ∀ state, (round state).1 ++ rest (round state).2 = state.1 ++ rest state.2) (k : Nat)
    (state : List α × List β) :
    (round^[k] state).1 ++ rest (round^[k] state).2 = state.1 ++ rest state.2 := by
  induction k generalizing state with
  | zero => rfl
  | succ k ih => rw [Function.iterate_succ_apply, ih, hrest]

/-- If no work is left exactly when no rounds are, what was there to give at the start is all given out at the end. -/
theorem ends_of_round (hleft : ∀ state, left (round state).2 = left state.2 - 1)
    (hrest : ∀ state, (round state).1 ++ rest (round state).2 = state.1 ++ rest state.2)
    (hdone : ∀ work, left work = 0 ↔ work = []) (hnil : rest [] = []) (work : List β) :
    Ends round work (left work) (rest work) := by
  have hrounds (k : Nat) : (round^[k] ([], work)).2 = [] ↔ left work ≤ k := by
    rw [← hdone, iterate_left hleft]
    exact Nat.sub_eq_zero_iff_le
  refine ⟨hrounds, fun k hk => ?_⟩
  have := iterate_rest hrest k ([], work)
  rwa [(hrounds k).2 hk, hnil, List.append_nil, List.nil_append] at this

end Loops

namespace Site

/-! ## Nodes before their parts -/

/-- A round of the walk over all nodes: the first node of the work is given out, and its parts are put in its place. -/
def round : List Site × List Site → List Site × List Site
  | (seen, []) => (seen, [])
  | (seen, s :: work) => (seen ++ [s], s.children ++ work)

theorem total_round (state : List Site × List Site) : total (round state).2 = total state.2 - 1 := by
  obtain ⟨seen, work⟩ := state
  cases work with
  | nil => rfl
  | cons s work =>
    have := total_children s
    simp only [round, total_append, total_cons]
    omega

theorem scan_round (state : List Site × List Site) : (round state).1 ++ scan (round state).2 = state.1 ++ scan state.2 := by
  obtain ⟨seen, work⟩ := state
  cases work with
  | nil => rfl
  | cons s work => rw [round, scan, List.append_assoc, List.singleton_append]

theorem total_eq_zero_iff (work : List Site) : total work = 0 ↔ work = [] := by
  cases work with
  | nil => simp [total]
  | cons s work =>
    have := s.node.size_pos
    simp only [total_cons, reduceCtorEq, iff_false]
    omega

theorem ends_round (work : List Site) : Ends round work (total work) (scan work) :=
  ends_of_round total_round scan_round total_eq_zero_iff (by rw [scan]) work

/-! ## Expressions after their parts -/

/-- A round of the walk over the expressions: a node that is opened is given out if it is an expression, and one that
is not is opened, with its parts in front of it. -/
def roundExprs : List Site × List (Site × Bool) → List Site × List (Site × Bool)
  | (seen, []) => (seen, [])
  | (seen, (s, true) :: work) => (if s.isExpr then seen ++ [s] else seen, work)
  | (seen, (s, false) :: work) => (seen, (s.children.map fun c => (c, false)) ++ (s, true) :: work)

theorem effort_roundExprs (state : List Site × List (Site × Bool)) :
    effort (roundExprs state).2 = effort state.2 - 1 := by
  obtain ⟨seen, work⟩ := state
  match work with
  | [] => rfl
  | (s, true) :: work =>
    simp only [roundExprs, effort]
    omega
  | (s, false) :: work =>
    have := total_children s
    simp only [roundExprs, effort_unopened_append, effort]
    omega

theorem scanExprs_roundExprs (state : List Site × List (Site × Bool)) :
    (roundExprs state).1 ++ scanExprs (roundExprs state).2 = state.1 ++ scanExprs state.2 := by
  obtain ⟨seen, work⟩ := state
  match work with
  | [] => rfl
  | (s, true) :: work =>
    rw [roundExprs, scanExprs]
    split
    · rw [List.append_assoc, List.singleton_append]
    · rfl
  | (s, false) :: work => rw [roundExprs, scanExprs]

theorem effort_eq_zero_iff (work : List (Site × Bool)) : effort work = 0 ↔ work = [] := by
  match work with
  | [] => simp [effort]
  | (s, true) :: work =>
    simp only [effort, reduceCtorEq, iff_false]
    omega
  | (s, false) :: work =>
    have := s.node.size_pos
    simp only [effort, reduceCtorEq, iff_false]
    omega

theorem ends_roundExprs (work : List (Site × Bool)) : Ends roundExprs work (effort work) (scanExprs work) :=
  ends_of_round effort_roundExprs scanExprs_roundExprs effort_eq_zero_iff (by rw [scanExprs]) work

/-! ## The order after the parts -/

/-- A node and all nodes below it, each after its parts. -/
def postorder (s : Site) : List Site := (s.children.attach.flatMap fun c => postorder c.1) ++ [s]
termination_by sizeOf s.node
decreasing_by exact sizeOf_node_lt c.2

theorem postorder_eq (s : Site) : s.postorder = s.children.flatMap postorder ++ [s] := by
  rw [postorder, List.flatMap_subtype, List.unattach_attach]
  intro c _
  rfl

theorem exprs_eq_filter_postorder (s : Site) : s.exprs = s.postorder.filter isExpr := by
  rw [exprs_eq, postorder_eq, List.filter_append, List.filter_flatMap, List.filter_singleton]
  congr 1
  · exact List.flatMap_congr fun c hc => exprs_eq_filter_postorder c
  · cases s.isExpr <;> rfl
termination_by sizeOf s.node
decreasing_by exact sizeOf_node_lt hc

theorem postorder_perm (s : Site) : s.postorder.Perm s.subsites := by
  rw [postorder_eq, subsites_eq]
  refine (List.perm_append_singleton ..).trans (List.Perm.cons s ?_)
  exact List.Perm.flatMap_left _ fun c hc => postorder_perm c
termination_by sizeOf s.node
decreasing_by exact sizeOf_node_lt hc

/-- What is below a node stands in front of it. -/
theorem sublist_postorder {p q s : Site} (hp : p ∈ s.subsites) (hq : q ∈ p.subsites) (hne : q ≠ p) :
    [q, p].Sublist s.postorder := by
  rw [postorder_eq]
  rw [subsites_eq, List.mem_cons] at hp
  obtain rfl | hp := hp
  · rw [subsites_eq, List.mem_cons] at hq
    obtain ⟨c, hc, hq⟩ := List.mem_flatMap.1 (hq.resolve_left hne)
    have hfront : q ∈ p.children.flatMap postorder := List.mem_flatMap.2 ⟨c, hc, (postorder_perm c).mem_iff.2 hq⟩
    exact (List.singleton_sublist.2 hfront).append (List.Sublist.refl [p])
  · obtain ⟨c, hc, hp⟩ := List.mem_flatMap.1 hp
    have hinner : [q, p].Sublist c.postorder := sublist_postorder hp hq hne
    have hpart : c.postorder.Sublist (s.children.flatMap postorder) := by
      rw [List.flatMap_def]
      exact List.sublist_flatten_of_mem (List.mem_map_of_mem hc)
    exact (hinner.trans hpart).trans (List.sublist_append_left ..)
termination_by sizeOf s.node
decreasing_by exact sizeOf_node_lt hc

end Site

/-! ## Fields -/

namespace Node

/-- A field of a node holds a node. There is one case for every field that can. -/
inductive Holds : Node → Node → Prop where
  | blockStmt {span stmts c} (h : c ∈ stmts) : Holds (.block span stmts) c
  | stmtNode {span form c} : Holds (.stmt span form c) c
  | bindingPat {span c init} : Holds (.binding span (some c) init) c
  | bindingInit {span p c} : Holds (.binding span p (some c)) c
  | ifCond {span c body els} : Holds (.ifThen span (some c) body els) c
  | ifBody {span cond c els} : Holds (.ifThen span cond (some c) els) c
  | ifElse {span cond body c} : Holds (.ifThen span cond body (some c)) c
  | ifLetPat {span c scrutinee body els} : Holds (.ifLet span (some c) scrutinee body els) c
  | ifLetScrutinee {span p c body els} : Holds (.ifLet span p (some c) body els) c
  | ifLetBody {span p scrutinee c els} : Holds (.ifLet span p scrutinee (some c) els) c
  | ifLetElse {span p scrutinee body c} : Holds (.ifLet span p scrutinee body (some c)) c
  | callFunc {span c args} : Holds (.call span c args) c
  | callArg {span func args c} (h : c ∈ args) : Holds (.call span func args) c
  | methodReceiver {span c method args} : Holds (.methodCall span c method args) c
  | methodArg {span receiver method args c} (h : c ∈ args) : Holds (.methodCall span receiver method args) c
  | fieldBase {span c name} : Holds (.field span c name) c
  | binaryLhs {span op c rhs} : Holds (.binary span op c rhs) c
  | binaryRhs {span op lhs c} : Holds (.binary span op lhs c) c
  | unaryOperand {span op c} : Holds (.unary span op c) c
  | parenInner {span c} : Holds (.paren span c) c
  | castExpr {span c type} : Holds (.cast span c type) c
  | assignTarget {span c value op} : Holds (.assign span c value op) c
  | assignValue {span target c op} : Holds (.assign span target c op) c
  | rangeLo {span c hi inclusive} : Holds (.range span (some c) hi inclusive) c
  | rangeHi {span lo c inclusive} : Holds (.range span lo (some c) inclusive) c
  | closureParam {span params body c} (h : c ∈ params) : Holds (.closure span params body) c
  | closureBody {span params c} : Holds (.closure span params c) c
  | blockExprBlock {span c} : Holds (.blockExpr span c) c
  | otherPart {span label parts c} (h : c ∈ parts) : Holds (.other span label parts) c
  | itemPart {span label parts c} (h : c ∈ parts) : Holds (.item span label parts) c

theorem Holds.mem_children {n c : Node} (h : n.Holds c) : c ∈ n.children := by
  cases h <;> simp [children, *]

theorem holds_of_mem_children {n c : Node} (h : c ∈ n.children) : n.Holds c := by
  cases n <;>
    simp only [children, List.mem_append, List.mem_cons, List.not_mem_nil, or_false, Option.mem_toList] at h <;>
    grind [Holds]

/-- The nodes of a tree are those that can be reached from its root through fields. -/
theorem mem_nodes_iff_reaches {n root : Node} : n ∈ root.nodes ↔ Relation.ReflTransGen Holds root n := by
  constructor
  · intro h
    obtain rfl | ⟨c, hc, h⟩ := eq_or_mem_child_nodes h
    · exact .refl
    · exact .head (holds_of_mem_children hc) (mem_nodes_iff_reaches.1 h)
  · intro h
    induction h with
    | refl => exact root.mem_nodes_self
    | tail _ hfield ih => exact mem_nodes_trans (mem_nodes_of_mem_children hfield.mem_children) ih
termination_by sizeOf root
decreasing_by exact sizeOf_lt_of_mem_children hc

theorem exprSites_eq_filter (root : Node) : root.exprSites = (Site.root root).postorder.filter Site.isExpr := by
  rw [exprSites_eq, Site.exprs_eq_filter_postorder]

theorem exprSites_perm (root : Node) : root.exprSites.Perm (root.sites.filter Site.isExpr) := by
  rw [exprSites_eq_filter, sites_eq]
  exact (Site.postorder_perm _).filter _

/-- An expression comes after those below it. -/
theorem sublist_exprSites {root : Node} {p q : Site} (hp : p ∈ root.exprSites) (hq : q ∈ root.exprSites)
    (hbelow : q ∈ p.subsites) (hne : q ≠ p) : [q, p].Sublist root.exprSites := by
  rw [exprSites_eq_filter, List.mem_filter] at hp hq
  have hroot : p ∈ (Site.root root).subsites := (Site.postorder_perm _).mem_iff.1 hp.1
  have hboth := (Site.sublist_postorder hroot hbelow hne).filter Site.isExpr
  rwa [List.filter_cons_of_pos hq.2, List.filter_cons_of_pos hp.2, List.filter_nil, ← exprSites_eq_filter] at hboth

/-- Both walks over a tree end, the first after one round for each node and the second after two, and give out the
nodes in the order before their parts and the expressions in the order after them. Every place in the tree is visited
once, an expression after those below it, and the nodes that are visited are all that can be reached through fields. -/
theorem walks_end (root : Node) :
    (root.sites = (Site.root root).subsites ∧ Ends Site.round [Site.root root] root.size root.sites) ∧
      (root.exprSites = (Site.root root).postorder.filter Site.isExpr ∧
        Ends Site.roundExprs [(Site.root root, false)] (2 * root.size) root.exprSites) ∧
      root.sites.map Site.index = List.range root.size ∧
      root.exprSites.Perm (root.sites.filter Site.isExpr) ∧
      (∀ p ∈ root.exprSites, ∀ q ∈ root.exprSites, q ∈ p.subsites → q ≠ p → [q, p].Sublist root.exprSites) ∧
      (∀ n c : Node, c ∈ n.children ↔ n.Holds c) ∧
      ∀ n, (∃ s ∈ root.sites, s.node = n) ↔ Relation.ReflTransGen Holds root n := by
  have hends := Site.ends_round [Site.root root]
  have hendsExprs := Site.ends_roundExprs [(Site.root root, false)]
  have hsize : Site.total [Site.root root] = root.size := rfl
  have heffort : Site.effort [(Site.root root, false)] = 2 * root.size := by
    simp only [Site.effort, Site.root]
    omega
  rw [hsize] at hends
  rw [heffort] at hendsExprs
  refine ⟨⟨sites_eq root, hends⟩, ⟨exprSites_eq_filter root, hendsExprs⟩, map_index_sites root, exprSites_perm root,
    fun p hp q hq => sublist_exprSites hp hq, fun n c => ⟨holds_of_mem_children, Holds.mem_children⟩, fun n => ?_⟩
  rw [← mem_nodes_iff_reaches, ← map_node_sites, List.mem_map]

end Node

end NestLint
