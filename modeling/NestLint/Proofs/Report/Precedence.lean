import Mathlib.Data.Finset.Max
import NestLint.Proofs.Report.Words

/-!
# Grouping by precedence

Operands with operators between them are grouped level by level: an operator of a higher precedence
binds tighter, operators of one precedence group to the left, to the right, or may not follow each other
at all. Expressions that differ only in how uses of one operator are grouped that may be chained on both
sides are alike.

* `Expr.Alike`: the same up to that grouping;
* `Chain.group`: the expression that a chain means;
* `op?_of_group`: the operator at its root;
* `exists_group_append`: when an operator between two chains groups them as they stand.
-/

namespace NestLint

namespace BinOp

/-- Whether uses of the operator group to the left where they follow each other. -/
def groupsLeft (op : BinOp) : Bool := op.associativity == .left || op.associativity == .both

theorem groupsLeft_of_both {op : BinOp} (h : op.associativity = .both) : op.groupsLeft = true := by
  rw [groupsLeft, h]
  rfl

/-- The operators of one precedence group to the same side. -/
theorem groupsLeft_congr {a b : BinOp} (h : a.precedence = b.precedence) : a.groupsLeft = b.groupsLeft := by
  have hall : ∀ a ∈ all, ∀ b ∈ all, a.precedence = b.precedence → a.groupsLeft = b.groupsLeft := by decide +kernel
  exact hall a (mem_all a) b (mem_all b) h

end BinOp

/-! ## Expressions -/

/-- An expression: the text of an operand, which may be one that always needs parentheses in a larger
expression, or the use of an operator. -/
inductive Expr where
  | leaf (text : String) (loose : Bool)
  | node (op : BinOp) (lhs rhs : Expr)
  deriving DecidableEq, Repr

namespace Expr

/-- The same expression up to the grouping of directly nested uses of one operator that may be chained
on both sides. -/
inductive Alike : Expr → Expr → Prop where
  | refl (e : Expr) : Alike e e
  | symm {e f : Expr} : Alike e f → Alike f e
  | trans {e f g : Expr} : Alike e f → Alike f g → Alike e g
  | node (op : BinOp) {e e' f f' : Expr} : Alike e e' → Alike f f' → Alike (.node op e f) (.node op e' f')
  | assoc {op : BinOp} (h : op.associativity = .both) (e f g : Expr) :
    Alike (.node op (.node op e f) g) (.node op e (.node op f g))

/-- The operator that an expression is a use of. -/
def op? : Expr → Option BinOp
  | .leaf .. => none
  | .node op .. => some op

theorem Alike.op? {e f : Expr} (h : Alike e f) : e.op? = f.op? := by
  induction h with
  | refl e => rfl
  | symm _ ih => exact ih.symm
  | trans _ _ ih ih' => exact ih.trans ih'
  | node op _ _ _ _ => rfl
  | assoc _ _ _ _ => rfl

end Expr

/-! ## Chains of expressions -/

namespace Chain

variable {α : Type}

/-- A thing with operators and things behind it, cut at the operators of a precedence. -/
def cutFrom (p : Nat) (a : α) : List (BinOp × α) → Chain (Chain α)
  | [] => ⟨⟨a, []⟩, []⟩
  | (op, b) :: rest =>
    let c := cutFrom p b rest
    if op.precedence = p then ⟨⟨a, []⟩, (op, c.first) :: c.rest⟩
    else ⟨⟨a, (op, c.first.first) :: c.first.rest⟩, c.rest⟩

/-- The chain cut at the operators of a precedence. -/
def cut (p : Nat) (c : Chain α) : Chain (Chain α) := cutFrom p c.first c.rest

/-- What operators of one precedence make of a chain. -/
def fold : Chain Expr → Option Expr
  | ⟨e, []⟩ => some e
  | ⟨e, (op, f) :: rest⟩ =>
    match op.associativity with
    | .left | .both => some (rest.foldl (fun lhs entry => .node entry.1 lhs entry.2) (.node op e f))
    | .right => some (foldRight e ((op, f) :: rest))
    | .neither => if rest.isEmpty then some (.node op e f) else none
where
  /-- Operators that group to the right. -/
  foldRight (e : Expr) : List (BinOp × Expr) → Expr
    | [] => e
    | (op, f) :: rest => .node op e (foldRight f rest)

/-- Group a chain level by level, the operators that bind loosest first. -/
def groupBy : List Nat → Chain Expr → Option Expr
  | [], c => if c.rest.isEmpty then some c.first else none
  | p :: ps, c => ((c.cut p).mapM (groupBy ps)).bind fold

/-- All precedences, from the lowest. -/
def levels : List Nat := List.range 15

/-- The expression that a chain means. -/
def group (c : Chain Expr) : Option Expr := groupBy levels c

theorem cut_append (p : Nat) (a b : Chain α) {op : BinOp} (h : op.precedence = p) :
    (a.append op b).cut p = (a.cut p).append op (b.cut p) := by
  obtain ⟨e, rest⟩ := a
  rw [cut, cut, append]
  simp only
  induction rest generalizing e with
  | nil =>
    simp only [List.nil_append, cutFrom, if_pos h]
    rfl
  | cons entry rest ih =>
    obtain ⟨o, f⟩ := entry
    rw [List.cons_append, cutFrom, cutFrom, ih]
    split
    · rfl
    · rfl

/-- A chain without operators of the precedence is not cut. -/
theorem cut_of_not_mem {p : Nat} {c : Chain α} (h : ∀ op ∈ c.ops, op.precedence ≠ p) : c.cut p = ⟨c, []⟩ := by
  obtain ⟨e, rest⟩ := c
  rw [cut]
  simp only
  induction rest generalizing e with
  | nil => rfl
  | cons entry rest ih =>
    obtain ⟨o, f⟩ := entry
    have hrest : ∀ op ∈ ops (⟨f, rest⟩ : Chain α), op.precedence ≠ p := fun op hop => h op (List.mem_cons_of_mem o hop)
    rw [cutFrom, if_neg (h o List.mem_cons_self), ih f hrest]

/-- The operators at which a chain is cut. -/
theorem mem_ops_cut {p : Nat} {c : Chain α} {op : BinOp} (h : op ∈ (c.cut p).ops) : op ∈ c.ops ∧ op.precedence = p := by
  obtain ⟨e, rest⟩ := c
  rw [cut] at h
  simp only at h
  induction rest generalizing e with
  | nil => cases h
  | cons entry rest ih =>
    obtain ⟨o, f⟩ := entry
    rw [cutFrom] at h
    split at h
    · rename_i ho
      obtain rfl | h := List.mem_cons.1 h
      · exact ⟨List.mem_cons_self, ho⟩
      · exact ⟨List.mem_cons_of_mem _ (ih f h).1, (ih f h).2⟩
    · exact ⟨List.mem_cons_of_mem _ (ih f h).1, (ih f h).2⟩

theorem ops_of_mapM {β : Type} {f : α → Option β} {c : Chain α} {d : Chain β} (h : c.mapM f = some d) :
    d.ops = c.ops := by
  simp only [mapM, Option.bind_eq_some_iff, Option.map_eq_some_iff] at h
  obtain ⟨x, -, xs, hxs, rfl⟩ := h
  obtain ⟨a, rest⟩ := c
  simp only [ops] at hxs ⊢
  induction rest generalizing xs with
  | nil =>
    cases hxs
    rfl
  | cons entry rest ih =>
    simp only [List.mapM_cons, Option.bind_eq_bind, Option.bind_eq_some_iff, Option.map_eq_some_iff,
      Option.pure_def, Option.some.injEq] at hxs
    obtain ⟨y, ⟨b, -, rfl⟩, ys, hys, rfl⟩ := hxs
    rw [List.map_cons, List.map_cons, ih ys hys]

theorem mem_ops_cut_of_mem {c : Chain α} {op : BinOp} (h : op ∈ c.ops) : op ∈ (c.cut op.precedence).ops := by
  obtain ⟨e, rest⟩ := c
  rw [cut]
  simp only
  induction rest generalizing e with
  | nil => cases h
  | cons entry rest ih =>
    obtain ⟨o, f⟩ := entry
    rw [cutFrom]
    obtain rfl | h := List.mem_cons.1 h
    · rw [if_pos rfl]
      exact List.mem_cons_self
    · split
      · exact List.mem_cons_of_mem o (ih f h)
      · exact ih f h

/-! ## One level -/

/-- Operators one after the other, each taking all in front of it on its left. -/
def foldLeft (e : Expr) (rest : List (BinOp × Expr)) : Expr :=
  rest.foldl (fun lhs entry => .node entry.1 lhs entry.2) e

theorem fold_of_groupsLeft {c : Chain Expr} (h : ∀ op ∈ c.ops, op.groupsLeft = true) :
    c.fold = some (foldLeft c.first c.rest) := by
  obtain ⟨e, rest⟩ := c
  cases rest with
  | nil => rfl
  | cons entry rest =>
    obtain ⟨op, f⟩ := entry
    have hop := h op List.mem_cons_self
    rw [BinOp.groupsLeft, Bool.or_eq_true, beq_iff_eq, beq_iff_eq] at hop
    obtain hop | hop := hop
    · rw [fold, hop]
      rfl
    · rw [fold, hop]
      rfl

theorem fold_pair (op : BinOp) (e f : Expr) : fold ⟨e, [(op, f)]⟩ = some (.node op e f) := by
  rw [fold]
  cases op.associativity with
  | left => rfl
  | right => rfl
  | both => rfl
  | neither => rfl

theorem op?_foldLeft {e : Expr} {op : BinOp} (h : e.op? = some op) (rest : List (BinOp × Expr)) :
    ∃ o, (foldLeft e rest).op? = some o ∧ (o = op ∨ o ∈ rest.map Prod.fst) := by
  induction rest generalizing e op with
  | nil => exact ⟨op, h, .inl rfl⟩
  | cons entry rest ih =>
    obtain ⟨o, ho, hmem⟩ := ih (e := .node entry.1 e entry.2) rfl
    exact ⟨o, ho, .inr (List.mem_cons.2 hmem)⟩

/-- An operator of the level is at the root of what it makes of a chain. -/
theorem op?_of_fold {c : Chain Expr} {e : Expr} (h : c.fold = some e) (hne : c.ops ≠ []) :
    ∃ op ∈ c.ops, e.op? = some op := by
  obtain ⟨first, rest⟩ := c
  cases rest with
  | nil => exact absurd rfl hne
  | cons entry rest =>
    obtain ⟨op, f⟩ := entry
    have hleft (h : some (foldLeft (.node op first f) rest) = some e) :
        ∃ o ∈ ops ⟨first, (op, f) :: rest⟩, e.op? = some o := by
      obtain ⟨o, ho, hmem⟩ := op?_foldLeft (e := .node op first f) rfl rest
      rw [Option.some.injEq] at h
      exact ⟨o, List.mem_cons.2 hmem, h ▸ ho⟩
    rw [fold] at h
    cases hop : op.associativity with
    | left =>
      rw [hop] at h
      exact hleft h
    | both =>
      rw [hop] at h
      exact hleft h
    | right =>
      rw [hop] at h
      cases h
      exact ⟨op, List.mem_cons_self, rfl⟩
    | neither =>
      rw [hop] at h
      obtain ⟨-, h⟩ := Option.ite_none_right_eq_some.1 h
      cases h
      exact ⟨op, List.mem_cons_self, rfl⟩

theorem alike_foldLeft {e e' : Expr} (h : e.Alike e') (rest : List (BinOp × Expr)) :
    (foldLeft e rest).Alike (foldLeft e' rest) := by
  induction rest generalizing e e' with
  | nil => exact h
  | cons entry rest ih => exact ih (.node entry.1 h (.refl entry.2))

/-- An operator that may be chained on both sides may take its chain on the right as one operand. -/
theorem alike_foldLeft_node {op : BinOp} (hop : op.associativity = .both) (e f : Expr) {rest : List (BinOp × Expr)}
    (h : ∀ entry ∈ rest, entry.1 = op) : (foldLeft (.node op e f) rest).Alike (.node op e (foldLeft f rest)) := by
  induction rest generalizing f with
  | nil => exact .refl _
  | cons entry rest ih =>
    obtain ⟨o, g⟩ := entry
    obtain rfl : o = op := h _ List.mem_cons_self
    have hstep : (foldLeft (.node o (.node o e f) g) rest).Alike (foldLeft (.node o e (.node o f g)) rest) :=
      alike_foldLeft (.assoc hop e f g) rest
    exact hstep.trans (ih (.node o f g) fun other hother => h other (List.mem_cons_of_mem _ hother))

/-- The operators of a chain that stand in front of an operator of the same level, or behind it. -/
structure Levelled (op : BinOp) (a b : Chain Expr) : Prop where
  front : ∀ o ∈ a.ops, o.precedence = op.precedence ∧ op.groupsLeft = true
  back : ∀ o ∈ b.ops, o = op ∧ op.associativity = .both

theorem exists_fold_append {op : BinOp} {a b : Chain Expr} {l r : Expr} (h : Levelled op a b) (ha : a.fold = some l)
    (hb : b.fold = some r) : ∃ e, (a.append op b).fold = some e ∧ e.Alike (.node op l r) := by
  by_cases hop : op.groupsLeft = true
  · have hfront : ∀ o ∈ a.ops, o.groupsLeft = true := fun o ho => (BinOp.groupsLeft_congr (h.front o ho).1).trans hop
    have hback : ∀ o ∈ b.ops, o.groupsLeft = true := fun o ho => (h.back o ho).1 ▸ hop
    rw [fold_of_groupsLeft hfront, Option.some.injEq] at ha
    rw [fold_of_groupsLeft hback, Option.some.injEq] at hb
    have hall : ∀ o ∈ (a.append op b).ops, o.groupsLeft = true := by
      intro o ho
      rw [ops_append, List.mem_append, List.mem_cons] at ho
      obtain ho | rfl | ho := ho
      · exact hfront o ho
      · exact hop
      · exact hback o ho
    refine ⟨_, fold_of_groupsLeft hall, ?_⟩
    have hsplit : foldLeft (a.append op b).first (a.append op b).rest = foldLeft (.node op l b.first) b.rest := by
      rw [← ha, append, foldLeft, List.foldl_append]
      rfl
    rw [hsplit, ← hb]
    cases hrest : b.rest with
    | nil => exact .refl _
    | cons entry rest =>
      have hmem : entry.1 ∈ b.ops := List.mem_map_of_mem (hrest ▸ List.mem_cons_self)
      refine alike_foldLeft_node (h.back _ hmem).2 _ _ fun other hother => ?_
      exact (h.back other.1 (List.mem_map_of_mem (hrest ▸ hother))).1
  · -- the operator follows no other one of its level, so it stands alone
    have hfront : a.rest = [] := by
      rw [List.eq_nil_iff_forall_not_mem]
      exact fun entry hentry => hop (h.front entry.1 (List.mem_map_of_mem hentry)).2
    have hback : b.rest = [] := by
      rw [List.eq_nil_iff_forall_not_mem]
      exact fun entry hentry => hop (BinOp.groupsLeft_of_both (h.back entry.1 (List.mem_map_of_mem hentry)).2)
    obtain ⟨e, rest⟩ := a
    obtain ⟨f, rest'⟩ := b
    subst hfront hback
    cases ha
    cases hb
    exact ⟨_, fold_pair op l r, .refl _⟩

/-! ## All levels -/

/-- Levels at which a chain has no operators change nothing. -/
theorem groupBy_of_below {below : List Nat} {c : Chain Expr} (h : ∀ op ∈ c.ops, ∀ p ∈ below, op.precedence ≠ p)
    (ps : List Nat) : groupBy (below ++ ps) c = groupBy ps c := by
  induction below with
  | nil => rfl
  | cons p below ih =>
    rw [List.cons_append, groupBy, cut_of_not_mem fun op hop => h op hop p List.mem_cons_self, mapM_single,
      ih fun op hop q hq => h op hop q (List.mem_cons_of_mem p hq)]
    cases groupBy ps c with
    | none => rfl
    | some e => rfl

/-- A thing alone means itself. -/
theorem group_single (e : Expr) : group ⟨e, []⟩ = some e := by
  have halone : ∀ ps, groupBy ps ⟨e, []⟩ = some e := by
    intro ps
    induction ps with
    | nil => rfl
    | cons p ps ih =>
      rw [groupBy]
      show ((⟨⟨e, []⟩, []⟩ : Chain (Chain Expr)).mapM (groupBy ps)).bind fold = some e
      rw [mapM_single, ih]
      rfl
  exact halone levels

theorem levels_eq (op : BinOp) :
    ∃ below above, levels = below ++ op.precedence :: above ∧ ∀ p ∈ below, p < op.precedence := by
  refine ⟨List.range op.precedence, List.range' (op.precedence + 1) (14 - op.precedence), ?_, fun p hp =>
    List.mem_range.1 hp⟩
  cases op <;> rfl

/-- At the root of what a chain means stands an operator that binds no tighter than any in it. -/
theorem op?_of_group {c : Chain Expr} {e : Expr} (h : c.group = some e) {o : BinOp} (ho : o ∈ c.ops) :
    ∃ op, e.op? = some op ∧ op.precedence ≤ o.precedence := by
  obtain ⟨m, hm, hleast⟩ := c.ops.toFinset.exists_min_image BinOp.precedence ⟨o, List.mem_toFinset.2 ho⟩
  rw [List.mem_toFinset] at hm
  obtain ⟨below, above, hlevels, hbelow⟩ := levels_eq m
  have hnone : ∀ op ∈ c.ops, ∀ p ∈ below, op.precedence ≠ p := by
    intro op hop p hp
    have := hleast op (List.mem_toFinset.2 hop)
    have := hbelow p hp
    omega
  rw [group, hlevels, groupBy_of_below hnone] at h
  obtain ⟨d, hd, h⟩ := Option.bind_eq_some_iff.1 h
  have hops := ops_of_mapM hd
  obtain ⟨op, hop, hroot⟩ := op?_of_fold h (hops ▸ List.ne_nil_of_mem (mem_ops_cut_of_mem hm))
  rw [hops] at hop
  exact ⟨op, hroot, (mem_ops_cut hop).2 ▸ hleast o (List.mem_toFinset.2 ho)⟩

/-- Whether an operator in front of another one leaves what stands there in one piece. -/
def StandsBefore (op o : BinOp) : Prop :=
  op.precedence < o.precedence ∨ o.precedence = op.precedence ∧ op.groupsLeft = true

/-- Whether an operator behind another one leaves what stands there in one piece, up to the grouping
of one operator. -/
def StandsBehind (op o : BinOp) : Prop := op.precedence < o.precedence ∨ o = op ∧ op.associativity = .both

/-- An operator between two chains groups them as they stand, if they hold only operators that bind
tighter, or that group with it that way. -/
theorem exists_group_append {op : BinOp} {a b : Chain Expr} {l r : Expr} (ha : a.group = some l)
    (hb : b.group = some r) (hfront : ∀ o ∈ a.ops, StandsBefore op o) (hback : ∀ o ∈ b.ops, StandsBehind op o) :
    ∃ e, (a.append op b).group = some e ∧ e.Alike (.node op l r) := by
  obtain ⟨below, above, hlevels, hbelow⟩ := levels_eq op
  have hleast : ∀ o ∈ (a.append op b).ops, op.precedence ≤ o.precedence := by
    intro o ho
    rw [ops_append, List.mem_append, List.mem_cons] at ho
    obtain ho | rfl | ho := ho
    · exact (hfront o ho).elim Nat.le_of_lt fun h => Nat.le_of_eq h.1.symm
    · exact Nat.le_refl _
    · exact (hback o ho).elim Nat.le_of_lt fun h => h.1 ▸ Nat.le_refl _
  have hnone : ∀ o ∈ (a.append op b).ops, ∀ p ∈ below, o.precedence ≠ p := by
    intro o ho p hp
    have := hleast o ho
    have := hbelow p hp
    omega
  have hsub : ∀ o, o ∈ a.ops ∨ o ∈ b.ops → o ∈ (a.append op b).ops := by
    intro o ho
    rw [ops_append, List.mem_append, List.mem_cons]
    exact ho.imp id .inr
  -- all three chains are cut first at the level of the operator, and the pieces of the whole are theirs
  rw [group, hlevels, groupBy_of_below fun o ho => hnone o (hsub o (.inl ho))] at ha
  rw [group, hlevels, groupBy_of_below fun o ho => hnone o (hsub o (.inr ho))] at hb
  rw [group, hlevels, groupBy_of_below hnone, groupBy, cut_append _ _ _ rfl]
  obtain ⟨c, hc, ha⟩ := Option.bind_eq_some_iff.1 ha
  obtain ⟨d, hd, hb⟩ := Option.bind_eq_some_iff.1 hb
  rw [mapM_append hc hd, Option.bind_some]
  refine exists_fold_append ⟨fun o ho => ?_, fun o ho => ?_⟩ ha hb
  · rw [ops_of_mapM hc] at ho
    obtain ⟨ho, hlevel⟩ := mem_ops_cut ho
    refine ⟨hlevel, (hfront o ho).elim (fun h => ?_) And.right⟩
    omega
  · rw [ops_of_mapM hd] at ho
    obtain ⟨ho, hlevel⟩ := mem_ops_cut ho
    refine (hback o ho).elim (fun h => ?_) id
    omega

end Chain

end NestLint
