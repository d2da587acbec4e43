import NestLint.Proofs.Report.Parentheses
import NestLint.Proofs.Report.Precedence

/-!
# Reading an expression back

The text of an expression is built from its operands upwards. A reader of operators and parentheses
finds the expression in it again, up to the grouping of operators that may be chained on both sides, if
every operand that needs parentheses got them. They are missing only where the parentheses in the texts
of the leaves do not balance, as those in literals need not.

The text is built by `make_binop`, with `needs_paren` for every operand of an operator.

* `Openers.read`, `Openers.read_eq`: the reader;
* `text_eq_written_iff`: when all operands that need parentheses have them;
* `readsBack`: what is read from the text with all of them;
* `reads_back`: what is read from the text that is built.
-/

namespace NestLint

/-! ## The reader -/

/-- The first words of expressions that go on to the end of what surrounds them, as `if` and the
parameters of a closure are. -/
structure Openers where
  opens : List Char → Bool
  opens_paren : ∀ w, opens ('(' :: w) = false

/-- The text between the parentheses that are around a text. -/
def inside? : List Char → Option (List Char)
  | '(' :: rest => if rest = rest.dropLast ++ [')'] ∧ Closed rest.dropLast then some rest.dropLast else none
  | _ => none

theorem length_enclose (cs : List Char) : (enclose cs).length = cs.length + 2 := by simp [enclose]

theorem inside?_eq_some_iff {cs m : List Char} : inside? cs = some m ↔ cs = enclose m ∧ Closed m := by
  constructor
  · intro h
    unfold inside? at h
    split at h
    · rename_i rest
      split at h
      · rename_i hrest
        cases h
        exact ⟨congrArg ('(' :: ·) hrest.1, hrest.2⟩
      · cases h
    · cases h
  · rintro ⟨rfl, hm⟩
    rw [enclose, List.cons_append, inside?, List.dropLast_concat, if_pos ⟨rfl, hm⟩]

namespace Openers

/-- Read an expression. One that opens with such a word is taken as a whole; any other one is
operands with operators between them, and what stands in parentheses is read in turn. -/
def read (g : Openers) (cs : List Char) : Option Expr :=
  if g.opens (firstWord cs) then some (.leaf (String.ofList cs) true)
  else
    (split cs).bind fun c =>
      (c.mapM fun operand =>
        match inside? operand with
        | some m => if m.length < cs.length then g.read m else none
        | none => some (.leaf (String.ofList operand) false)).bind Chain.group
termination_by cs.length

/-- Read an operand. -/
def readOperand (g : Openers) (operand : List Char) : Option Expr :=
  match inside? operand with
  | some m => g.read m
  | none => some (.leaf (String.ofList operand) false)

theorem read_eq (g : Openers) (cs : List Char) :
    g.read cs =
      if g.opens (firstWord cs) then some (.leaf (String.ofList cs) true)
      else (split cs).bind fun c => (c.mapM g.readOperand).bind Chain.group := by
  rw [read]
  split
  · rfl
  · refine Option.bind_congr fun c hc => ?_
    rw [Chain.mapM_congr]
    intro operand hoperand
    rw [readOperand]
    cases hm : inside? operand with
    | none => rfl
    | some m =>
      have hlength := length_le_of_split hc operand hoperand
      rw [(inside?_eq_some_iff.1 hm).1, length_enclose] at hlength
      exact if_pos (by omega)

end Openers

/-! ## What can be read -/

/-- A text is read as an expression, as operands with operators between them. What is said of the
operators that it shows outside parentheses is `shows`. -/
structure Reads (g : Openers) (cs : List Char) (e : Expr) (shows : BinOp → Prop) : Prop where
  closed : Closed cs
  plain : g.opens (firstWord cs) = false
  chain : ∃ c d u, split cs = some c ∧ c.mapM g.readOperand = some d ∧ d.group = some u ∧ u.Alike e ∧
    ∀ op ∈ c.ops, shows op

namespace Reads

variable {g : Openers} {cs : List Char} {e : Expr} {shows : BinOp → Prop}

theorem read (h : Reads g cs e shows) : ∃ u, g.read cs = some u ∧ u.Alike e := by
  obtain ⟨c, d, u, hsplit, hmap, hgroup, halike, -⟩ := h.chain
  refine ⟨u, ?_, halike⟩
  rw [Openers.read_eq, h.plain, if_neg Bool.false_ne_true, hsplit, Option.bind_some, hmap, Option.bind_some, hgroup]

theorem mono (h : Reads g cs e shows) {shows' : BinOp → Prop} (himp : ∀ op, shows op → shows' op) :
    Reads g cs e shows' := by
  obtain ⟨c, d, u, hsplit, hmap, hgroup, halike, hshows⟩ := h.chain
  exact ⟨h.closed, h.plain, c, d, u, hsplit, hmap, hgroup, halike, fun op hop => himp op (hshows op hop)⟩

/-- A text that is one operand. -/
theorem operand (hclosed : Closed cs) (hplain : g.opens (firstWord cs) = false)
    (hwords : ∀ w ∈ words .outer cs, operator? w = none) {u : Expr} (hread : g.readOperand cs = some u)
    (halike : u.Alike e) : Reads g cs e fun _ => False := by
  refine ⟨hclosed, hplain, ⟨cs, []⟩, ⟨u, []⟩, u, split_of_plain hwords, ?_, Chain.group_single u, halike, nofun⟩
  rw [Chain.mapM_single, hread]
  rfl

/-- A text in parentheses. -/
theorem enclose (hclosed : Closed cs) {u : Expr} (hread : g.read cs = some u) (halike : u.Alike e) :
    Reads g (enclose cs) e fun _ => False := by
  refine operand hclosed.enclose ?_ ?_ ?_ halike
  · rw [firstWord_enclose hclosed]
    exact g.opens_paren _
  · rw [words_enclose hclosed]
    intro w hw
    rw [List.mem_singleton.1 hw]
    exact operator?_paren _
  · rw [Openers.readOperand, inside?_eq_some_iff.2 ⟨rfl, hclosed⟩]
    exact hread

/-- Two texts with an operator between them that leaves each of them in one piece. -/
theorem infixed {a b : List Char} {l r : Expr} {front back : BinOp → Prop} (ha : Reads g a l front)
    (hb : Reads g b r back) {op : BinOp} (hfront : ∀ o, front o → Chain.StandsBefore op o)
    (hback : ∀ o, back o → Chain.StandsBehind op o) :
    Reads g (infixed op a b) (.node op l r) fun o => front o ∨ o = op ∨ back o := by
  obtain ⟨c, d, u, hc, hd, hu, hul, hshows⟩ := ha.chain
  obtain ⟨c', d', v, hc', hd', hv, hvr, hshows'⟩ := hb.chain
  have hops : ∀ o ∈ d.ops, Chain.StandsBefore op o := by
    rw [Chain.ops_of_mapM hd]
    exact fun o ho => hfront o (hshows o ho)
  have hops' : ∀ o ∈ d'.ops, Chain.StandsBehind op o := by
    rw [Chain.ops_of_mapM hd']
    exact fun o ho => hback o (hshows' o ho)
  obtain ⟨w, hw, halike⟩ := Chain.exists_group_append hu hv hops hops'
  refine ⟨ha.closed.infixed hb.closed op, ?_, c.append op c', d.append op d', w, split_infixed ha.closed hc hc' op,
    Chain.mapM_append hd hd' op, hw, halike.trans (.node op hul hvr), ?_⟩
  · rw [NestLint.infixed, firstWord_append ha.closed]
    exact ha.plain
  · intro o ho
    rw [Chain.ops_append, List.mem_append, List.mem_cons] at ho
    exact ho.imp (hshows o) (Or.imp_right (hshows' o))

end Reads

/-! ## The text that is built -/

namespace BinOp

/-- Whether a use of an operator may show another one outside parentheses. -/
def Shows (op o : BinOp) : Prop :=
  op.precedence < o.precedence ∨ o = op ∨ o.precedence = op.precedence ∧ op.associativity = .left

/-- What stands without parentheses on the left of an operator, it leaves in one piece. -/
theorem standsBefore_of_shows {op inner o : BinOp} (h : op.needsParen inner .left = false) (ho : inner.Shows o) :
    Chain.StandsBefore op o ∧ op.Shows o := by
  have htable : ∀ op ∈ all, ∀ inner ∈ all, op.needsParen inner .left = false →
      op.precedence < inner.precedence ∨ inner = op ∧ op.groupsLeft = true ∧ op.associativity ≠ .left ∨
        inner.precedence = op.precedence ∧ op.groupsLeft = true ∧ op.associativity = .left := by decide +kernel
  rw [Chain.StandsBefore, Shows]
  obtain htight | ⟨rfl, hleft, hboth⟩ | ⟨hsame, hleft, hassoc⟩ := htable op (mem_all op) inner (mem_all inner) h
  · obtain ho | rfl | ⟨ho, -⟩ := ho <;> omega
  · obtain ho | rfl | ⟨-, hassoc⟩ := ho
    · exact ⟨.inl ho, .inl ho⟩
    · exact ⟨.inr ⟨rfl, hleft⟩, .inr (.inl rfl)⟩
    · exact absurd hassoc hboth
  · obtain ho | rfl | ⟨ho, -⟩ := ho
    · exact ⟨.inl (hsame ▸ ho), .inl (hsame ▸ ho)⟩
    · exact ⟨.inr ⟨hsame, hleft⟩, .inr (.inr ⟨hsame, hassoc⟩)⟩
    · exact ⟨.inr ⟨ho.trans hsame, hleft⟩, .inr (.inr ⟨ho.trans hsame, hassoc⟩)⟩

/-- What stands without parentheses on the right of an operator, it leaves in one piece. -/
theorem standsBehind_of_shows {op inner o : BinOp} (h : op.needsParen inner .right = false) (ho : inner.Shows o) :
    Chain.StandsBehind op o ∧ op.Shows o := by
  have htable : ∀ op ∈ all, ∀ inner ∈ all, op.needsParen inner .right = false →
      op.precedence < inner.precedence ∨ inner = op ∧ op.associativity = .both := by decide +kernel
  rw [Chain.StandsBehind, Shows]
  obtain htight | ⟨rfl, hboth⟩ := htable op (mem_all op) inner (mem_all inner) h
  · obtain ho | rfl | ⟨ho, -⟩ := ho <;> omega
  · obtain ho | rfl | ⟨-, hassoc⟩ := ho
    · exact ⟨.inl ho, .inl ho⟩
    · exact ⟨.inr ⟨rfl, hboth⟩, .inr (.inl rfl)⟩
    · rw [hboth] at hassoc
      cases hassoc

end BinOp

namespace Expr

/-- The operand that is built for an expression, from its leaves upwards. -/
def operand : Expr → Operand
  | .leaf text loose => ⟨text, if loose then .loose else .atom, none⟩
  | .node op lhs rhs => .combine op lhs.operand rhs.operand

/-- The text that is built for an expression. -/
def text (e : Expr) : List Char := e.operand.text.toList

/-- Whether an expression needs parentheses on a side of an operator. -/
def needsParen (op : BinOp) (side : Associativity) : Expr → Bool
  | .leaf _ loose => loose
  | .node inner .. => op.needsParen inner side

/-- The text that is built for an expression on a side of an operator. -/
def beside (op : BinOp) (side : Associativity) (e : Expr) : List Char := (e.operand.onSide op side).toList

/-- What stands for the text of an expression in parentheses: a leaf may have them already. -/
def embrace (e : Expr) (cs : List Char) : List Char :=
  match e with
  | .leaf .. => if Operand.isEnclosed cs then cs else enclose cs
  | .node .. => enclose cs

/-- The text with parentheses around every operand that needs them. -/
def written : Expr → List Char
  | .leaf text _ => text.toList
  | .node op l r =>
    infixed op (if l.needsParen op .left then l.embrace l.written else l.written)
      (if r.needsParen op .right then r.embrace r.written else r.written)

/-- No use of an operator that needs parentheses on a side of another one is taken to have them. -/
def KeptBeside (op : BinOp) (side : Associativity) (e : Expr) : Prop :=
  match e with
  | .leaf .. => True
  | .node .. => e.needsParen op side = true → Operand.isEnclosed e.text = false

/-- Every operand that needs parentheses gets them. -/
def Kept : Expr → Prop
  | .leaf .. => True
  | .node op l r => l.Kept ∧ r.Kept ∧ l.KeptBeside op .left ∧ r.KeptBeside op .right

/-- The texts of the leaves. -/
def leaves : Expr → List String
  | .leaf text _ => [text]
  | .node _ l r => l.leaves ++ r.leaves

theorem text_node (op : BinOp) (l r : Expr) :
    (node op l r).text = infixed op (l.beside op .left) (r.beside op .right) := by
  simp [text, operand, Operand.combine, infixed, beside]

theorem beside_eq (op : BinOp) (side : Associativity) (e : Expr) :
    e.beside op side =
      if e.needsParen op side then if Operand.isEnclosed e.text then e.text else enclose e.text else e.text := by
  have hparen (hshape : e.operand.shape ≠ .atom) :
      e.operand.parenthesised.text.toList = if Operand.isEnclosed e.text then e.text else enclose e.text := by
    rw [Operand.text_parenthesised hshape, text]
    split
    · rfl
    · simp [enclose]
  cases e with
  | leaf text loose =>
    cases loose with
    | false => rfl
    | true => exact hparen fun h => (by cases h)
  | node inner l r =>
    have hside : (node inner l r).operand.onSide op side =
        if op.needsParen inner side then (node inner l r).operand.parenthesised.text
        else (node inner l r).operand.text := rfl
    rw [beside, hside, needsParen]
    split
    · exact hparen fun h => (by cases h)
    · rfl

/-- An operand that is kept has its parentheses, if it needs them. -/
theorem beside_of_kept {op : BinOp} {side : Associativity} {e : Expr} (h : e.KeptBeside op side) :
    e.beside op side = if e.needsParen op side then e.embrace e.text else e.text := by
  rw [beside_eq]
  cases hneeds : e.needsParen op side with
  | false => rfl
  | true =>
    cases e with
    | leaf text loose => rfl
    | node inner l r =>
      rw [h hneeds]
      rfl

/-! ## Where parentheses are missing -/

theorem length_infixed (op : BinOp) (a b : List Char) :
    (infixed op a b).length = a.length + (op.symbol.toList.length + (b.length + 2)) := by
  simp [infixed]
  omega

/-- Two texts around an operator are longer if one of them is. -/
theorem infixed_eq_iff {op : BinOp} {a b a' b' : List Char} (ha : a.length ≤ a'.length) (hb : b.length ≤ b'.length) :
    infixed op a b = infixed op a' b' ↔ a = a' ∧ b = b' := by
  constructor
  · intro h
    have hlength := congrArg List.length h
    rw [length_infixed, length_infixed] at hlength
    obtain ⟨rfl, hrest⟩ := List.append_inj h (by omega)
    have hbehind := List.append_cancel_left (List.cons.inj hrest).2
    exact ⟨rfl, (List.cons.inj hbehind).2⟩
  · rintro ⟨rfl, rfl⟩
    rfl

/-- The text that is built beside an operator lacks nothing exactly if the operand is kept. -/
theorem beside_eq_iff (op : BinOp) (side : Associativity) {e : Expr} (hlength : e.text.length ≤ e.written.length)
    (heq : e.text = e.written ↔ e.Kept) :
    let whole := if e.needsParen op side then e.embrace e.written else e.written
    (e.beside op side).length ≤ whole.length ∧ (e.beside op side = whole ↔ e.Kept ∧ e.KeptBeside op side) := by
  intro whole
  rw [beside_eq]
  cases e with
  | leaf text loose => exact ⟨Nat.le_refl _, iff_of_true rfl ⟨trivial, trivial⟩⟩
  | node inner l r =>
    rw [KeptBeside]
    cases hneeds : (node inner l r).needsParen op side with
    | false =>
      simp only [whole, hneeds, Bool.false_eq_true, if_false, false_implies, and_true]
      exact ⟨hlength, heq⟩
    | true =>
      simp only [whole, hneeds, if_true, embrace, true_implies]
      cases hparen : Operand.isEnclosed (node inner l r).text with
      | false =>
        rw [if_neg Bool.false_ne_true, length_enclose, length_enclose]
        refine ⟨Nat.add_le_add_right hlength 2, ?_⟩
        rw [← heq, and_iff_left rfl]
        exact ⟨fun h => List.append_cancel_right (List.cons.inj h).2, congrArg enclose⟩
      | true =>
        rw [if_pos rfl, length_enclose]
        refine ⟨by omega, iff_of_false (fun h => ?_) (fun h => Bool.false_ne_true h.2.symm)⟩
        have := congrArg List.length h
        rw [length_enclose] at this
        omega

theorem text_written (e : Expr) : e.text.length ≤ e.written.length ∧ (e.text = e.written ↔ e.Kept) := by
  induction e with
  | leaf text loose => exact ⟨Nat.le_refl _, iff_of_true rfl trivial⟩
  | node op l r ihl ihr =>
    obtain ⟨hl, hleft⟩ := beside_eq_iff op .left ihl.1 ihl.2
    obtain ⟨hr, hright⟩ := beside_eq_iff op .right ihr.1 ihr.2
    rw [text_node, written, length_infixed, length_infixed, infixed_eq_iff hl hr, hleft, hright, Kept]
    exact ⟨by omega, by rw [and_and_and_comm, and_assoc]⟩

/-- The text that is built lacks no parentheses exactly if every operand that needs them gets them. -/
theorem text_eq_written_iff (e : Expr) : e.text = e.written ↔ e.Kept := (text_written e).2

open Text

theorem surplus_enclose (cs : List Char) : surplus (enclose cs) = surplus cs := by
  rw [enclose, surplus_append, surplus_cons, surplus_cons, surplus_nil]
  show (1 : Int) + surplus cs + (-1 + 0) = surplus cs
  omega

theorem surplus_symbol (op : BinOp) : surplus op.symbol.toList = 0 := by cases op <;> decide

theorem surplus_infixed (op : BinOp) (a b : List Char) : surplus (infixed op a b) = surplus a + surplus b := by
  have hblank : rise ' ' = 0 := rfl
  simp [infixed, surplus_symbol, hblank]

theorem surplus_beside (op : BinOp) (side : Associativity) (e : Expr) :
    surplus (e.beside op side) = surplus e.text := by
  rw [beside_eq]
  split
  · split
    · rfl
    · exact surplus_enclose _
  · rfl

/-- Parentheses add nothing to the parentheses that the leaves leave open. -/
theorem surplus_text {e : Expr} (h : ∀ text ∈ e.leaves, surplus text.toList = 0) : surplus e.text = 0 := by
  induction e with
  | leaf text loose => exact h text List.mem_cons_self
  | node op l r ihl ihr =>
    rw [text_node, surplus_infixed, surplus_beside, surplus_beside,
      ihl fun text htext => h text (List.mem_append_left _ htext),
      ihr fun text htext => h text (List.mem_append_right _ htext)]
    rfl

/-- A use of an operator is taken to be in parentheses only if its left operand leaves some open. -/
theorem surplus_pos_of_isEnclosed_infixed {op : BinOp} {a b : List Char}
    (h : Operand.isEnclosed (infixed op a b) = true) : 0 < surplus a := by
  have hsplit : infixed op a b = (a ++ [' ']) ++ (op.symbol.toList ++ ' ' :: b) := by simp [infixed]
  rw [hsplit] at h
  have hopen := Operand.surplus_pos_of_isEnclosed h (by simp) (by simp)
  rw [surplus_append] at hopen
  exact lt_of_lt_of_eq hopen (Int.add_zero _)

/-- Where the parentheses of all leaves balance, every operand gets the parentheses that it needs. -/
theorem kept_of_surplus {e : Expr} (h : ∀ text ∈ e.leaves, surplus text.toList = 0) : e.Kept := by
  have hbeside : ∀ (op : BinOp) (side : Associativity) (e : Expr), (∀ text ∈ e.leaves, surplus text.toList = 0) →
      e.KeptBeside op side := by
    intro op side e he
    cases e with
    | leaf text loose => trivial
    | node inner l r =>
      intro _
      rw [← Bool.not_eq_true, text_node]
      intro henclosed
      have hopen := surplus_pos_of_isEnclosed_infixed henclosed
      rw [surplus_beside, surplus_text fun text htext => he text (List.mem_append_left _ htext)] at hopen
      exact Int.lt_irrefl 0 hopen
  induction e with
  | leaf text loose => trivial
  | node op l r ihl ihr =>
    have hl : ∀ text ∈ l.leaves, surplus text.toList = 0 := fun text htext => h text (List.mem_append_left _ htext)
    have hr : ∀ text ∈ r.leaves, surplus text.toList = 0 := fun text htext => h text (List.mem_append_right _ htext)
    exact ⟨ihl hl, ihr hr, hbeside op .left l hl, hbeside op .right r hr⟩

/-! ## What is read back -/

/-- Whether a reader takes a leaf for one operand: it leaves no bracket and no literal open, it shows no
operator, and if it always needs parentheses, its first word says so. A leaf in parentheses is read. -/
def Legible (g : Openers) : Expr → Prop
  | .leaf text loose =>
    Closed text.toList ∧
      match inside? text.toList with
      | some m => (g.read m).isSome = true
      | none =>
        g.opens (firstWord text.toList) = loose ∧
          (loose = false → ∀ w ∈ words .outer text.toList, operator? w = none)
  | .node _ l r => l.Legible g ∧ r.Legible g

/-- The expression with what the leaves in parentheses mean. -/
def opened (g : Openers) : Expr → Expr
  | .leaf text loose =>
    match inside? text.toList with
    | some m => (g.read m).getD (.leaf text loose)
    | none => .leaf text loose
  | .node op l r => .node op (l.opened g) (r.opened g)

/-- The operators that the text of an expression may show outside parentheses. -/
def Shows : Expr → BinOp → Prop
  | .leaf .., _ => False
  | .node op .., o => op.Shows o

variable {g : Openers}

/-- A leaf that is not in parentheses. -/
theorem legible_leaf {text : String} {loose : Bool}
    (h : Closed text.toList ∧ inside? text.toList = none ∧ g.opens (firstWord text.toList) = loose ∧
      (loose = false → ∀ w ∈ words .outer text.toList, operator? w = none)) : (leaf text loose).Legible g := by
  obtain ⟨hclosed, hinside, hopens, hwords⟩ := h
  rw [Legible, hinside]
  exact ⟨hclosed, hopens, hwords⟩

theorem opens_eq_false_of_isEnclosed {cs : List Char} (h : Operand.isEnclosed cs = true) :
    g.opens (firstWord cs) = false := by
  obtain ⟨m, rfl, -⟩ := Operand.isEnclosed_iff.1 h
  obtain ⟨w, hw⟩ := firstWord_paren (m ++ [')'])
  rw [List.cons_append, hw]
  exact g.opens_paren w

/-- What is read from the text of an expression, alone and beside an operator, is `v`. -/
structure ReadsBack (g : Openers) (e v : Expr) : Prop where
  closed : Closed e.written
  alone : ∃ u, g.read e.written = some u ∧ u.Alike v
  beside : ∀ op side, Reads g (if e.needsParen op side then e.embrace e.written else e.written) v fun o =>
    e.needsParen op side = false ∧ e.Shows o

theorem embrace_leaf (op : BinOp) (side : Associativity) (text : String) :
    (if (leaf text true).needsParen op side then (leaf text true).embrace (leaf text true).written
      else (leaf text true).written) =
      if Operand.isEnclosed text.toList then text.toList else enclose text.toList := rfl

theorem readsBack_leaf {text : String} {loose : Bool} (h : (leaf text loose).Legible g) :
    ReadsBack g (.leaf text loose) ((leaf text loose).opened g) := by
  obtain ⟨hclosed, h⟩ := h
  cases hm : inside? text.toList with
  | some m =>
    simp only [hm, Option.isSome_iff_exists] at h
    obtain ⟨u, hu⟩ := h
    obtain ⟨htext, hmclosed⟩ := inside?_eq_some_iff.1 hm
    have hopened : (leaf text loose).opened g = u := by simp [opened, hm, hu]
    have hreads : Reads g text.toList u fun _ => False := htext ▸ Reads.enclose hmclosed hu (.refl u)
    rw [hopened]
    refine ⟨hclosed, hreads.read, fun op side => Reads.mono ?_ fun _ => False.elim⟩
    cases loose with
    | false => exact hreads
    | true =>
      rw [embrace_leaf]
      split
      · exact hreads
      · obtain ⟨v, hv, halike⟩ := hreads.read
        exact Reads.enclose hclosed hv halike
  | none =>
    simp only [hm] at h
    obtain ⟨hopens, hwords⟩ := h
    have hopened : (leaf text loose).opened g = .leaf text loose := by simp [opened, hm]
    rw [hopened]
    cases loose with
    | false =>
      have hreads : Reads g text.toList (.leaf text false) fun _ => False := by
        refine Reads.operand hclosed hopens (hwords rfl) ?_ (.refl _)
        rw [Openers.readOperand, hm, String.ofList_toList]
      exact ⟨hclosed, hreads.read, fun op side => hreads.mono fun _ => False.elim⟩
    | true =>
      have hread : g.read text.toList = some (.leaf text true) := by
        rw [Openers.read_eq, if_pos hopens, String.ofList_toList]
      -- a text in parentheses starts with one, and no first word that opens an operand does
      have hparen : ¬Operand.isEnclosed text.toList = true := by
        intro hparen
        rw [opens_eq_false_of_isEnclosed hparen] at hopens
        cases hopens
      refine ⟨hclosed, ⟨_, hread, .refl _⟩, fun op side => Reads.mono ?_ fun _ => False.elim⟩
      rw [embrace_leaf, if_neg hparen]
      exact Reads.enclose hclosed hread (.refl _)

theorem reads_node (op : BinOp) {l r v w : Expr} (hl : ReadsBack g l v) (hr : ReadsBack g r w) :
    Reads g (node op l r).written (.node op v w) op.Shows := by
  have hfront : ∀ o, l.needsParen op .left = false ∧ l.Shows o → Chain.StandsBefore op o ∧ op.Shows o := by
    rintro o ⟨hneeds, hshows⟩
    cases l with
    | leaf text loose => exact hshows.elim
    | node inner _ _ => exact BinOp.standsBefore_of_shows hneeds hshows
  have hback : ∀ o, r.needsParen op .right = false ∧ r.Shows o → Chain.StandsBehind op o ∧ op.Shows o := by
    rintro o ⟨hneeds, hshows⟩
    cases r with
    | leaf text loose => exact hshows.elim
    | node inner _ _ => exact BinOp.standsBehind_of_shows hneeds hshows
  have hreads := (hl.beside op .left).infixed (hr.beside op .right) (fun o ho => (hfront o ho).1) fun o ho =>
    (hback o ho).1
  refine hreads.mono fun o ho => ?_
  obtain ho | rfl | ho := ho
  · exact (hfront o ho).2
  · exact .inr (.inl rfl)
  · exact (hback o ho).2

/-- The text with all parentheses is read as the expression. -/
theorem readsBack {e : Expr} (h : e.Legible g) : ReadsBack g e (e.opened g) := by
  -- alone is not enough to go on with: what stands beside an operator must show none that binds looser
  induction e with
  | leaf text loose => exact readsBack_leaf h
  | node op l r ihl ihr =>
    have hreads := reads_node op (ihl h.1) (ihr h.2)
    refine ⟨hreads.closed, hreads.read, fun o side => ?_⟩
    split
    · obtain ⟨u, hu, halike⟩ := hreads.read
      exact (Reads.enclose hreads.closed hu halike).mono fun _ => False.elim
    · rename_i hneeds
      exact hreads.mono fun p hp => ⟨Bool.eq_false_iff.2 hneeds, hp⟩

/-! ## What is read where parentheses are missing -/

/-- Where a side of an operator shows one that binds looser, no use of the operator is read. -/
theorem op?_ne_of_read {op o : BinOp} {a b : List Char} {c d : Chain (List Char)} {u : Expr} (ha : Closed a)
    (hplain : g.opens (firstWord a) = false) (hc : split a = some c) (hd : split b = some d)
    (ho : o ∈ c.ops ∨ o ∈ d.ops) (hless : o.precedence < op.precedence)
    (hread : g.read (infixed op a b) = some u) : u.op? ≠ some op := by
  rw [Openers.read_eq, infixed, firstWord_append ha, hplain, if_neg Bool.false_ne_true, ← infixed,
    split_infixed ha hc hd, Option.bind_some] at hread
  obtain ⟨e, he, hgroup⟩ := Option.bind_eq_some_iff.1 hread
  have hmem : o ∈ e.ops := by
    rw [Chain.ops_of_mapM he, Chain.ops_append, List.mem_append, List.mem_cons]
    exact ho.imp id .inr
  obtain ⟨root, hroot, hle⟩ := Chain.op?_of_group hgroup hmem
  rw [hroot, Ne, Option.some.injEq]
  rintro rfl
  omega

/-- An operand that binds looser than the operator, and gets no parentheses. -/
def LostBeside (op : BinOp) (e : Expr) : Prop :=
  match e with
  | .leaf .. => False
  | .node inner .. => inner.precedence < op.precedence ∧ Operand.isEnclosed e.text = true

/-- What an operand shows beside an operator. -/
theorem exists_split_beside {e : Expr} (h : e.Legible g) (hkept : e.Kept) (op : BinOp) (side : Associativity) :
    Closed (e.beside op side) ∧ g.opens (firstWord (e.beside op side)) = false ∧
      ∃ c, split (e.beside op side) = some c ∧ (e.LostBeside op → ∃ o ∈ c.ops, o.precedence < op.precedence) := by
  by_cases hbeside : e.KeptBeside op side
  · have hreads := (readsBack h).beside op side
    rw [← (text_eq_written_iff e).2 hkept, ← beside_of_kept hbeside] at hreads
    obtain ⟨c, -, -, hc, -⟩ := hreads.chain
    refine ⟨hreads.closed, hreads.plain, c, hc, fun hlost => ?_⟩
    cases e with
    | leaf text loose => exact hlost.elim
    | node inner l r =>
      have hneeds : (node inner l r).needsParen op side = true := by
        rw [needsParen, BinOp.needsParen, decide_eq_true hlost.1]
        rfl
      exact absurd hlost.2 (by simp [hbeside hneeds])
  · cases e with
    | leaf text loose => exact absurd trivial hbeside
    | node inner l r =>
      simp only [KeptBeside, Classical.not_imp, Bool.not_eq_false] at hbeside
      obtain ⟨hneeds, henclosed⟩ := hbeside
      have hl := (readsBack h.1).beside inner .left
      obtain ⟨c, -, -, hc, -⟩ := hl.chain
      obtain ⟨d, -, -, hd, -⟩ := ((readsBack h.2).beside inner .right).chain
      have hreads := reads_node inner (readsBack h.1) (readsBack h.2)
      rw [beside_eq, if_pos hneeds, if_pos henclosed, (text_eq_written_iff _).2 hkept]
      refine ⟨hreads.closed, hreads.plain, c.append inner d, split_infixed hl.closed hc hd inner, fun hlost => ?_⟩
      exact ⟨inner, by simp [Chain.ops_append], hlost.1⟩

/-- An operator that may be chained on both sides treats its sides alike. -/
theorem onSide_of_both {op : BinOp} (h : op.associativity = .both) (o : Operand) :
    o.onSide op .left = o.onSide op .right := by
  have hneeds : ∀ inner, op.needsParen inner .left = op.needsParen inner .right := by
    intro inner
    rw [BinOp.needsParen, BinOp.needsParen, h]
    rfl
  rw [Operand.onSide, Operand.onSide]
  simp only [hneeds]

/-- The text of three operands does not depend on how they are grouped. -/
theorem combine_assoc {op : BinOp} (h : op.associativity = .both) (a b c : Operand) :
    Operand.combine op (Operand.combine op a b) c = Operand.combine op a (Operand.combine op b c) := by
  have hneeds : ∀ side, op.needsParen op side = false := by
    intro side
    revert h
    cases op <;> cases side <;> decide
  have hcombine : ∀ a b, Operand.combine op a b =
      ⟨a.onSide op .left ++ " " ++ op.symbol ++ " " ++ b.onSide op .right, .chain, some op⟩ := fun _ _ => rfl
  have hinner : ∀ side a b, (Operand.combine op a b).onSide op side =
      a.onSide op .left ++ " " ++ op.symbol ++ " " ++ b.onSide op .right := by
    intro side a b
    rw [Operand.onSide]
    exact if_neg (by simp [hneeds side])
  rw [hcombine (Operand.combine op a b) c, hcombine a (Operand.combine op b c), hinner, hinner, onSide_of_both h b]
  simp only [String.append_assoc]

/-- The text of an expression with legible leaves reads back, up to the grouping of operators that may
be chained on both sides, if every operand gets the parentheses that it needs. It lacks none exactly
then, and that is so where the parentheses of all leaves balance. Where an operand that binds looser
goes without, no use of the operator is read. -/
theorem reads_back {t : Expr} (h : t.Legible g) :
    (∃ u, g.read t.written = some u ∧ u.Alike (t.opened g)) ∧ (t.text = t.written ↔ t.Kept) ∧
      (t.Kept → ∃ u, g.read t.text = some u ∧ u.Alike (t.opened g)) ∧
      ((∀ text ∈ t.leaves, surplus text.toList = 0) → t.Kept) ∧
      (∀ op l r, t = .node op l r → l.Kept → r.Kept → l.LostBeside op ∨ r.LostBeside op →
        ∀ u, g.read t.text = some u → ¬u.Alike (t.opened g)) ∧
      ∀ op, op.associativity = .both → ∀ a b c : Operand,
        Operand.combine op (Operand.combine op a b) c = Operand.combine op a (Operand.combine op b c) := by
  have hback := (readsBack h).alone
  refine ⟨hback, text_eq_written_iff t, fun hkept => ?_, kept_of_surplus, ?_, fun op => combine_assoc⟩
  · rwa [(text_eq_written_iff t).2 hkept]
  · rintro op l r rfl hl hr hlost u hread halike
    obtain ⟨hclosed, hplain, c, hc, hleft⟩ := exists_split_beside h.1 hl op .left
    obtain ⟨-, -, d, hd, hright⟩ := exists_split_beside h.2 hr op .right
    obtain ⟨o, ho, hless⟩ : ∃ o, (o ∈ c.ops ∨ o ∈ d.ops) ∧ o.precedence < op.precedence := by
      obtain hlost | hlost := hlost
      · obtain ⟨o, ho, hless⟩ := hleft hlost
        exact ⟨o, .inl ho, hless⟩
      · obtain ⟨o, ho, hless⟩ := hright hlost
        exact ⟨o, .inr ho, hless⟩
    rw [text_node] at hread
    exact op?_ne_of_read hclosed hplain hc hd ho hless hread halike.op?

/-- `if` alone opens an expression that goes on. -/
def ifOpens : Openers := ⟨fun w => w == "if".toList, fun _ => rfl⟩

/-- Either of two conditions, the second of which always needs parentheses, and one more. -/
def choice : Expr :=
  .node .and (.node .or (.leaf "x" false) (.leaf "if y \x7b a \x7d else \x7b b \x7d" true)) (.leaf "z" false)

/-- `(x || (if y { a } else { b })) && z` reads back. -/
theorem reads_back_choice :
    choice.Legible ifOpens ∧ ∃ u, ifOpens.read choice.text = some u ∧ u.Alike (choice.opened ifOpens) := by
  have hlegible : choice.Legible ifOpens :=
    ⟨⟨legible_leaf (by decide +kernel), legible_leaf (by decide +kernel)⟩, legible_leaf (by decide +kernel)⟩
  exact ⟨hlegible, (reads_back hlegible).2.2.1 ((reads_back hlegible).2.2.2.1 (by decide +kernel))⟩

/-- An expression that always needs parentheses and compares with an opening one. -/
def opening : Expr := .leaf "if c == '(' { x } else { y }" true

/-- An expression that always needs parentheses and compares with a closing one. -/
def closing : Expr := .leaf "if d == ')' { x } else { y }" true

/-- The parentheses in the literals make `||` seem to be in parentheses below `&&`: the text is that of
another expression, so no reader gives both back, and this one does not give back the first. -/
theorem unread_literals :
    let first := node .and (.node .or opening closing) (.leaf "z" false)
    let second := node .or opening (.node .and closing (.leaf "z" false))
    first.Legible ifOpens ∧ second.Legible ifOpens ∧ first.text = second.text ∧
      (¬∃ u, ifOpens.read first.text = some u ∧ u.Alike (first.opened ifOpens)) ∧
      ∀ reader : List Char → Option Expr, ¬((∃ u, reader first.text = some u ∧ u.Alike (first.opened ifOpens)) ∧
        ∃ u, reader second.text = some u ∧ u.Alike (second.opened ifOpens)) := by
  intro first second
  have hopening : opening.Legible ifOpens := legible_leaf (by decide +kernel)
  have hclosing : closing.Legible ifOpens := legible_leaf (by decide +kernel)
  have hrest : (leaf "z" false).Legible ifOpens := legible_leaf (by decide +kernel)
  have hfirst : first.Legible ifOpens := ⟨⟨hopening, hclosing⟩, hrest⟩
  have hsecond : second.Legible ifOpens := ⟨hopening, hclosing, hrest⟩
  have hsame : first.text = second.text := by decide +kernel
  have hreader : ∀ reader : List Char → Option Expr,
      ¬((∃ u, reader first.text = some u ∧ u.Alike (first.opened ifOpens)) ∧
        ∃ u, reader second.text = some u ∧ u.Alike (second.opened ifOpens)) := by
    rintro reader ⟨⟨u, hu, halike⟩, v, hv, halike'⟩
    rw [hsame, hv, Option.some.injEq] at hu
    subst hu
    have hroot : (first.opened ifOpens).op? = (second.opened ifOpens).op? := halike.op?.symm.trans halike'.op?
    exact absurd hroot (by rw [opened, opened]; decide)
  have hread : ∃ u, ifOpens.read second.text = some u ∧ u.Alike (second.opened ifOpens) := by
    have hkept : second.Kept := ⟨trivial, ⟨trivial, trivial, trivial, trivial⟩, trivial, nofun⟩
    rw [(text_eq_written_iff second).2 hkept]
    exact (readsBack hsecond).alone
  exact ⟨hfirst, hsecond, hsame, fun h => hreader ifOpens.read ⟨h, hread⟩, hreader⟩

end Expr

end NestLint
