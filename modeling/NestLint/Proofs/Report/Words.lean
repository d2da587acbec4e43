import NestLint.Tree.Operator

/-!
# Operands and operators in a text

A reader of expressions sees a text as operands with operators between them. An operator is a word of
its own, with blanks around it, outside all brackets and literals; everything between two operators is
the text of an operand. Brackets are parentheses, square brackets and braces. Literals are strings and
characters; a single quote that no other one follows at once is the mark of a lifetime.

* `Scan.run`: how far brackets and literals are open behind a text;
* `words`, `words_append`: the words outside brackets and literals;
* `chainOf`, `chainOf_append`: the operands and operators.
-/

namespace NestLint

/-! ## Brackets and literals -/

/-- What the next character of a text belongs to. Behind a single quote and one more character, only
another single quote makes a literal. -/
inductive Mode where
  | code
  | string
  | stringEscape
  | quote
  | quoted
  | quoteEscape
  | quoteRest
  deriving DecidableEq, Repr

/-- How much is open behind a text: a number of brackets, and perhaps a literal. A text that closes a
bracket which is not open is stuck. -/
inductive Scan where
  | stuck
  | within (depth : Nat) (mode : Mode)
  deriving DecidableEq, Repr

namespace Scan

/-- Nothing is open. -/
def outer : Scan := .within 0 .code

/-- The next character in code. -/
def code (depth : Nat) (c : Char) : Scan :=
  if c ∈ "([\x7b".toList then .within (depth + 1) .code
  else if c ∈ ")]\x7d".toList then
    match depth with
    | 0 => .stuck
    | depth + 1 => .within depth .code
  else if c = '"' then .within depth .string
  else if c = '\'' then .within depth .quote
  else .within depth .code

/-- The next character. -/
def step : Scan → Char → Scan
  | .stuck, _ => .stuck
  | .within depth .code, c => code depth c
  | .within depth .string, c =>
    .within depth (if c = '"' then .code else if c = '\\' then .stringEscape else .string)
  | .within depth .stringEscape, _ => .within depth .string
  | .within depth .quote, c => .within depth (if c = '\\' then .quoteEscape else .quoted)
  | .within depth .quoted, c => if c = '\'' then .within depth .code else code depth c
  | .within depth .quoteEscape, _ => .within depth .quoteRest
  | .within depth .quoteRest, c => .within depth (if c = '\'' then .code else .quoteRest)

/-- A whole text. -/
def run (s : Scan) (cs : List Char) : Scan := cs.foldl step s

/-- The same with more brackets open around it. -/
def deeper (k : Nat) : Scan → Scan
  | .stuck => .stuck
  | .within depth mode => .within (depth + k) mode

theorem run_cons (s : Scan) (c : Char) (cs : List Char) : s.run (c :: cs) = (s.step c).run cs := rfl

theorem run_append (s : Scan) (a b : List Char) : s.run (a ++ b) = (s.run a).run b := List.foldl_append

theorem run_stuck (cs : List Char) : stuck.run cs = stuck := by
  induction cs with
  | nil => rfl
  | cons c rest ih => exact ih

theorem deeper_ne_outer (k : Nat) (s : Scan) : s.deeper (k + 1) ≠ outer := by
  cases s with
  | stuck => nofun
  | within depth mode =>
    rw [deeper, outer, Ne, within.injEq]
    omega

theorem code_deeper {depth : Nat} {c : Char} (h : code depth c ≠ stuck) (k : Nat) :
    code (depth + k) c = (code depth c).deeper k := by
  unfold code at h ⊢
  by_cases hopen : c ∈ "([\x7b".toList
  · rw [if_pos hopen, if_pos hopen, deeper, Nat.add_right_comm]
  · rw [if_neg hopen] at h
    rw [if_neg hopen, if_neg hopen]
    by_cases hclose : c ∈ ")]\x7d".toList
    · rw [if_pos hclose] at h
      rw [if_pos hclose, if_pos hclose]
      cases depth with
      | zero => exact absurd rfl h
      | succ depth => rw [Nat.add_right_comm]; rfl
    · rw [if_neg hclose, if_neg hclose, apply_ite (deeper k), apply_ite (deeper k)]
      rfl

theorem step_deeper {s : Scan} {c : Char} (h : s.step c ≠ stuck) (k : Nat) :
    (s.deeper k).step c = (s.step c).deeper k := by
  cases s with
  | stuck => rfl
  | within depth mode =>
    cases mode with
    | code => exact code_deeper h k
    | quoted =>
      simp only [step, deeper] at h ⊢
      split
      · rfl
      · rename_i hquote
        rw [if_neg hquote] at h
        exact code_deeper h k
    | string => rfl
    | stringEscape => rfl
    | quote => rfl
    | quoteEscape => rfl
    | quoteRest => rfl

theorem step_ne_stuck {s : Scan} {c : Char} {cs : List Char} (h : s.run (c :: cs) ≠ stuck) : s.step c ≠ stuck := by
  intro hs
  rw [run_cons, hs, run_stuck] at h
  exact h rfl

/-- What a text closes does not depend on what is open around it. -/
theorem run_deeper {s : Scan} {cs : List Char} (h : s.run cs ≠ stuck) (k : Nat) :
    (s.deeper k).run cs = (s.run cs).deeper k := by
  induction cs generalizing s with
  | nil => rfl
  | cons c rest ih => rw [run_cons, step_deeper (step_ne_stuck h), ih h, run_cons]

end Scan

/-- A text that leaves nothing open and closes nothing that it has not opened. -/
def Closed (cs : List Char) : Prop := Scan.outer.run cs = Scan.outer

instance (cs : List Char) : Decidable (Closed cs) := inferInstanceAs (Decidable (_ = _))

theorem Closed.append {a b : List Char} (ha : Closed a) (hb : Closed b) : Closed (a ++ b) := by
  rw [Closed, Scan.run_append, ha, hb]

/-- The text in parentheses. -/
def enclose (cs : List Char) : List Char := '(' :: cs ++ [')']

theorem Closed.run_deeper {cs : List Char} (h : Closed cs) : (Scan.within 1 .code).run cs = .within 1 .code := by
  have hdeeper := Scan.run_deeper (s := .outer) (by rw [h]; nofun) 1
  rwa [h] at hdeeper

theorem Closed.enclose {cs : List Char} (h : Closed cs) : Closed (enclose cs) := by
  rw [Closed, NestLint.enclose, List.cons_append, Scan.run_cons, Scan.run_append]
  show ((Scan.within 1 .code).run cs).run [')'] = Scan.outer
  rw [h.run_deeper]
  rfl

/-! ## Words -/

/-- A text in front of the first of some words. -/
def prepend (cs : List Char) : List (List Char) → List (List Char)
  | [] => [cs]
  | w :: ws => (cs ++ w) :: ws

/-- The words of a text: what stands between the blanks outside brackets and literals. -/
def words (s : Scan) : List Char → List (List Char)
  | [] => [[]]
  | c :: rest => if c = ' ' ∧ s = .outer then [] :: words .outer rest else prepend [c] (words (s.step c) rest)

theorem prepend_ne_nil (cs : List Char) (ws : List (List Char)) : prepend cs ws ≠ [] := by cases ws <;> nofun

theorem words_ne_nil (s : Scan) (cs : List Char) : words s cs ≠ [] := by
  cases cs with
  | nil => nofun
  | cons c rest =>
    rw [words]
    split
    · nofun
    · exact prepend_ne_nil _ _

theorem prepend_append {ws : List (List Char)} (h : ws ≠ []) (cs : List Char) (vs : List (List Char)) :
    prepend cs (ws ++ vs) = prepend cs ws ++ vs := by
  obtain ⟨w, ws, rfl⟩ := List.exists_cons_of_ne_nil h
  rfl

theorem prepend_nil {ws : List (List Char)} (h : ws ≠ []) : prepend [] ws = ws := by
  obtain ⟨w, ws, rfl⟩ := List.exists_cons_of_ne_nil h
  rfl

theorem prepend_prepend (a b : List Char) (ws : List (List Char)) : prepend a (prepend b ws) = prepend (a ++ b) ws := by
  cases ws with
  | nil => rfl
  | cons w ws => exact congrArg (· :: ws) (List.append_assoc a b w).symm

/-- A blank outside brackets and literals ends a word. -/
theorem words_append {s : Scan} {a : List Char} (h : s.run a = .outer) (b : List Char) :
    words s (a ++ ' ' :: b) = words s a ++ words .outer b := by
  induction a generalizing s with
  | nil =>
    have hs : s = .outer := h
    rw [hs]
    rfl
  | cons c rest ih =>
    rw [List.cons_append, words, words]
    split
    · rename_i hblank
      have hrest : Scan.outer.run rest = .outer := by
        rw [Scan.run_cons, hblank.1, hblank.2] at h
        exact h
      rw [ih hrest]
      rfl
    · rw [ih h, prepend_append (words_ne_nil _ _)]

/-- Inside brackets no blank ends a word. -/
theorem words_deeper {s : Scan} {a : List Char} (h : s.run a ≠ .stuck) (b : List Char) :
    words (s.deeper 1) (a ++ b) = prepend a (words ((s.run a).deeper 1) b) := by
  induction a generalizing s with
  | nil => exact (prepend_nil (words_ne_nil _ _)).symm
  | cons c rest ih =>
    rw [List.cons_append, words, if_neg fun hblank => s.deeper_ne_outer 0 hblank.2,
      Scan.step_deeper (Scan.step_ne_stuck h), ih h, prepend_prepend]
    rfl

theorem words_enclose {cs : List Char} (h : Closed cs) : words .outer (enclose cs) = [enclose cs] := by
  have hinner : words (.within 1 .code) (cs ++ [')']) = [cs ++ [')']] := by
    have hdeeper := words_deeper (s := .outer) (by rw [h]; nofun) [')']
    rw [h] at hdeeper
    exact hdeeper
  rw [enclose, List.cons_append, words, if_neg (by decide)]
  exact congrArg (prepend ['(']) hinner

/-- The first word of a text. -/
def firstWord (cs : List Char) : List Char := (words .outer cs).headD []

theorem firstWord_append {a : List Char} (h : Closed a) (b : List Char) : firstWord (a ++ ' ' :: b) = firstWord a := by
  obtain ⟨w, ws, hw⟩ := List.exists_cons_of_ne_nil (words_ne_nil .outer a)
  rw [firstWord, firstWord, words_append h, hw]
  rfl

theorem firstWord_enclose {cs : List Char} (h : Closed cs) : firstWord (enclose cs) = enclose cs := by
  rw [firstWord, words_enclose h]
  rfl

theorem firstWord_paren (cs : List Char) : ∃ w, firstWord ('(' :: cs) = '(' :: w := by
  obtain ⟨w, ws, hw⟩ := List.exists_cons_of_ne_nil (words_ne_nil (Scan.outer.step '(') cs)
  refine ⟨w, ?_⟩
  rw [firstWord, words, if_neg (by decide), hw]
  rfl

/-- Words with a blank between each two. -/
def joinWords : List (List Char) → List Char
  | [] => []
  | [w] => w
  | w :: v :: ws => w ++ ' ' :: joinWords (v :: ws)

theorem joinWords_cons {ws : List (List Char)} (h : ws ≠ []) (w : List Char) :
    joinWords (w :: ws) = w ++ ' ' :: joinWords ws := by
  obtain ⟨v, vs, rfl⟩ := List.exists_cons_of_ne_nil h
  rfl

theorem joinWords_prepend (cs : List Char) (ws : List (List Char)) :
    joinWords (prepend cs ws) = cs ++ joinWords ws := by
  match ws with
  | [] => exact (List.append_nil cs).symm
  | [w] => rfl
  | w :: v :: ws => exact List.append_assoc ..

theorem joinWords_words (s : Scan) (cs : List Char) : joinWords (words s cs) = cs := by
  induction cs generalizing s with
  | nil => rfl
  | cons c rest ih =>
    rw [words]
    split
    · rename_i hblank
      rw [joinWords_cons (words_ne_nil _ _), ih, hblank.1]
      rfl
    · rw [joinWords_prepend, ih]
      rfl

/-! ## Operands with operators between them -/

/-- Some things with an operator between each two. -/
structure Chain (α : Type) where
  first : α
  rest : List (BinOp × α) := []
  deriving Repr

namespace Chain

variable {α β : Type}

/-- A chain, an operator, and another chain. -/
def append (a : Chain α) (op : BinOp) (b : Chain α) : Chain α := ⟨a.first, a.rest ++ (op, b.first) :: b.rest⟩

/-- The things in the chain. -/
def items (c : Chain α) : List α := c.first :: c.rest.map Prod.snd

/-- The operators between them. -/
def ops (c : Chain α) : List BinOp := c.rest.map Prod.fst

/-- The chain of what becomes of each thing, if something does. -/
def mapM (f : α → Option β) (c : Chain α) : Option (Chain β) :=
  (f c.first).bind fun first =>
    (c.rest.mapM fun entry => (f entry.2).map fun b => (entry.1, b)).map fun rest => ⟨first, rest⟩

theorem ops_append (a : Chain α) (op : BinOp) (b : Chain α) : (a.append op b).ops = a.ops ++ op :: b.ops := by
  simp [append, ops]

theorem mapM_single (f : α → Option β) (a : α) : mapM f ⟨a, []⟩ = (f a).map fun b => ⟨b, []⟩ := by
  cases h : f a with
  | none => rw [mapM, h]; rfl
  | some b => rw [mapM, h]; rfl

theorem mapM_append {f : α → Option β} {a b : Chain α} {a' b' : Chain β} (ha : a.mapM f = some a')
    (hb : b.mapM f = some b') (op : BinOp) : (a.append op b).mapM f = some (a'.append op b') := by
  simp only [mapM, Option.bind_eq_some_iff, Option.map_eq_some_iff] at ha hb
  obtain ⟨x, hx, xs, hxs, rfl⟩ := ha
  obtain ⟨y, hy, ys, hys, rfl⟩ := hb
  simp [mapM, append, hx, hy, hxs, hys]

theorem mapM_congr {f g : α → Option β} {c : Chain α} (h : ∀ a ∈ c.items, f a = g a) : c.mapM f = c.mapM g := by
  have hrest : ∀ rest : List (BinOp × α), (∀ entry ∈ rest, f entry.2 = g entry.2) →
      rest.mapM (fun entry => (f entry.2).map fun b => (entry.1, b)) =
        rest.mapM fun entry => (g entry.2).map fun b => (entry.1, b) := by
    intro rest hrest
    induction rest with
    | nil => rfl
    | cons entry rest ih =>
      rw [List.mapM_cons, List.mapM_cons, hrest entry List.mem_cons_self,
        ih fun other hother => hrest other (List.mem_cons_of_mem _ hother)]
  rw [mapM, mapM, h c.first List.mem_cons_self,
    hrest c.rest fun entry hentry => h entry.2 (List.mem_cons_of_mem _ (List.mem_map_of_mem hentry))]

end Chain

/-- The operator that a word is. -/
def operator? (w : List Char) : Option BinOp := BinOp.ofSymbol? (String.ofList w)

theorem operator?_symbol (op : BinOp) : operator? op.symbol.toList = some op := by
  rw [operator?, String.ofList_toList, BinOp.ofSymbol?_symbol]

theorem operator?_paren (w : List Char) : operator? ('(' :: w) = none := by
  rw [operator?, BinOp.ofSymbol?, List.find?_eq_none]
  intro op hop
  have hall : ∀ op ∈ BinOp.all, op.symbol.toList.head? ≠ some '(' := by decide
  rw [beq_iff_eq]
  intro heq
  refine hall op hop ?_
  rw [heq, String.toList_ofList]
  rfl

/-- The words of operands put together, with the operators between them. There is none if two operators
follow each other, or if one stands at an end. -/
def chainOf : List (List Char) → Option (Chain (List Char))
  | [] => none
  | [w] => if (operator? w).isSome then none else some ⟨w, []⟩
  | w :: v :: ws =>
    if (operator? w).isSome then none
    else
      match operator? v with
      | some op => (chainOf ws).map fun c => ⟨w, (op, c.first) :: c.rest⟩
      | none => (chainOf (v :: ws)).map fun c => ⟨w ++ ' ' :: c.first, c.rest⟩

/-- Words without an operator are one operand. -/
theorem chainOf_of_plain {ws : List (List Char)} (hne : ws ≠ []) (h : ∀ w ∈ ws, operator? w = none) :
    chainOf ws = some ⟨joinWords ws, []⟩ := by
  induction ws with
  | nil => exact absurd rfl hne
  | cons w ws ih =>
    have hw := h w List.mem_cons_self
    cases ws with
    | nil =>
      rw [chainOf, hw]
      rfl
    | cons v vs =>
      have hv := h v (List.mem_cons_of_mem w List.mem_cons_self)
      rw [chainOf, hw, hv, ih nofun fun u hu => h u (List.mem_cons_of_mem w hu)]
      rfl

/-- An operator between the words of two chains joins them. -/
theorem chainOf_append {us vs : List (List Char)} {a b : Chain (List Char)} (ha : chainOf us = some a)
    (hb : chainOf vs = some b) (op : BinOp) : chainOf (us ++ op.symbol.toList :: vs) = some (a.append op b) := by
  induction us using chainOf.induct generalizing a with
  | case1 => cases ha
  | case2 w hw =>
    rw [chainOf, if_pos hw] at ha
    cases ha
  | case3 w hw =>
    rw [chainOf, if_neg hw] at ha
    cases ha
    rw [List.singleton_append, chainOf, if_neg hw, operator?_symbol]
    simp only [hb]
    rfl
  | case4 w v us hw =>
    rw [chainOf, if_pos hw] at ha
    cases ha
  | case5 w v us hw inner hv ih =>
    rw [chainOf, if_neg hw, hv] at ha
    obtain ⟨c, hc, rfl⟩ := Option.map_eq_some_iff.1 ha
    rw [List.cons_append, List.cons_append, chainOf, if_neg hw, hv]
    simp only [ih hc]
    rfl
  | case6 w v us hw hv ih =>
    rw [chainOf, if_neg hw, hv] at ha
    obtain ⟨c, hc, rfl⟩ := Option.map_eq_some_iff.1 ha
    have hrest := ih hc
    rw [List.cons_append] at hrest
    rw [List.cons_append, List.cons_append, chainOf, if_neg hw, hv]
    simp only [hrest]
    rfl

/-- No operand is longer than all words together. -/
theorem length_le_of_chainOf {ws : List (List Char)} {c : Chain (List Char)} (h : chainOf ws = some c) :
    ∀ operand ∈ c.items, operand.length ≤ (joinWords ws).length := by
  induction ws using chainOf.induct generalizing c with
  | case1 => cases h
  | case2 w hw =>
    rw [chainOf, if_pos hw] at h
    cases h
  | case3 w hw =>
    rw [chainOf, if_neg hw] at h
    cases h
    simp [Chain.items, joinWords]
  | case4 w v ws hw =>
    rw [chainOf, if_pos hw] at h
    cases h
  | case5 w v ws hw inner hv ih =>
    rw [chainOf, if_neg hw, hv] at h
    obtain ⟨d, hd, rfl⟩ := Option.map_eq_some_iff.1 h
    have hws : ws ≠ [] := by
      rintro rfl
      cases hd
    intro operand hoperand
    rw [joinWords_cons (List.cons_ne_nil v ws), joinWords_cons hws, List.length_append, List.length_cons,
      List.length_append, List.length_cons]
    obtain rfl | hoperand := List.mem_cons.1 hoperand
    · exact Nat.le_add_right _ _
    · have := ih hd operand hoperand
      omega
  | case6 w v ws hw hv ih =>
    rw [chainOf, if_neg hw, hv] at h
    obtain ⟨d, hd, rfl⟩ := Option.map_eq_some_iff.1 h
    intro operand hoperand
    rw [joinWords_cons (List.cons_ne_nil v ws), List.length_append, List.length_cons]
    obtain rfl | hoperand := List.mem_cons.1 hoperand
    · have := ih hd d.first List.mem_cons_self
      rw [List.length_append, List.length_cons]
      omega
    · have := ih hd operand (List.mem_cons_of_mem _ hoperand)
      omega

/-- The operands and operators of a text. -/
def split (cs : List Char) : Option (Chain (List Char)) := chainOf (words .outer cs)

theorem length_le_of_split {cs : List Char} {c : Chain (List Char)} (h : split cs = some c) :
    ∀ operand ∈ c.items, operand.length ≤ cs.length := by
  have hlength := length_le_of_chainOf h
  rwa [joinWords_words] at hlength

/-- A text without an operator is one operand. -/
theorem split_of_plain {cs : List Char} (h : ∀ w ∈ words .outer cs, operator? w = none) : split cs = some ⟨cs, []⟩ := by
  rw [split, chainOf_of_plain (words_ne_nil _ _) h, joinWords_words]

theorem words_symbol (op : BinOp) : words .outer op.symbol.toList = [op.symbol.toList] := by cases op <;> decide

theorem closed_symbol (op : BinOp) : Closed op.symbol.toList := by cases op <;> decide

/-- Two texts with an operator between them. -/
def infixed (op : BinOp) (a b : List Char) : List Char := a ++ ' ' :: (op.symbol.toList ++ ' ' :: b)

theorem Closed.infixed {a b : List Char} (ha : Closed a) (hb : Closed b) (op : BinOp) : Closed (infixed op a b) := by
  have hblank : Closed [' '] := rfl
  exact ha.append (hblank.append ((closed_symbol op).append (hblank.append hb)))

theorem split_infixed {a b : List Char} {c d : Chain (List Char)} (ha : Closed a) (hc : split a = some c)
    (hd : split b = some d) (op : BinOp) : split (infixed op a b) = some (c.append op d) := by
  rw [split, infixed, words_append ha, words_append (closed_symbol op), words_symbol, List.singleton_append]
  exact chainOf_append hc hd op

end NestLint
