import Mathlib.Algebra.BigOperators.Group.List.Basic
import Mathlib.Algebra.Ring.Int.Defs
import Mathlib.Data.List.Infix
import NestLint.Report.Operand

/-!
# Parentheses in a text

An operand is taken to be in parentheses already by counting the parentheses of its text. Here they
are counted once and for all: what is in one pair of parentheses is an opening one, a balanced text
and a closing one. Where such a text is cut in two, more parentheses are open than closed.

The counting is that of `_has_enclosing_paren`, on which `maybe_par` depends.

* `isEnclosed_iff`: which texts are in one pair of parentheses;
* `surplus_pos_of_isEnclosed`: the front part of such a text leaves parentheses open;
* `text_parenthesised`: what an operand becomes.
-/

namespace NestLint

namespace Text

/-- What a character adds to the number of open parentheses. -/
def rise (c : Char) : Int := if c = '(' then 1 else if c = ')' then -1 else 0

/-- How many more parentheses a text opens than it closes. -/
def surplus (cs : List Char) : Int := (cs.map rise).sum

/-- A text closes the parentheses that it opens, each after it was opened. -/
def Balanced (cs : List Char) : Prop := surplus cs = 0 ∧ ∀ front, front <+: cs → 0 ≤ surplus front

@[simp] theorem surplus_nil : surplus [] = 0 := rfl

@[simp] theorem surplus_cons (c : Char) (cs : List Char) : surplus (c :: cs) = rise c + surplus cs := by
  simp [surplus]

@[simp] theorem surplus_append (a b : List Char) : surplus (a ++ b) = surplus a + surplus b := by simp [surplus]

theorem surplus_eq_zero {cs : List Char} (h : ∀ c ∈ cs, c ≠ '(' ∧ c ≠ ')') : surplus cs = 0 := by
  induction cs with
  | nil => rfl
  | cons c rest ih =>
    obtain ⟨hopen, hclose⟩ := h c List.mem_cons_self
    have hrest := ih fun d hd => h d (List.mem_cons_of_mem c hd)
    rw [surplus_cons, hrest, rise, if_neg hopen, if_neg hclose]
    rfl

instance (cs : List Char) : Decidable (Balanced cs) :=
  decidable_of_iff (surplus cs = 0 ∧ ∀ front ∈ cs.inits, 0 ≤ surplus front)
    (and_congr_right fun _ => forall_congr' fun front => by rw [List.mem_inits])

/-- Behind `depth` open parentheses, no front part of the text closes more than are open. -/
def Stays (depth : Int) (cs : List Char) : Prop := ∀ front, front <+: cs → 0 ≤ depth + surplus front

theorem stays_nil {depth : Int} : Stays depth [] ↔ 0 ≤ depth := by
  simp [Stays, List.prefix_nil]

theorem stays_cons {depth : Int} {c : Char} {cs : List Char} :
    Stays depth (c :: cs) ↔ 0 ≤ depth ∧ Stays (depth + rise c) cs := by
  constructor
  · intro h
    refine ⟨by simpa using h [] List.nil_prefix, fun front hfront => ?_⟩
    have := h (c :: front) (List.cons_prefix_cons.2 ⟨rfl, hfront⟩)
    rwa [surplus_cons, ← Int.add_assoc] at this
  · rintro ⟨hdepth, h⟩ front hfront
    cases front with
    | nil => simpa using hdepth
    | cons d front =>
      obtain ⟨rfl, hrest⟩ := List.cons_prefix_cons.1 hfront
      rw [surplus_cons, ← Int.add_assoc]
      exact h front hrest

theorem balanced_iff {cs : List Char} : Balanced cs ↔ surplus cs = 0 ∧ Stays 0 cs := by
  simp [Balanced, Stays]

theorem surplus_eq_count (cs : List Char) : surplus cs = (cs.count '(' : Int) - cs.count ')' := by
  induction cs with
  | nil => rfl
  | cons c rest ih =>
    rw [surplus_cons, ih, rise, List.count_cons, List.count_cons]
    by_cases hopen : c = '('
    · subst hopen
      simp
      omega
    · by_cases hclose : c = ')'
      · subst hclose
        simp
        omega
      · simp [hopen, hclose]

/-- A text is balanced if it has as many opening parentheses as closing ones, and no front part has more closing
ones. -/
theorem balanced_iff_count {cs : List Char} :
    Balanced cs ↔ cs.count '(' = cs.count ')' ∧ ∀ front, front <+: cs → front.count ')' ≤ front.count '(' := by
  rw [Balanced]
  refine and_congr ?_ (forall₂_congr fun front _ => ?_)
  · rw [surplus_eq_count]
    omega
  · rw [surplus_eq_count]
    omega

/-- The parenthesis that opens at `i` is closed by the one at `j`: there, and not before, as many are closed as were
opened from `i` on. -/
structure Closes (cs : List Char) (i j : Nat) : Prop where
  opening : cs[i]? = some '('
  closing : cs[j]? = some ')'
  behind : i < j
  level : surplus ((cs.take (j + 1)).drop i) = 0
  first : ∀ k, i ≤ k → k < j → 0 < surplus ((cs.take (k + 1)).drop i)

/-- The parenthesis at the start is closed at the end exactly if what stands between is balanced. -/
theorem closes_end_iff {cs : List Char} :
    Closes cs 0 (cs.length - 1) ↔ ∃ m, cs = '(' :: m ++ [')'] ∧ Balanced m := by
  have hopen : rise '(' = 1 := rfl
  have hclose : rise ')' = -1 := rfl
  constructor
  · rintro ⟨hopening, hclosing, hbehind, hlevel, hfirst⟩
    obtain ⟨c, rest, rfl⟩ := List.exists_cons_of_length_pos (show 0 < cs.length by omega)
    obtain rfl : c = '(' := by simpa using hopening
    obtain rfl | ⟨m, d, rfl⟩ := List.eq_nil_or_concat' rest
    · simp at hbehind
    · have hlength : ('(' :: (m ++ [d])).length - 1 = m.length + 1 := by simp
      rw [hlength] at hclosing hlevel hfirst
      obtain rfl : d = ')' := by simpa using hclosing
      refine ⟨m, rfl, ?_, fun front hfront => ?_⟩
      · rw [List.drop_zero, List.take_of_length_le (by simp), surplus_cons, surplus_append, surplus_cons, surplus_nil,
          hopen, hclose] at hlevel
        omega
      · obtain ⟨n, hn, rfl⟩ : ∃ n ≤ m.length, front = m.take n :=
          ⟨front.length, hfront.length_le, List.prefix_iff_eq_take.1 hfront⟩
        have := hfirst n (Nat.zero_le n) (by omega)
        rw [List.drop_zero, List.take_succ_cons, List.take_append_of_le_length hn, surplus_cons, hopen] at this
        omega
  · rintro ⟨m, rfl, hsum, hfront⟩
    have hlength : ('(' :: m ++ [')']).length - 1 = m.length + 1 := by simp
    rw [hlength, List.cons_append]
    refine ⟨rfl, by simp, by omega, ?_, fun k _ hk => ?_⟩
    · rw [List.drop_zero, List.take_of_length_le (by simp), surplus_cons, surplus_append, surplus_cons, surplus_nil,
        hopen, hclose]
      omega
    · have := hfront (m.take k) (List.take_prefix k m)
      rw [List.drop_zero, List.take_succ_cons, List.take_append_of_le_length (by omega), surplus_cons, hopen]
      omega

end Text

namespace Operand

open Text

/-- Parentheses that are open are closed at the end, and not before it, exactly if the last character
closes the last one of them. -/
theorem closesAtEnd_iff {depth : Int} {cs : List Char} (h : 0 ≤ depth) :
    closesAtEnd (depth + 1) cs = true ↔ ∃ m, cs = m ++ [')'] ∧ depth + surplus m = 0 ∧ Stays depth m := by
  induction cs generalizing depth with
  | nil =>
    have hopen : ¬depth + 1 = 0 := by omega
    simp [closesAtEnd, hopen]
  | cons c rest ih =>
    have hsplit : (∃ m, c :: rest = m ++ [')'] ∧ depth + surplus m = 0 ∧ Stays depth m) ↔
        (c = ')' ∧ rest = [] ∧ depth = 0) ∨
          ∃ m, rest = m ++ [')'] ∧ depth + rise c + surplus m = 0 ∧ Stays (depth + rise c) m := by
      constructor
      · rintro ⟨m, hm, hsum, hstays⟩
        cases m with
        | nil =>
          rw [List.nil_append, List.cons.injEq] at hm
          exact .inl ⟨hm.1, hm.2, by simpa using hsum⟩
        | cons d m =>
          rw [List.cons_append, List.cons.injEq] at hm
          obtain ⟨rfl, rfl⟩ := hm
          refine .inr ⟨m, rfl, ?_, (stays_cons.1 hstays).2⟩
          rwa [surplus_cons, ← Int.add_assoc] at hsum
      · rintro (⟨rfl, rfl, rfl⟩ | ⟨m, rfl, hsum, hstays⟩)
        · exact ⟨[], rfl, rfl, stays_nil.2 (Int.le_refl 0)⟩
        · refine ⟨c :: m, rfl, ?_, stays_cons.2 ⟨h, hstays⟩⟩
          rwa [surplus_cons, ← Int.add_assoc]
    rw [hsplit, closesAtEnd]
    by_cases hopen : c = '('
    · subst hopen
      have hrise : rise '(' = 1 := rfl
      rw [if_pos rfl, ih (by omega), hrise]
      simp
    · rw [if_neg hopen]
      by_cases hclose : c = ')'
      · subst hclose
        have hrise : rise ')' = -1 := rfl
        rw [if_pos rfl, hrise, Int.add_sub_cancel, ← Int.sub_eq_add_neg]
        -- where nothing is open any more this must be the last character
        by_cases hdepth : depth = 0
        · subst hdepth
          have hnever : ∀ m, ¬Stays (-1) m := by
            intro m hstays
            have := hstays [] List.nil_prefix
            simp at this
          cases rest with
          | nil => simp [closesAtEnd]
          | cons d rest => simp [hnever]
        · have hless : 0 ≤ depth - 1 := by omega
          have hstep := ih hless
          rw [Int.sub_add_cancel] at hstep
          rw [if_neg (by simp [hdepth]), hstep]
          simp [hdepth]
      · have hrise : rise c = 0 := by rw [rise, if_neg hopen, if_neg hclose]
        rw [if_neg hclose, ih h, hrise, Int.add_zero]
        simp [hclose]

/-- A text is in one pair of parentheses exactly if it is a balanced text between two of them. -/
theorem isEnclosed_iff {cs : List Char} : isEnclosed cs = true ↔ ∃ m, cs = '(' :: m ++ [')'] ∧ Balanced m := by
  have hinner : ∀ rest, closesAtEnd 0 ('(' :: rest) = true ↔ ∃ m, rest = m ++ [')'] ∧ Balanced m := by
    intro rest
    have hstep : closesAtEnd 0 ('(' :: rest) = closesAtEnd (0 + 1) rest := by rw [closesAtEnd, if_pos rfl]
    rw [hstep, closesAtEnd_iff (Int.le_refl 0)]
    simp only [Int.zero_add, balanced_iff]
  constructor
  · intro h
    rw [isEnclosed, Bool.and_eq_true, Bool.and_eq_true, beq_iff_eq] at h
    obtain ⟨⟨hhead, -⟩, hcloses⟩ := h
    obtain ⟨rest, rfl⟩ := List.head?_eq_some_iff.1 hhead
    obtain ⟨m, rfl, hm⟩ := (hinner rest).1 hcloses
    exact ⟨m, rfl, hm⟩
  · rintro ⟨m, rfl, hm⟩
    rw [isEnclosed, List.getLast?_concat, List.cons_append, (hinner _).2 ⟨m, rfl, hm⟩]
    rfl

/-- A text is in one pair of parentheses exactly if it is a text between an opening and a closing one in which both are
equally many and no front part has more closing ones; that is, if the parenthesis at its start is closed at its end. -/
theorem isEnclosed_iff_closes (t : String) :
    (isEnclosed t.toList = true ↔ ∃ m : String, t = "(" ++ m ++ ")" ∧ m.toList.count '(' = m.toList.count ')' ∧
      ∀ front, front <+: m.toList → front.count ')' ≤ front.count '(') ∧
    (isEnclosed t.toList = true ↔ Closes t.toList 0 (t.length - 1)) := by
  constructor
  · rw [isEnclosed_iff]
    constructor
    · rintro ⟨m, hm, hbalanced⟩
      refine ⟨String.ofList m, ?_, ?_⟩
      · apply String.toList_injective
        simpa using hm
      · rw [String.toList_ofList]
        exact balanced_iff_count.1 hbalanced
    · rintro ⟨m, rfl, hcounts⟩
      exact ⟨m.toList, by simp, balanced_iff_count.2 hcounts⟩
  · rw [isEnclosed_iff, ← closes_end_iff, String.length_toList]

/-- Where a text in one pair of parentheses is cut, the front part has left parentheses open. -/
theorem surplus_pos_of_isEnclosed {a b : List Char} (h : isEnclosed (a ++ b) = true) (ha : a ≠ []) (hb : b ≠ []) :
    0 < surplus a := by
  obtain ⟨m, hm, -, hfront⟩ := isEnclosed_iff.1 h
  obtain ⟨c, a, rfl⟩ := List.exists_cons_of_ne_nil ha
  rw [List.cons_append, List.cons_append, List.cons.injEq] at hm
  obtain ⟨rfl, hm⟩ := hm
  have hlength : a.length ≤ m.length := by
    have := congrArg List.length hm
    have := List.length_pos_of_ne_nil hb
    simp only [List.length_append, List.length_singleton] at *
    omega
  have hpre : a <+: m := List.prefix_of_prefix_length_le ⟨b, hm⟩ (List.prefix_append m [')']) hlength
  have hopen : rise '(' = 1 := rfl
  have := hfront a hpre
  rw [surplus_cons, hopen]
  omega

theorem surplus_of_isEnclosed {cs : List Char} (h : isEnclosed cs = true) : surplus cs = 0 := by
  obtain ⟨m, rfl, hm, -⟩ := isEnclosed_iff.1 h
  rw [surplus_append, surplus_cons, hm]
  rfl

/-- An operand that is no atom is put in parentheses unless its text is in one pair already. -/
theorem text_parenthesised {o : Operand} (h : o.shape ≠ .atom) :
    o.parenthesised.text = if isEnclosed o.text.toList then o.text else "(" ++ o.text ++ ")" := by
  rw [parenthesised, if_neg h]
  split
  · rfl
  · rfl

end Operand

end NestLint
