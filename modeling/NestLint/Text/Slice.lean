/-!
# Slices and items with positions counted from either end

A bound is a position in a list. A negative bound counts from the end, and a bound outside the list
stands for the nearer end, so every pair of bounds cuts out a part of the list, possibly the empty
one.

* `bound_le`: a bound is a position of the list;
* `take_append_drop_bound`: what lies before a bound and what lies after it make up the list;
* `itemAt?_eq_none_iff`: a single item, unlike a bound, must lie inside the list.
-/

namespace NestLint.Text

universe u

variable {α : Type u}

/-- The position that bound `i` stands for in a list of length `n`. -/
def bound (n : Nat) (i : Int) : Nat := if i < 0 then (n + i).toNat else min i.toNat n

/-- What lies before bound `i`. -/
def upTo (xs : List α) (i : Int) : List α := xs.take (bound xs.length i)

/-- What lies from bound `i` on. -/
def onwards (xs : List α) (i : Int) : List α := xs.drop (bound xs.length i)

/-- The item at position `i`, counted from the end if `i` is negative; none outside the list. -/
def itemAt? (xs : List α) (i : Int) : Option α :=
  if 0 ≤ i then xs[i.toNat]? else if 0 ≤ xs.length + i then xs[(xs.length + i).toNat]? else none

theorem bound_le (n : Nat) (i : Int) : bound n i ≤ n := by unfold bound; split <;> omega

theorem bound_of_nonneg {n : Nat} {i : Int} (h : 0 ≤ i) (hn : i ≤ n) : bound n i = i.toNat := by
  unfold bound; split <;> omega

theorem take_append_drop_bound (xs : List α) (i : Int) : upTo xs i ++ onwards xs i = xs :=
  List.take_append_drop ..

/-- An item is found exactly at the positions whose distance from the start or the end fits. -/
theorem itemAt?_eq_none_iff (xs : List α) (i : Int) :
    itemAt? xs i = none ↔ i < -(xs.length : Int) ∨ (xs.length : Int) ≤ i := by
  unfold itemAt?
  split
  · rw [List.getElem?_eq_none_iff]; omega
  · split
    · rw [List.getElem?_eq_none_iff]; omega
    · simp only [true_iff]; omega

end NestLint.Text
