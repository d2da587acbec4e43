/-!
# Orders of ancestors

A thing with several parents has its ancestors in an order that agrees with the order of the
parents, and with the order that each parent gives to its own ancestors. The order is built from the
front: next comes the first candidate that stands nowhere else behind another one. There may be no
such order.

* `order?`: the order, if there is one;
* `total_advance_lt`: every step uses up a candidate, so the construction ends.
-/

namespace NestLint.Ancestry

variable {α : Type}

/-- How many places there are in all lists. -/
def total (lists : List (List α)) : Nat := lists.foldr (fun l n => l.length + n) 0

theorem total_cons (l : List α) (lists : List (List α)) : total (l :: lists) = l.length + total lists := rfl

variable [DecidableEq α]

/-- Whether something stands behind another in any of the lists. -/
def isBehind (x : α) (lists : List (List α)) : Bool := lists.any fun l => l.tail.contains x

/-- The first head that stands behind nothing. -/
def candidate? (lists : List (List α)) : Option α :=
  (lists.filterMap List.head?).find? fun x => !isBehind x lists

/-- The lists without `x` in front. -/
def advance (x : α) (lists : List (List α)) : List (List α) :=
  lists.map fun l => if l.head? = some x then l.tail else l

theorem total_advance_le (x : α) (lists : List (List α)) : total (advance x lists) ≤ total lists := by
  induction lists with
  | nil => simp [advance]
  | cons l rest ih =>
    simp only [advance, List.map_cons, total_cons] at ih ⊢
    split
    · simp only [List.length_tail]; omega
    · omega

theorem total_advance_lt {x : α} {lists : List (List α)} (h : x ∈ lists.filterMap List.head?) :
    total (advance x lists) < total lists := by
  induction lists with
  | nil => simp at h
  | cons l rest ih =>
    have hle := total_advance_le x rest
    simp only [advance, List.map_cons, total_cons] at ih hle ⊢
    cases l with
    | nil =>
      simp only [List.filterMap_cons, List.head?_nil] at h
      have := ih h
      simpa using this
    | cons a l =>
      by_cases ha : a = x
      · simp only [ha, List.head?_cons, ↓reduceIte, List.tail_cons, List.length_cons]
        omega
      · simp only [List.filterMap_cons, List.head?_cons, List.mem_cons] at h
        have := ih (h.resolve_left fun e => ha e.symm)
        simp only [List.head?_cons, Option.some.injEq, ha, ↓reduceIte]
        omega

theorem mem_of_candidate? {x : α} {lists : List (List α)} (h : candidate? lists = some x) :
    x ∈ lists.filterMap List.head? := List.mem_of_find?_eq_some h

/-- One list that agrees with all the lists. -/
def merge? (lists : List (List α)) : Option (List α) :=
  if (lists.filterMap List.head?).isEmpty then some []
  else
    match _ : candidate? lists with
    | none => none
    | some x => (merge? (advance x lists)).map (x :: ·)
termination_by total lists
decreasing_by exact total_advance_lt (mem_of_candidate? (by assumption))

/-- The ancestors of a thing with these parents, given the order of each parent, itself first. -/
def order? (parents : List α) (orders : List (List α)) : Option (List α) := merge? (orders ++ [parents])

end NestLint.Ancestry
