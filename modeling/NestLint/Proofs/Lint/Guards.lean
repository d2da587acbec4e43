import Mathlib.Tactic.Ring
import NestLint.Proofs.Lint.Counts

/-!
# Guards and their counts

Labels that are one are so for good: being the same is an equivalence. So whatever label a guard goes by,
its count is the number of matches that were thrown away under this label or one that is the same, over
any number of sessions that share their counts.

* `Label.same_trans`: being the same label is transitive;
* `Tally.find?_keep`: what is kept under a label is found under the labels that are the same, and what is
  kept under others stays;
* `Statistics.isZero_count_guards`: a guard has a count exactly if it threw a match away.
-/

namespace NestLint

/-! ## Numbers and labels that are the same -/

namespace Binary64

theorem quotient_snd_pos (negative : Bool) (significand : Nat) (exponent : Int) :
    0 < (quotient negative significand exponent).2 := by
  simp only [quotient, ratio]
  split
  · exact Nat.one_pos
  · exact Nat.pow_pos (by decide)

theorem same_comm (x y : Binary64) : x.same y = y.same x := by
  cases x <;> cases y <;> simp [same, eq_comm]

theorem same_trans {x y z : Binary64} (h : x.same y) (h' : y.same z) : x.same z := by
  cases x with
  | notANumber => cases h
  | infinite s =>
    cases y with
    | infinite t => simp_all [same]
    | _ => cases h
  | finite s m e =>
    cases y with
    | finite t k f =>
      cases z with
      | finite u l g =>
        have hpos := quotient_snd_pos t k f
        simp only [same, beq_iff_eq] at h h' ⊢
        generalize quotient s m e = x at *
        generalize quotient t k f = y at *
        generalize quotient u l g = z at *
        have hcross : x.1 * z.2 * y.2 = z.1 * x.2 * y.2 :=
          calc x.1 * z.2 * y.2 = x.1 * y.2 * z.2 := by ring
            _ = y.1 * z.2 * x.2 := by rw [h]; ring
            _ = z.1 * x.2 * y.2 := by rw [h']; ring
        exact Int.eq_of_mul_eq_mul_right (by omega) hcross
      | _ => cases h'
    | _ => cases h

end Binary64

namespace Label

/-- Labels are the same if they are equal or numbers that are the same. -/
theorem same_iff {a b : Label} :
    a.same b ↔ a = b ∨ ∃ x y, a.number? = some x ∧ b.number? = some y ∧ x.same y := by
  rw [same, Bool.or_eq_true, beq_iff_eq]
  refine or_congr_right ?_
  cases a.number? with
  | none => simp
  | some x =>
    cases b.number? with
    | none => simp
    | some y => simp

theorem same_refl (a : Label) : a.same a := same_iff.2 (.inl rfl)

theorem same_symm {a b : Label} (h : a.same b) : b.same a := by
  obtain rfl | ⟨x, y, hx, hy, hxy⟩ := same_iff.1 h
  · exact same_refl a
  · exact same_iff.2 (.inr ⟨y, x, hy, hx, Binary64.same_comm x y ▸ hxy⟩)

theorem same_trans {a b c : Label} (h : a.same b) (h' : b.same c) : a.same c := by
  obtain rfl | ⟨x, y, hx, hy, hxy⟩ := same_iff.1 h
  · exact h'
  · obtain rfl | ⟨y', z, hy', hz, hyz⟩ := same_iff.1 h'
    · exact h
    · obtain rfl : y = y' := Option.some.inj (hy.symm.trans hy')
      exact same_iff.2 (.inr ⟨x, z, hx, hz, Binary64.same_trans hxy hyz⟩)

/-- Labels that are the same are the same as the same labels. -/
theorem same_congr {a b : Label} (h : a.same b) (c : Label) : c.same a = c.same b := by
  rw [Bool.eq_iff_iff]
  exact ⟨fun h' => same_trans h' h, fun h' => same_trans h' (same_symm h)⟩

theorem same_text_iff {l : Label} {name : String} : l.same (.text name) ↔ l = .text name := by
  simp [same, number?]

theorem among_cons (k : Label) (known : List Label) (l : Label) :
    l.among (k :: known) = if k.same l then k else l.among known := by
  rw [among, List.find?_cons]
  split
  · rename_i h
    rw [if_pos h]
    rfl
  · rename_i h
    rw [if_neg (by simp [h])]
    rfl

theorem same_among (known : List Label) (l : Label) : (l.among known).same l := by
  induction known with
  | nil => exact same_refl l
  | cons k known ih =>
    rw [among_cons]
    split
    · assumption
    · exact ih

end Label

/-! ## Tallies under any label -/

namespace Tally

variable {α : Type}

/-- The entry under a label is the first one whose label is the same. -/
theorem find?_cons (k : Label) (v : α) (t : Table Label α) (l : Label) :
    find? ((k, v) :: t) l = if k.same l then some v else find? t l := by
  rw [find?, Dict.keys, List.map_cons, Label.among_cons]
  split
  · exact if_pos rfl
  · rename_i h
    have hother : k ≠ l.among (t.map Prod.fst) := by
      rintro rfl
      exact h (Label.same_among _ l)
    rw [Dict.get?, if_neg hother]
    rfl

theorem keep_nil (l : Label) (v : α) : keep [] l v = [(l, v)] := rfl

theorem keep_cons (k : Label) (w : α) (t : Table Label α) (l : Label) (v : α) :
    keep ((k, w) :: t) l v = if k.same l then (k, v) :: t else (k, w) :: keep t l v := by
  rw [keep, Dict.keys, List.map_cons, Label.among_cons]
  split
  · exact if_pos rfl
  · rename_i h
    have hother : k ≠ l.among (t.map Prod.fst) := by
      rintro rfl
      exact h (Label.same_among _ l)
    rw [Dict.insert, if_neg hother]
    rfl

/-- What is kept under a label is found under the labels that are the same, and nothing else is touched. -/
theorem find?_keep (t : Table Label α) (l l' : Label) (v : α) :
    find? (keep t l v) l' = if l.same l' then some v else find? t l' := by
  induction t with
  | nil => rw [keep_nil, find?_cons]
  | cons entry rest ih =>
    obtain ⟨k, w⟩ := entry
    rw [keep_cons]
    split
    · rename_i hk
      rw [find?_cons, find?_cons]
      by_cases h : l.same l'
      · rw [if_pos h, if_pos (Label.same_trans hk h)]
      · have hother : ¬k.same l' := fun hk' => h (Label.same_trans (Label.same_symm hk) hk')
        rw [if_neg h, if_neg hother, if_neg hother]
    · rename_i hk
      rw [find?_cons, find?_cons, ih]
      by_cases h : l.same l'
      · have hother : ¬k.same l' := fun hk' => hk (Label.same_trans hk' (Label.same_symm h))
        rw [if_neg hother, if_pos h, if_pos h]
      · rw [if_neg h, if_neg h]

/-- The tally counts these labels, under any label. -/
def Numbers (t : Tally) (labels : List Label) : Prop := ∀ l, t.count l = .int (labels.countP (·.same l) : Nat)

theorem numbers_nil : Numbers [] [] := fun _ => rfl

theorem Numbers.countUp {t : Tally} {labels : List Label} (h : t.Numbers labels) (l : Label) :
    ∃ t', t.countUp l = .ok t' ∧ t'.Numbers (labels ++ [l]) := by
  refine ⟨keep t l (.int (labels.countP (·.same l) + 1)), by rw [Tally.countUp, h l]; rfl, fun l' => ?_⟩
  rw [count, find?_keep, List.countP_append, List.countP_singleton]
  by_cases hl : l.same l'
  · rw [if_pos hl, if_pos hl]
    simp only [Label.same_congr hl]
    rfl
  · rw [if_neg hl, if_neg hl]
    exact h l'

end Tally

/-! ## Sessions that share their counts -/

namespace Statistics

open Occurrence (guard?)

/-- The counts of the guards of a lint after an occurrence: only a match of this lint that a guard throws away changes
them. -/
theorem guards_record (s : Statistics) (o : Occurrence) (name : String) :
    ((s.record o).toOption.getD s).guards (.text name) =
      (guard? (.text name) o).elim (s.guards (.text name)) fun guard =>
        ((s.guards (.text name)).countUp guard).toOption.getD (s.guards (.text name)) := by
  cases o with
  | rejected lint guard =>
    rw [record, guard?]
    by_cases hlint : lint = .text name
    · subst hlint
      rw [if_pos rfl, Option.elim_some]
      cases (s.guards (.text name)).countUp guard with
      | error fault => rfl
      | ok counts =>
        show (Tally.find? (Tally.keep s.rejected _ counts) _).getD [] = counts
        rw [Tally.find?_keep_text, if_pos rfl, Option.getD_some]
    · rw [if_neg hlint, Option.elim_none]
      cases (s.guards lint).countUp guard with
      | error fault => rfl
      | ok counts =>
        show (Tally.find? (Tally.keep s.rejected _ counts) _).getD [] = _
        rw [Tally.find?_keep_text, if_neg hlint, guards]
  | candidate lint =>
    rw [record]
    cases s.candidates.countUp lint <;> rfl
  | matched lint =>
    rw [record]
    cases s.matched.countUp lint <;> rfl
  | reported lint =>
    rw [record]
    cases s.reported.countUp lint <;> rfl
  | failed lint =>
    rw [record]
    cases s.failed.countUp lint <;> rfl

theorem numbers_recordAll {s : Statistics} {name : String} {labels : List Label}
    (h : (s.guards (.text name)).Numbers labels) (os : List Occurrence) :
    ((s.recordAll os).guards (.text name)).Numbers (labels ++ os.filterMap (guard? (.text name))) := by
  induction os generalizing s labels with
  | nil =>
    rw [List.filterMap_nil, List.append_nil]
    exact h
  | cons o rest ih =>
    have hstep := s.guards_record o name
    rw [recordAll, List.foldl_cons, ← recordAll, List.filterMap_cons]
    cases hguard : guard? (.text name) o with
    | none =>
      rw [hguard, Option.elim_none] at hstep
      exact ih (hstep ▸ h)
    | some guard =>
      obtain ⟨t, ht, hnumbers⟩ := h.countUp guard
      rw [hguard, Option.elim_some, ht] at hstep
      have hcounted : (((s.record o).toOption.getD s).guards (.text name)).Numbers (labels ++ [guard]) :=
        hstep ▸ hnumbers
      have := ih hcounted
      rwa [List.append_assoc] at this

theorem recordAll_append (s : Statistics) (os more : List Occurrence) :
    s.recordAll (os ++ more) = (s.recordAll os).recordAll more := List.foldl_append

end Statistics

/-- Among the occurrences is a match of a lint that a guard threw away. -/
def Occurrence.Rejected (lint guard : Label) (os : List Occurrence) : Prop :=
  ∃ other, .rejected lint other ∈ os ∧ other.same guard

namespace Occurrence

variable {lint guard : Label} {os more : List Occurrence}

theorem not_rejected_nil : ¬Rejected lint guard [] := fun ⟨_, hmem, _⟩ => nomatch hmem

theorem rejected_append : Rejected lint guard (os ++ more) ↔ Rejected lint guard os ∨ Rejected lint guard more := by
  simp only [Rejected, List.mem_append, or_and_right, exists_or]

/-- A guard with a name has thrown away what it has under this name. -/
theorem rejected_text {name : String} : Rejected lint (.text name) os ↔ .rejected lint (.text name) ∈ os := by
  constructor
  · rintro ⟨other, hmem, hsame⟩
    rwa [Label.same_text_iff.1 hsame] at hmem
  · intro hmem
    exact ⟨.text name, hmem, Label.same_refl _⟩

theorem mem_filterMap_guard? {other : Label} : other ∈ os.filterMap (guard? lint) ↔ .rejected lint other ∈ os := by
  rw [List.mem_filterMap]
  constructor
  · rintro ⟨o, hmem, ho⟩
    cases o with
    | rejected lint' guard' =>
      obtain ⟨rfl, hguard⟩ := Option.ite_none_right_eq_some.1 ho
      obtain rfl := Option.some.inj hguard
      exact hmem
    | _ => cases ho
  · intro hmem
    exact ⟨_, hmem, if_pos rfl⟩

end Occurrence

namespace Statistics

/-- Whatever sessions share their counts, a guard has a count exactly if it threw a match away in one of them. -/
theorem isZero_count_guards (os : List Occurrence) (name : String) (guard : Label) :
    (((({} : Statistics).recordAll os).guards (.text name)).count guard).isZero = false ↔
      Occurrence.Rejected (.text name) guard os := by
  have hempty : (({} : Statistics).guards (.text name)).Numbers [] := Tally.numbers_nil
  have hcount := numbers_recordAll hempty os guard
  have hzero : ∀ n : Nat, (Json.int n).isZero = (n == 0) := fun n => by simp [Json.isZero, Json.counted]
  rw [hcount, List.nil_append, hzero, beq_eq_false_iff_ne, ← Nat.pos_iff_ne_zero, List.countP_pos_iff]
  simp only [Occurrence.mem_filterMap_guard?, Occurrence.Rejected]

end Statistics

end NestLint
