import Mathlib.Data.List.Forall2
import NestLint.Text.Casing

/-!
# Texts that differ in case only

The lower-case form of a text looks at the characters one by one, but for a capital sigma, whose form depends on
whether its neighbours have case, and for a dotted capital I. Two texts with characters of the same form in the same
places, where none of them is one of the two, have the same lower-case form.

* `Alike`, `alike_ascii`: characters that differ in case only, such as the ASCII letters;
* `lower_eq_of_alike`: texts of such characters.
-/

namespace NestLint.Text

/-- The characters are the same, or have the same form and count for the same beside a sigma. -/
def Alike (c d : Char) : Prop :=
  c = d ∨ (c ≠ 'İ' ∧ c ≠ 'Σ') ∧ (d ≠ 'İ' ∧ d ≠ 'Σ') ∧
    lowerChar c = lowerChar d ∧ isCased c = isCased d ∧ isSkipped c = isSkipped d

/-- Only the ranges that start with an ASCII character can hold one. -/
theorem any_ranges_ascii (ranges : Array (Nat × Nat)) {n : Nat} (h : n < 0x80) :
    (ranges.any fun r => r.1 ≤ n && n ≤ r.2) =
      (ranges.toList.filter fun r => r.1 < 0x80).any fun r => r.1 ≤ n && n ≤ r.2 := by
  rw [List.any_filter, ← Array.any_toList]
  refine congrArg _ (funext fun r => ?_)
  by_cases hr : r.1 ≤ n
  · simp [Nat.lt_of_le_of_lt hr h]
  · simp [hr]

theorem any_ranges_toLower (small : List (Nat × Nat)) {ranges : Array (Nat × Nat)} {c : Char} (h : c.toNat < 0x80)
    (hsmall : (ranges.toList.filter fun r => r.1 < 0x80) = small)
    (hlower : ∀ n < 0x80, small.any (fun r => r.1 ≤ n && n ≤ r.2) =
      small.any fun r => r.1 ≤ (Char.ofNat n).toLower.toNat && (Char.ofNat n).toLower.toNat ≤ r.2) :
    (ranges.any fun r => r.1 ≤ c.toNat && c.toNat ≤ r.2) =
      ranges.any fun r => r.1 ≤ c.toLower.toNat && c.toLower.toNat ≤ r.2 := by
  have hascii : ∀ n < 0x80, (Char.ofNat n).toLower.toNat < 0x80 := by decide
  have htoLower : c.toLower.toNat < 0x80 := by simpa using hascii _ h
  rw [any_ranges_ascii ranges h, any_ranges_ascii ranges htoLower, hsmall]
  simpa using hlower _ h

theorem isCased_toLower {c : Char} (h : c.toNat < 0x80) : isCased c = isCased c.toLower :=
  any_ranges_toLower [(65, 90), (97, 122)] h (by decide +kernel) (by decide)

theorem isSkipped_toLower {c : Char} (h : c.toNat < 0x80) : isSkipped c = isSkipped c.toLower :=
  any_ranges_toLower [(39, 39), (46, 46), (58, 58), (94, 94), (96, 96)] h (by decide +kernel) (by decide)

theorem alike_ascii {c d : Char} (hc : c.toNat < 0x80) (hd : d.toNat < 0x80) (h : c.toLower = d.toLower) :
    Alike c d := by
  have hplain {x : Char} (hx : x.toNat < 0x80) : x ≠ 'İ' ∧ x ≠ 'Σ' := by
    constructor <;> rintro rfl <;> exact absurd hx (by decide)
  refine .inr ⟨hplain hc, hplain hd, ?_, ?_, ?_⟩
  · rw [lower_ascii hc, lower_ascii hd, h]
  · rw [isCased_toLower hc, isCased_toLower hd, h]
  · rw [isSkipped_toLower hc, isSkipped_toLower hd, h]

theorem Alike.isCased {c d : Char} (h : Alike c d) : isCased c = isCased d := by
  obtain rfl | ⟨-, -, -, hcased, -⟩ := h
  · rfl
  · exact hcased

theorem Alike.isSkipped {c d : Char} (h : Alike c d) : isSkipped c = isSkipped d := by
  obtain rfl | ⟨-, -, -, -, hskipped⟩ := h
  · rfl
  · exact hskipped

theorem meetsCased_of_alike {cs ds : List Char} (h : List.Forall₂ Alike cs ds) : meetsCased cs = meetsCased ds := by
  induction h with
  | nil => rfl
  | @cons c d cs ds hcd _ ih =>
    rw [meetsCased, meetsCased, List.dropWhile_cons, List.dropWhile_cons, hcd.isSkipped]
    cases isSkipped d with
    | true => exact ih
    | false => simp only [Bool.false_eq_true, ↓reduceIte, List.head?_cons, Option.any_some, hcd.isCased]

theorem lowerFrom_of_alike {before before' cs ds : List Char} (hbefore : List.Forall₂ Alike before before')
    (h : List.Forall₂ Alike cs ds) : lowerFrom before cs = lowerFrom before' ds := by
  induction h generalizing before before' with
  | nil => rfl
  | @cons c d cs ds hcd hrest ih =>
    rw [lowerFrom, lowerFrom, ih (.cons hcd hbefore), meetsCased_of_alike hbefore, meetsCased_of_alike hrest]
    obtain rfl | ⟨hc, hd, hform, -⟩ := hcd
    · rfl
    · simp only [if_neg hc.1, if_neg hc.2, if_neg hd.1, if_neg hd.2, hform]

theorem lower_eq_of_alike {a b : String} (h : List.Forall₂ Alike a.toList b.toList) : lower a = lower b := by
  rw [lower, lower, lowerFrom_of_alike .nil h]

end NestLint.Text
