import Mathlib.Data.List.Forall2

/-!
# Outcomes

What can fail is done in steps, for each of several things or with the faults under other names. It succeeds if all of
it does, and a fault is that of one of the parts.

* `bind_eq_ok_iff`, `mapError_eq_ok_iff`, `mapM_eq_ok_iff`: when it succeeds;
* `exists_of_mapM_eq_error`, `exists_of_forall₂`: where a fault or one of several results comes from.
-/

namespace NestLint

theorem bind_eq_ok_iff {ε α β : Type} {x : Except ε α} {f : α → Except ε β} {b : β} :
    x >>= f = .ok b ↔ ∃ a, x = .ok a ∧ f a = .ok b := by
  cases x <;> simp [bind, Except.bind]

theorem mapError_eq_ok_iff {ε ε' α : Type} {x : Except ε α} {f : ε → ε'} {a : α} : x.mapError f = .ok a ↔ x = .ok a := by
  cases x <;> simp [Except.mapError]

theorem mapM_eq_ok_iff {ε α β : Type} {f : α → Except ε β} {as : List α} {bs : List β} :
    as.mapM f = .ok bs ↔ List.Forall₂ (fun a b => f a = .ok b) as bs := by
  induction as generalizing bs with
  | nil =>
    rw [List.mapM_nil, List.forall₂_nil_left_iff]
    exact ⟨fun h => (Except.ok.inj h).symm, fun h => h ▸ rfl⟩
  | cons a as ih =>
    rw [List.mapM_cons, List.forall₂_cons_left_iff, bind_eq_ok_iff]
    constructor
    · rintro ⟨b, hb, h⟩
      obtain ⟨rest, hrest, h⟩ := bind_eq_ok_iff.1 h
      exact ⟨b, rest, hb, ih.1 hrest, (Except.ok.inj h).symm⟩
    · rintro ⟨b, rest, hb, hrest, rfl⟩
      exact ⟨b, hb, bind_eq_ok_iff.2 ⟨rest, ih.2 hrest, rfl⟩⟩

theorem exists_of_mapM_eq_error {ε α β : Type} {f : α → Except ε β} {as : List α} {fault : ε}
    (h : as.mapM f = .error fault) : ∃ a ∈ as, f a = .error fault := by
  induction as with
  | nil => cases h
  | cons a as ih =>
    rw [List.mapM_cons] at h
    cases ha : f a with
    | error found =>
      rw [ha] at h
      cases h
      exact ⟨a, List.mem_cons_self, ha⟩
    | ok b =>
      cases has : as.mapM f with
      | error found =>
        rw [ha, has] at h
        cases h
        obtain ⟨a, hmem, hfault⟩ := ih has
        exact ⟨a, List.mem_cons_of_mem _ hmem, hfault⟩
      | ok bs =>
        rw [ha, has] at h
        cases h

theorem exists_of_forall₂ {α β : Type} {R : α → β → Prop} {as : List α} {bs : List β} (h : List.Forall₂ R as bs) :
    ∀ b ∈ bs, ∃ a ∈ as, R a b := by
  induction h with
  | nil => exact nofun
  | cons hab _ ih =>
    refine List.forall_mem_cons.2 ⟨⟨_, List.mem_cons_self, hab⟩, fun b hb => ?_⟩
    obtain ⟨a, hmem, hrel⟩ := ih b hb
    exact ⟨a, List.mem_cons_of_mem _ hmem, hrel⟩

end NestLint
