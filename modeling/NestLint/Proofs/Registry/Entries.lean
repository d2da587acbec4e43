import Mathlib.Data.List.Induction
import NestLint.Dict

/-!
# Entries that are put in one after the other

A dictionary into which entries are put one after the other has, for each key, the last of its entries, at the place
where the key came first.

* `get?_merge`: the last entry for a key counts;
* `keys_ofList`: each key once, in the order in which the keys came;
* `map_some_values`: the values, by the keys.
-/

namespace NestLint.Dict

universe u

variable {κ : Type} {α : Type u}

theorem keys_cons (entry : κ × α) (rest : Table κ α) : keys (entry :: rest) = entry.1 :: keys rest := rfl

theorem keys_append (a b : Table κ α) : keys (a ++ b) = keys a ++ keys b := List.map_append

variable [DecidableEq κ]

theorem get?_eq_none_iff {d : Table κ α} {key : κ} : get? d key = none ↔ key ∉ keys d := by
  induction d with
  | nil => exact ⟨fun _ => List.not_mem_nil, fun _ => rfl⟩
  | cons entry rest ih =>
    obtain ⟨k, v⟩ := entry
    rw [get?, keys_cons, List.mem_cons, not_or, ← ih]
    by_cases hk : k = key
    · simp [hk]
    · simp [hk, Ne.symm hk]

theorem get?_append (a b : Table κ α) (key : κ) : get? (a ++ b) key = (get? a key).or (get? b key) := by
  induction a with
  | nil => rfl
  | cons entry rest ih =>
    obtain ⟨k, v⟩ := entry
    rw [List.cons_append, get?, get?, ih]
    split <;> rfl

/-- The last entry for a key counts. -/
theorem get?_merge (d : Table κ α) (more : List (κ × α)) (key : κ) :
    get? (merge d more) key = (get? more.reverse key).or (get? d key) := by
  induction more generalizing d with
  | nil => rfl
  | cons entry rest ih =>
    obtain ⟨k, v⟩ := entry
    rw [show merge d ((k, v) :: rest) = merge (insert d k v) rest from rfl, ih, get?_insert, List.reverse_cons,
      get?_append, Option.or_assoc]
    by_cases hk : k = key <;> simp [get?, hk]

theorem mem_keys_merge {d : Table κ α} {more : List (κ × α)} {key : κ} :
    key ∈ keys (merge d more) ↔ key ∈ keys more ∨ key ∈ keys d := by
  have hreverse : key ∈ keys more.reverse ↔ key ∈ keys more := by
    rw [keys, List.map_reverse, List.mem_reverse, keys]
  rw [← not_iff_not, not_or, ← get?_eq_none_iff, get?_merge, Option.or_eq_none_iff, get?_eq_none_iff,
    get?_eq_none_iff, hreverse]

/-- A key has the place where it came first. -/
theorem keys_ofList (entries : List (κ × α)) : keys (ofList entries) = (keys entries).eraseDups := by
  induction entries using List.reverseRecOn with
  | nil => rfl
  | append_singleton entries entry ih =>
    obtain ⟨k, v⟩ := entry
    have hmem : k ∈ keys (ofList entries) ↔ k ∈ keys entries := by rw [ih, List.mem_eraseDups]
    rw [show ofList (entries ++ [(k, v)]) = insert (ofList entries) k v from List.foldl_append, keys_append,
      List.eraseDups_append, ← ih, show keys [(k, v)] = [k] from rfl, List.cons_removeAll]
    by_cases hk : k ∈ keys (ofList entries)
    · simp [keys_insert_of_mem hk, hmem.1 hk, List.removeAll]
    · simp [keys_insert_of_not_mem hk, mt hmem.2 hk, List.removeAll, List.eraseDups_cons]

theorem nodup_keys_ofList (entries : List (κ × α)) : (keys (ofList entries)).Nodup := by
  have hmerge : ∀ {d : Table κ α}, (keys d).Nodup → (keys (merge d entries)).Nodup := by
    induction entries with
    | nil => exact fun h => h
    | cons entry rest ih => exact fun h => ih (nodup_keys_insert h entry.1 entry.2)
  exact hmerge List.nodup_nil

theorem map_some_values {d : Table κ α} (h : (keys d).Nodup) : (values d).map some = (keys d).map (get? d) := by
  induction d with
  | nil => rfl
  | cons entry rest ih =>
    obtain ⟨k, v⟩ := entry
    obtain ⟨hk, hrest⟩ := List.nodup_cons.1 h
    have hothers : (keys rest).map (get? ((k, v) :: rest)) = (keys rest).map (get? rest) := by
      refine List.map_congr_left fun key hkey => if_neg ?_
      rintro rfl
      exact hk hkey
    rw [keys_cons, List.map_cons, hothers, ← ih hrest, get?, if_pos rfl]
    rfl

end NestLint.Dict
