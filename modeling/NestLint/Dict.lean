/-!
# Dictionaries in insertion order

A dictionary is a list of keys with values, in the order in which the keys were first given. Nearly
always the keys are names: captures, options and the members of a JSON object are all dictionaries,
because the order is part of what is printed.

* `get?_insert`, `get?_erase`: a value that was given is found again, one that was taken away is not, and
  no other key is touched;
* `keys_insert_of_mem`, `keys_insert_of_not_mem`: a key that is there keeps its place, a new key
  goes last;
* `nodup_keys_insert`: no operation gives a key twice;
* `ofList_of_nodup`: entries without a key twice are a dictionary as they stand.
-/

namespace NestLint

universe u

/-- Keys with values, in order of first insertion. -/
abbrev Table (κ : Type) (α : Type u) : Type u := List (κ × α)

/-- Names with values, in order of first insertion. -/
abbrev Dict (α : Type u) : Type u := Table String α

namespace Dict

variable {κ : Type} {α : Type u}

/-- The keys, in order. -/
def keys (d : Table κ α) : List κ := d.map Prod.fst

/-- The values, in order. -/
def values (d : Table κ α) : List α := d.map Prod.snd

variable [DecidableEq κ]

/-- The value under `key`. -/
def get? : Table κ α → κ → Option α
  | [], _ => none
  | (k, v) :: rest, key => if k = key then some v else get? rest key

/-- Whether `key` has a value. -/
def contains (d : Table κ α) (key : κ) : Bool := (get? d key).isSome

/-- The value under `key`, or `fallback`. -/
def getD (d : Table κ α) (key : κ) (fallback : α) : α := (get? d key).getD fallback

/-- Put `value` under `key`: in the place of the old value, or last. -/
def insert : Table κ α → κ → α → Table κ α
  | [], key, value => [(key, value)]
  | (k, v) :: rest, key, value => if k = key then (k, value) :: rest else (k, v) :: insert rest key value

/-- Without `key`. -/
def erase (d : Table κ α) (key : κ) : Table κ α := d.filter fun entry => entry.1 ≠ key

/-- Every pair of `more` put into `d`, one after the other. -/
def merge (d : Table κ α) (more : List (κ × α)) : Table κ α :=
  more.foldl (fun acc entry => insert acc entry.1 entry.2) d

/-- The last value of a key wins, at the place where the key came first. -/
def ofList (entries : List (κ × α)) : Table κ α := merge [] entries

theorem get?_insert (d : Table κ α) (key other : κ) (value : α) :
    get? (insert d key value) other = if key = other then some value else get? d other := by
  induction d with
  | nil => simp [insert, get?]
  | cons entry rest ih =>
    obtain ⟨k, v⟩ := entry
    by_cases h : k = key
    · by_cases h' : k = other <;> simp_all [insert, get?]
    · by_cases h' : k = other
      · have : key ≠ other := fun e => h (h'.trans e.symm)
        simp_all [insert, get?]
      · simp_all [insert, get?]

theorem get?_erase (d : Table κ α) (key other : κ) :
    get? (erase d key) other = if key = other then none else get? d other := by
  induction d with
  | nil => simp [erase, get?]
  | cons entry rest ih =>
    obtain ⟨k, v⟩ := entry
    rw [erase] at ih ⊢
    by_cases h : k = key
    · by_cases h' : k = other <;> simp_all [get?]
    · by_cases h' : k = other
      · have : key ≠ other := fun e => h (h'.trans e.symm)
        simp_all [get?]
      · simp_all [get?]

theorem keys_insert_of_mem {d : Table κ α} {key : κ} (h : key ∈ keys d) (value : α) :
    keys (insert d key value) = keys d := by
  induction d with
  | nil => simp [keys] at h
  | cons entry rest ih =>
    obtain ⟨k, v⟩ := entry
    by_cases hk : k = key
    · simp [insert, keys, hk]
    · have : key ∈ keys rest := by
        simp only [keys, List.map_cons, List.mem_cons] at h ⊢
        exact h.resolve_left fun e => hk e.symm
      simpa [insert, keys, hk] using ih this

theorem keys_insert_of_not_mem {d : Table κ α} {key : κ} (h : key ∉ keys d) (value : α) :
    keys (insert d key value) = keys d ++ [key] := by
  induction d with
  | nil => simp [insert, keys]
  | cons entry rest ih =>
    obtain ⟨k, v⟩ := entry
    simp only [keys, List.map_cons, List.mem_cons, not_or] at h
    have hk : k ≠ key := fun e => h.1 e.symm
    simpa [insert, keys, hk] using ih h.2

theorem nodup_keys_insert {d : Table κ α} (h : (keys d).Nodup) (key : κ) (value : α) :
    (keys (insert d key value)).Nodup := by
  by_cases hk : key ∈ keys d
  · rwa [keys_insert_of_mem hk]
  · rw [keys_insert_of_not_mem hk, List.nodup_append]
    exact ⟨h, by simp, fun a ha b hb e => hk (by simp_all)⟩

theorem insert_of_not_mem {d : Table κ α} {key : κ} (h : key ∉ keys d) (value : α) :
    insert d key value = d ++ [(key, value)] := by
  induction d with
  | nil => rfl
  | cons entry rest ih =>
    obtain ⟨k, v⟩ := entry
    simp only [keys, List.map_cons, List.mem_cons, not_or] at h
    rw [insert, if_neg fun e => h.1 e.symm, ih h.2, List.cons_append]

/-- Keys that are new and differ from each other go last, in order. -/
theorem merge_of_nodup {d : Table κ α} {more : List (κ × α)} (h : (keys (d ++ more)).Nodup) : merge d more = d ++ more := by
  induction more generalizing d with
  | nil => exact (List.append_nil d).symm
  | cons entry rest ih =>
    obtain ⟨key, value⟩ := entry
    have hnew : key ∉ keys d := by
      rw [keys, List.map_append, List.nodup_append] at h
      exact fun hmem => h.2.2 key hmem key List.mem_cons_self rfl
    have hstep : merge d ((key, value) :: rest) = merge (insert d key value) rest := rfl
    rw [hstep, insert_of_not_mem hnew, ih, List.append_assoc, List.singleton_append]
    rwa [List.append_assoc, List.singleton_append]

theorem ofList_of_nodup {entries : List (κ × α)} (h : (keys entries).Nodup) : ofList entries = entries :=
  merge_of_nodup h

end Dict

end NestLint
