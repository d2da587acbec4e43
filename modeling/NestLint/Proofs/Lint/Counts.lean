import Mathlib.Algebra.BigOperators.Group.List.Basic
import Mathlib.Algebra.Ring.Int.Defs
import NestLint.Lint.Statistics

/-!
# What is counted

A count goes up by one exactly when something occurs that it counts. Whatever labels occur, all counts
of a session that starts from nothing are whole numbers, and the counts under a name are the numbers of
occurrences with this name.

* `Tally.Counts.countUp`: one more under a label;
* `Statistics.Counts`: the counts are those of some occurrences;
* `Statistics.counts_recordAll`: what is recorded is counted, whatever occurs.
-/

namespace NestLint

namespace Label

/-- A name is found under itself alone. -/
theorem among_eq_text_iff {known : List Label} {l : Label} {name : String} :
    l.among known = .text name ↔ l = .text name := by
  constructor
  · intro h
    rw [among] at h
    cases hfind : known.find? fun k => k.same l with
    | none =>
      rw [hfind] at h
      exact h
    | some k =>
      have hsame := List.find?_some hfind
      rw [hfind] at h
      obtain rfl : k = .text name := h
      have heq : Label.text name = l := by simpa [same, number?] using hsame
      exact heq.symm
  · rintro rfl
    exact among_text known name

end Label

namespace Dict

variable {κ : Type} [DecidableEq κ] {α : Type}

theorem mem_values_insert {d : Table κ α} {key : κ} {value v : α} (h : v ∈ values (insert d key value)) :
    v = value ∨ v ∈ values d := by
  induction d with
  | nil => exact .inl (List.mem_singleton.1 h)
  | cons entry rest ih =>
    obtain ⟨k, w⟩ := entry
    rw [insert] at h
    split at h
    · exact (List.mem_cons.1 h).imp id (List.mem_cons_of_mem w)
    · obtain rfl | h := List.mem_cons.1 h
      · exact .inr List.mem_cons_self
      · exact (ih h).imp id (List.mem_cons_of_mem w)

theorem mem_values_of_get? {d : Table κ α} {key : κ} {v : α} (h : get? d key = some v) : v ∈ values d := by
  induction d with
  | nil => cases h
  | cons entry rest ih =>
    obtain ⟨k, w⟩ := entry
    rw [get?] at h
    split at h
    · cases h
      exact List.mem_cons_self
    · exact List.mem_cons_of_mem w (ih h)

end Dict

/-! ## Tallies -/

namespace Tally

variable {α : Type}

theorem find?_keep_text (t : Table Label α) (l : Label) (value : α) (name : String) :
    find? (keep t l value) (.text name) = if l = .text name then some value else find? t (.text name) := by
  rw [find?, find?, keep, Label.among_text, Label.among_text, Dict.get?_insert]
  simp only [Label.among_eq_text_iff]

theorem mem_values_keep {t : Table Label α} {l : Label} {value v : α} (h : v ∈ Dict.values (keep t l value)) :
    v = value ∨ v ∈ Dict.values t := Dict.mem_values_insert h

/-- All counts are whole numbers. -/
def Whole (t : Tally) : Prop := ∀ v ∈ Dict.values t, ∃ n : Int, v = .int n

/-- The whole number that a count is. -/
def number : Json → Int
  | .int n => n
  | _ => 0

/-- All counts together. -/
def sum (t : Tally) : Int := ((Dict.values t).map number).sum

variable {t : Tally}

theorem total_eq_sum (h : t.Whole) : Json.total (Dict.values t) = .ok (.int t.sum) := by
  have hvalues : Dict.values t = ((Dict.values t).map number).map .int := by
    rw [List.map_map]
    conv_lhs => rw [← List.map_id (Dict.values t)]
    refine List.map_congr_left fun v hv => ?_
    obtain ⟨n, rfl⟩ := h v hv
    rfl
  rw [hvalues, Json.total_ints, sum, List.sum_eq_foldl]

theorem exists_count (h : t.Whole) (l : Label) : ∃ n : Int, t.count l = .int n := by
  rw [count, find?]
  cases hget : Dict.get? t (l.among (Dict.keys t)) with
  | none => exact ⟨0, rfl⟩
  | some v => exact h v (Dict.mem_values_of_get? hget)

theorem sum_insert {key : Label} {n : Int} (h : (Dict.get? t key).getD (.int 0) = .int n) :
    sum (Dict.insert t key (.int (n + 1))) = t.sum + 1 := by
  induction t with
  | nil =>
    obtain rfl : (0 : Int) = n := Json.int.inj h
    rfl
  | cons entry rest ih =>
    obtain ⟨k, v⟩ := entry
    rw [Dict.get?] at h
    rw [Dict.insert]
    split at h
    · rename_i hk
      rw [if_pos hk]
      obtain rfl : v = .int n := h
      simp only [sum, Dict.values, List.map_cons, List.sum_cons, number]
      omega
    · rename_i hk
      have hrest := ih h
      rw [if_neg hk]
      simp only [sum, Dict.values, List.map_cons, List.sum_cons] at hrest ⊢
      omega

theorem countUp_whole (h : t.Whole) (l : Label) : ∃ t', t.countUp l = .ok t' ∧ t'.Whole := by
  obtain ⟨n, hn⟩ := exists_count h l
  refine ⟨keep t l (.int (n + 1)), by rw [countUp, hn]; rfl, fun v hv => ?_⟩
  obtain rfl | hv := mem_values_keep hv
  · exact ⟨n + 1, rfl⟩
  · exact h v hv

/-- The tally counts these labels. -/
structure Counts (t : Tally) (labels : List Label) : Prop where
  whole : t.Whole
  sum : t.sum = labels.length
  count : ∀ name, t.count (.text name) = .int (labels.count (.text name) : Nat)

theorem counts_nil : Counts [] [] := ⟨nofun, rfl, fun _ => rfl⟩

/-- Going up counts one more label, whatever the label is. -/
theorem Counts.countUp {labels : List Label} (h : t.Counts labels) (l : Label) :
    ∃ t', t.countUp l = .ok t' ∧ t'.Counts (labels ++ [l]) := by
  obtain ⟨n, hn⟩ := exists_count h.whole l
  obtain ⟨t', ht', hwhole⟩ := countUp_whole h.whole l
  obtain rfl : keep t l (.int (n + 1)) = t' := by
    rw [Tally.countUp, hn] at ht'
    exact Except.ok.inj ht'
  refine ⟨_, ht', hwhole, ?_, ?_⟩
  · rw [show Tally.sum (Tally.keep t l (.int (n + 1))) = t.sum + 1 from sum_insert hn, h.sum, List.length_append]
    rfl
  · intro name
    rw [Tally.count, find?_keep_text, List.count_append, List.count_singleton]
    by_cases hl : l = .text name
    · subst hl
      obtain rfl : n = (labels.count (.text name) : Nat) := Json.int.inj (hn.symm.trans (h.count name))
      rw [if_pos rfl, if_pos (beq_self_eq_true _)]
      rfl
    · rw [if_neg hl, if_neg (by simpa using hl)]
      exact h.count name

section

variable {β : Type} {f : β → Option Label} {bs : List β} {b : β}

theorem Counts.concat_none (h : t.Counts (bs.filterMap f)) (hb : f b = none) : t.Counts ((bs ++ [b]).filterMap f) := by
  rwa [List.filterMap_append, List.filterMap_cons, hb, List.filterMap_nil, List.append_nil]

theorem Counts.concat_some {l : Label} (h : t.Counts (bs.filterMap f ++ [l])) (hb : f b = some l) :
    t.Counts ((bs ++ [b]).filterMap f) := by
  rwa [List.filterMap_append, List.filterMap_cons, hb, List.filterMap_nil]

end

end Tally

/-! ## Statistics -/

namespace Occurrence

/-- The lint that was offered a node. -/
def candidate? : Occurrence → Option Label
  | .candidate lint => some lint
  | _ => none

/-- The lint that a node matched. -/
def matched? : Occurrence → Option Label
  | .matched lint => some lint
  | _ => none

/-- The guard that threw away a match of a lint. -/
def guard? (lint : Label) : Occurrence → Option Label
  | .rejected other guard => if other = lint then some guard else none
  | _ => none

/-- The lint of a finding that was reported. -/
def reported? : Occurrence → Option Label
  | .reported lint => some lint
  | _ => none

/-- The lint that failed. -/
def failed? : Occurrence → Option Label
  | .failed lint => some lint
  | _ => none

end Occurrence

namespace Statistics

open Occurrence

/-- The statistics count these occurrences. -/
structure Counts (s : Statistics) (os : List Occurrence) : Prop where
  candidates : s.candidates.Counts (os.filterMap candidate?)
  matched : s.matched.Counts (os.filterMap matched?)
  rejected : ∀ t ∈ Dict.values s.rejected, Tally.Whole t
  guards : ∀ name, (s.guards (.text name)).Counts (os.filterMap (guard? (.text name)))
  reported : s.reported.Counts (os.filterMap reported?)
  failed : s.failed.Counts (os.filterMap failed?)

theorem counts_empty : Counts {} [] where
  candidates := Tally.counts_nil
  matched := Tally.counts_nil
  rejected := nofun
  guards _ := Tally.counts_nil
  reported := Tally.counts_nil
  failed := Tally.counts_nil

variable {s : Statistics} {os : List Occurrence}

theorem Counts.guards_whole (h : s.Counts os) (lint : Label) : (s.guards lint).Whole := by
  rw [Statistics.guards, Tally.find?]
  cases hget : Dict.get? s.rejected (lint.among (Dict.keys s.rejected)) with
  | none => nofun
  | some t => exact h.rejected t (Dict.mem_values_of_get? hget)

/-- Every occurrence can be counted, and is counted once. -/
theorem Counts.record (h : s.Counts os) (o : Occurrence) : ∃ s', s.record o = .ok s' ∧ s'.Counts (os ++ [o]) := by
  cases o with
  | candidate lint =>
    obtain ⟨t, ht, hcounts⟩ := h.candidates.countUp lint
    refine ⟨{ s with candidates := t }, by rw [Statistics.record, ht]; rfl, ?_⟩
    exact ⟨hcounts.concat_some rfl, h.matched.concat_none rfl, h.rejected,
      fun name => (h.guards name).concat_none rfl, h.reported.concat_none rfl,
      h.failed.concat_none rfl⟩
  | matched lint =>
    obtain ⟨t, ht, hcounts⟩ := h.matched.countUp lint
    refine ⟨{ s with matched := t }, by rw [Statistics.record, ht]; rfl, ?_⟩
    exact ⟨h.candidates.concat_none rfl, hcounts.concat_some rfl, h.rejected,
      fun name => (h.guards name).concat_none rfl, h.reported.concat_none rfl,
      h.failed.concat_none rfl⟩
  | rejected lint guard =>
    -- the lint may be any label, but the counts of its guards are whole numbers all the same
    obtain ⟨t, ht, hwhole⟩ := Tally.countUp_whole (h.guards_whole lint) guard
    refine ⟨{ s with rejected := Tally.keep s.rejected lint t }, by rw [Statistics.record, ht]; rfl, ?_⟩
    refine ⟨h.candidates.concat_none rfl, h.matched.concat_none rfl, ?_, ?_, h.reported.concat_none rfl,
      h.failed.concat_none rfl⟩
    · intro t' ht'
      obtain rfl | ht' := Tally.mem_values_keep ht'
      · exact hwhole
      · exact h.rejected t' ht'
    · intro name
      have hguards : Statistics.guards { s with rejected := Tally.keep s.rejected lint t } (.text name) =
          if lint = .text name then t else s.guards (.text name) := by
        rw [Statistics.guards, Tally.find?_keep_text]
        split
        · rfl
        · rfl
      rw [hguards]
      by_cases hl : lint = .text name
      · subst hl
        obtain ⟨t', ht', hcounts⟩ := (h.guards name).countUp guard
        obtain rfl : t = t' := Except.ok.inj (ht.symm.trans ht')
        rw [if_pos rfl]
        exact hcounts.concat_some (if_pos rfl)
      · rw [if_neg hl]
        exact (h.guards name).concat_none (if_neg hl)
  | reported lint =>
    obtain ⟨t, ht, hcounts⟩ := h.reported.countUp lint
    refine ⟨{ s with reported := t }, by rw [Statistics.record, ht]; rfl, ?_⟩
    exact ⟨h.candidates.concat_none rfl, h.matched.concat_none rfl, h.rejected,
      fun name => (h.guards name).concat_none rfl, hcounts.concat_some rfl,
      h.failed.concat_none rfl⟩
  | failed lint =>
    obtain ⟨t, ht, hcounts⟩ := h.failed.countUp lint
    refine ⟨{ s with failed := t }, by rw [Statistics.record, ht]; rfl, ?_⟩
    exact ⟨h.candidates.concat_none rfl, h.matched.concat_none rfl, h.rejected,
      fun name => (h.guards name).concat_none rfl, h.reported.concat_none rfl,
      hcounts.concat_some rfl⟩

/-- What is recorded is counted. -/
theorem Counts.recordAll (h : s.Counts os) (more : List Occurrence) : (s.recordAll more).Counts (os ++ more) := by
  induction more generalizing s os with
  | nil =>
    rw [List.append_nil]
    exact h
  | cons o rest ih =>
    obtain ⟨s', hs', hcounts⟩ := h.record o
    have hstep : s.recordAll (o :: rest) = s'.recordAll rest := by
      rw [Statistics.recordAll, List.foldl_cons, hs']
      rfl
    rw [hstep, List.append_cons]
    exact ih hcounts

theorem counts_recordAll (os : List Occurrence) : (({} : Statistics).recordAll os).Counts os :=
  counts_empty.recordAll os

/-- The counts under names are the numbers of occurrences: every count goes up once for each. -/
theorem Counts.counts (h : s.Counts os) (name : String) :
    s.candidates.count (.text name) = .int (os.count (.candidate (.text name)) : Nat) ∧
      s.matchCount (.text name) = .int (os.count (.matched (.text name)) : Nat) ∧
      (∀ guard, (s.guards (.text name)).count (.text guard) =
        .int (os.count (.rejected (.text name) (.text guard)) : Nat)) ∧
      s.rejectionTotal (.text name) = .ok (.int ((os.filterMap (guard? (.text name))).length : Nat)) ∧
      s.reportCount (.text name) = .int (os.count (.reported (.text name)) : Nat) ∧
      s.failed.count (.text name) = .int (os.count (.failed (.text name)) : Nat) := by
  have hcount : ∀ (f : Occurrence → Option Label) (l : Label) (o : Occurrence),
      (∀ other, f other = some l ↔ other = o) → (os.filterMap f).count l = os.count o := by
    intro f l o hf
    rw [List.count, List.countP_filterMap, List.count]
    refine List.countP_congr fun other _ => ?_
    have hother := hf other
    cases hfo : f other with
    | none =>
      rw [hfo] at hother
      simpa using fun h => hother.2 h
    | some k =>
      rw [hfo, Option.some.injEq] at hother
      simpa using hother
  refine ⟨?_, ?_, fun guard => ?_, ?_, ?_, ?_⟩
  · rw [h.candidates.count, hcount _ _ (.candidate (.text name))]
    intro other
    cases other <;> simp [candidate?]
  · rw [matchCount, h.matched.count, hcount _ _ (.matched (.text name))]
    intro other
    cases other <;> simp [matched?]
  · rw [(h.guards name).count, hcount _ _ (.rejected (.text name) (.text guard))]
    intro other
    cases other <;> simp [guard?]
  · rw [rejectionTotal, Tally.total_eq_sum (h.guards name).whole, (h.guards name).sum]
  · rw [reportCount, h.reported.count, hcount _ _ (.reported (.text name))]
    intro other
    cases other <;> simp [reported?]
  · rw [h.failed.count, hcount _ _ (.failed (.text name))]
    intro other
    cases other <;> simp [failed?]

end Statistics

end NestLint
