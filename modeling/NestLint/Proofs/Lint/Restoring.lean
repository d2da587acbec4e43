import Mathlib.Data.List.Nodup
import NestLint.Json.Fold
import NestLint.Proofs.Json.RoundTrip
import NestLint.Proofs.Lint.Counts

/-!
# Statistics written down and read back

Statistics that come from counting under names hold nothing but names and whole numbers, no name twice in a tally.
That is kept by everything that can be done to them, and it is all that is needed to get them back from a text:
the same counts in the same order, which go on in the same way.

The text is that of `LintStatistics.to_json`, and `from_json` reads it back.

* `Deed`, `perform`, `performAll`: what is done to statistics;
* `Tally.Named`, `Named`: the labels are names;
* `Sound`, `sound_perform`, `sound_performAll`: what is kept;
* `ofJson_toJson`, `readable_toJson`: the document and its text;
* `parse_print_of_deeds`: after any deeds, in any layout.
-/

namespace NestLint

/-! ## Tallies under names -/

namespace Tally

/-- All labels are names, and no label occurs twice. -/
structure Named {α : Type} (t : Table Label α) : Prop where
  names : ∀ l ∈ Dict.keys t, ∃ name, l = .text name
  nodup : (Dict.keys t).Nodup

variable {α : Type} {t : Table Label α}

theorem named_nil : Named ([] : Table Label α) := ⟨nofun, List.nodup_nil⟩

theorem keep_text (t : Table Label α) (name : String) (value : α) :
    keep t (.text name) value = Dict.insert t (.text name) value := by
  rw [keep, Label.among_text]

theorem Named.keep (h : Named t) (name : String) (value : α) : Named (Tally.keep t (.text name) value) := by
  rw [keep_text]
  refine ⟨fun l hl => ?_, Dict.nodup_keys_insert h.nodup _ _⟩
  by_cases hmem : Label.text name ∈ Dict.keys t
  · rw [Dict.keys_insert_of_mem hmem] at hl
    exact h.names l hl
  · rw [Dict.keys_insert_of_not_mem hmem] at hl
    obtain hl | hl := List.mem_append.1 hl
    · exact h.names l hl
    · exact ⟨name, List.mem_singleton.1 hl⟩

/-- What stands under a name is found under it. -/
theorem Named.find?_of_mem (h : Named t) {l : Label} {value : α} (hmem : (l, value) ∈ t) :
    ∃ name, l = .text name ∧ find? t (.text name) = some value := by
  obtain ⟨name, rfl⟩ := h.names l (List.mem_map_of_mem hmem)
  refine ⟨name, rfl, ?_⟩
  have hnodup := h.nodup
  rw [find?, Label.among_text]
  clear h
  induction t with
  | nil => cases hmem
  | cons entry rest ih =>
    obtain ⟨k, v⟩ := entry
    rw [Dict.keys, List.map_cons, List.nodup_cons] at hnodup
    obtain heq | hmem := List.mem_cons.1 hmem
    · cases heq
      exact if_pos rfl
    · have hne : k ≠ .text name := fun hk => hnodup.1 (List.mem_map.2 ⟨_, hmem, hk.symm⟩)
      rw [Dict.get?, if_neg hne]
      exact ih hmem hnodup.2

/-- The entries with their labels written as names of members and read back. -/
theorem Named.map_memberName {β : Type} (h : Named t) (f : Label × α → β) :
    (t.map fun entry => (Label.text entry.1.memberName, f entry)) = t.map fun entry => (entry.1, f entry) := by
  refine List.map_congr_left fun entry hentry => ?_
  obtain ⟨name, hname⟩ := h.names entry.1 (List.mem_map_of_mem hentry)
  rw [hname]
  rfl

theorem Named.nodup_memberNames (h : Named t) : (t.map fun entry => entry.1.memberName).Nodup := by
  have hinj : ∀ a ∈ Dict.keys t, ∀ b ∈ Dict.keys t, a.memberName = b.memberName → a = b := by
    intro a ha b hb hab
    obtain ⟨name, rfl⟩ := h.names a ha
    obtain ⟨other, rfl⟩ := h.names b hb
    exact congrArg Label.text hab
  have hmap := List.Nodup.map_on hinj h.nodup
  rwa [Dict.keys, List.map_map] at hmap

/-- Entries under names that are put down one after the other stay as they are. -/
theorem Named.ofList_eq {t : Tally} (h : Named t) : Tally.ofList t = t := by
  have hmerge : ∀ (entries : List (Label × Json)) (acc : Tally), (∀ l ∈ Dict.keys entries, ∃ name, l = .text name) →
      entries.foldl (fun t entry => Tally.keep t entry.1 entry.2) acc = Dict.merge acc entries := by
    intro entries
    induction entries with
    | nil => exact fun _ _ => rfl
    | cons entry rest ih =>
      intro acc hnames
      obtain ⟨l, value⟩ := entry
      obtain ⟨name, rfl⟩ := hnames l List.mem_cons_self
      rw [List.foldl_cons, keep_text, ih _ fun k hk => hnames k (List.mem_cons_of_mem _ hk)]
      rfl
  rw [Tally.ofList, hmerge t [] h.names]
  exact Dict.ofList_of_nodup h.nodup

theorem Named.pairs_document {t : Tally} (h : Named t) : t.document.pairs = .ok t := by
  rw [Tally.document, Json.pairs_object, List.map_map]
  refine congrArg Except.ok ((h.map_memberName Prod.snd).trans ?_)
  exact List.map_id t

theorem countUp_named {t t' : Tally} (h : Named t) {name : String} (hup : t.countUp (.text name) = .ok t') :
    Named t' := by
  rw [countUp] at hup
  cases hplus : (t.count (.text name)).plus (.int 1) with
  | error fault =>
    rw [hplus] at hup
    cases hup
  | ok value =>
    rw [hplus] at hup
    cases hup
    exact h.keep name value

end Tally

/-! ## What is done to statistics -/

/-- Something is counted under a name, or all counts are given up. -/
inductive Deed where
  | candidate (lint : String)
  | matched (lint : String)
  | rejected (lint guard : String)
  | reported (lint : String)
  | failed (lint : String)
  | reset
  deriving DecidableEq, Repr

/-- What occurs; nothing does when all counts are given up. -/
def Deed.occurrence? : Deed → Option Occurrence
  | .candidate lint => some (.candidate (.text lint))
  | .matched lint => some (.matched (.text lint))
  | .rejected lint guard => some (.rejected (.text lint) (.text guard))
  | .reported lint => some (.reported (.text lint))
  | .failed lint => some (.failed (.text lint))
  | .reset => none

namespace Statistics

/-- The statistics after a deed. -/
def perform (s : Statistics) (d : Deed) : Except CountFault Statistics :=
  match d.occurrence? with
  | some o => s.record o
  | none => .ok {}

/-- The statistics after several deeds. -/
def performAll (s : Statistics) (ds : List Deed) : Except CountFault Statistics := ds.foldlM perform s

/-- All labels are names, and no label occurs twice in a tally. -/
structure Named (s : Statistics) : Prop where
  candidates : Tally.Named s.candidates
  matched : Tally.Named s.matched
  rejected : Tally.Named s.rejected
  guards : ∀ t ∈ Dict.values s.rejected, Tally.Named t
  reported : Tally.Named s.reported
  failed : Tally.Named s.failed

theorem named_empty : Named {} :=
  ⟨Tally.named_nil, Tally.named_nil, Tally.named_nil, nofun, Tally.named_nil, Tally.named_nil⟩

theorem Named.guards_named {s : Statistics} (h : s.Named) (lint : Label) : Tally.Named (s.guards lint) := by
  rw [Statistics.guards, Tally.find?]
  cases hget : Dict.get? s.rejected (lint.among (Dict.keys s.rejected)) with
  | none => exact Tally.named_nil
  | some t => exact h.guards t (Dict.mem_values_of_get? hget)

theorem Named.perform {s s' : Statistics} (h : s.Named) {d : Deed} (hd : s.perform d = .ok s') : s'.Named := by
  have hmap {counts : Except CountFault Tally} {f : Tally → Statistics} (hf : counts.map f = .ok s') :
      ∃ t, counts = .ok t ∧ f t = s' := by
    cases counts with
    | error fault => cases hf
    | ok t => exact ⟨t, rfl, Except.ok.inj hf⟩
  cases d with
  | candidate lint =>
    obtain ⟨t, ht, rfl⟩ := hmap hd
    exact { h with candidates := Tally.countUp_named h.candidates ht }
  | matched lint =>
    obtain ⟨t, ht, rfl⟩ := hmap hd
    exact { h with matched := Tally.countUp_named h.matched ht }
  | rejected lint guard =>
    obtain ⟨t, ht, rfl⟩ := hmap hd
    refine { h with rejected := h.rejected.keep lint t, guards := fun t' ht' => ?_ }
    obtain rfl | ht' := Tally.mem_values_keep ht'
    · exact Tally.countUp_named (h.guards_named _) ht
    · exact h.guards t' ht'
  | reported lint =>
    obtain ⟨t, ht, rfl⟩ := hmap hd
    exact { h with reported := Tally.countUp_named h.reported ht }
  | failed lint =>
    obtain ⟨t, ht, rfl⟩ := hmap hd
    exact { h with failed := Tally.countUp_named h.failed ht }
  | reset =>
    cases hd
    exact named_empty

/-- The statistics count no more than `bound` occurrences, and all of them under names. -/
structure Sound (s : Statistics) (bound : Nat) : Prop where
  named : s.Named
  counts : ∃ os, s.Counts os ∧ os.length ≤ bound

theorem sound_empty : Sound {} 0 := ⟨named_empty, [], counts_empty, Nat.le_refl 0⟩

/-- Every deed can be done, and counts one occurrence at most. -/
theorem sound_perform {s : Statistics} {bound : Nat} (h : s.Sound bound) (d : Deed) :
    ∃ s', s.perform d = .ok s' ∧ s'.Sound (bound + 1) := by
  obtain ⟨os, hcounts, hbound⟩ := h.counts
  cases hd : d.occurrence? with
  | none =>
    have hperform : s.perform d = .ok {} := by rw [perform, hd]
    exact ⟨{}, hperform, h.named.perform hperform, [], counts_empty, Nat.zero_le _⟩
  | some o =>
    obtain ⟨s', hrecord, hcounts'⟩ := hcounts.record o
    have hperform : s.perform d = .ok s' := by
      rw [perform, hd]
      exact hrecord
    refine ⟨s', hperform, h.named.perform hperform, os ++ [o], hcounts', ?_⟩
    rw [List.length_append, List.length_singleton]
    exact Nat.succ_le_succ hbound

theorem sound_performAll {s : Statistics} {bound : Nat} (h : s.Sound bound) (ds : List Deed) :
    ∃ s', s.performAll ds = .ok s' ∧ s'.Sound (bound + ds.length) := by
  induction ds generalizing s bound with
  | nil => exact ⟨s, rfl, h⟩
  | cons d rest ih =>
    obtain ⟨s₁, hfirst, h₁⟩ := sound_perform h d
    obtain ⟨s₂, hrest, h₂⟩ := ih h₁
    refine ⟨s₂, ?_, ?_⟩
    · rw [performAll, List.foldlM_cons, hfirst]
      exact hrest
    · rw [List.length_cons, ← Nat.add_assoc, Nat.add_right_comm]
      exact h₂

/-! ## Questions about statistics -/

theorem Counts.exists_summary {s : Statistics} {os : List Occurrence} (h : s.Counts os) :
    ∃ sums, s.summary = .ok sums := by
  have hfold : ∀ (ts : List Tally) (acc : Int), (∀ t ∈ ts, Tally.Whole t) →
      ∃ n : Int, ts.foldlM (fun sum counts => do Json.plus sum (← Json.total (Dict.values counts))) (Json.int acc) =
        .ok (.int n) := by
    intro ts
    induction ts with
    | nil => exact fun acc _ => ⟨acc, rfl⟩
    | cons t rest ih =>
      intro acc hts
      obtain ⟨n, hn⟩ := ih (acc + t.sum) fun t' ht' => hts t' (List.mem_cons_of_mem _ ht')
      refine ⟨n, ?_⟩
      rw [List.foldlM_cons, Tally.total_eq_sum (hts t List.mem_cons_self)]
      exact hn
  obtain ⟨n, hn⟩ := hfold _ 0 h.rejected
  refine ⟨[("lints", .int s.candidates.length), ("total_matches", .int s.matched.sum), ("total_rejections", .int n),
    ("total_diagnostics", .int s.reported.sum)], ?_⟩
  rw [summary, Tally.total_eq_sum h.matched.whole, Tally.total_eq_sum h.reported.whole]
  simp only [bind, Except.bind] at hn ⊢
  rw [hn]
  rfl

theorem Counts.exists_rejectionCount {s : Statistics} {os : List Occurrence} (h : s.Counts os) (lint guard : Label) :
    ∃ n : Int, s.rejectionCount lint guard = .ok (.int n) := by
  have hwhole := h.guards_whole lint
  obtain ⟨n, hn⟩ := Tally.exists_count hwhole guard
  cases guard with
  | nothing => exact ⟨_, Tally.total_eq_sum hwhole⟩
  | _ => exact ⟨n, congrArg Except.ok hn⟩

/-! ## The document -/

theorem countsIn_of_get? {document : Json} {key : String} {t : Tally} (h : document.get? key = some t.document)
    (ht : Tally.Named t) : countsIn document key = .ok t := by
  rw [countsIn, h]
  simp only [ht.pairs_document]
  exact congrArg Except.ok ht.ofList_eq

/-- The counts of guards, lint by lint. -/
theorem mapM_guards {table : Table Label Tally} (h : ∀ t ∈ Dict.values table, Tally.Named t) :
    (table.map fun entry => (entry.1.memberName, entry.2.document)).mapM
        (fun entry => do return (Label.text entry.1, Tally.ofList (← entry.2.pairs)) :
          String × Json → Fitting (Label × Tally)) =
      .ok (table.map fun entry => (Label.text entry.1.memberName, entry.2)) := by
  induction table with
  | nil => rfl
  | cons entry rest ih =>
    have hfirst := h entry.2 List.mem_cons_self
    have hrest := ih fun t ht => h t (List.mem_cons_of_mem _ ht)
    rw [List.map_cons, List.mapM_cons, hfirst.pairs_document, hrest]
    simp only [bind, Except.bind, hfirst.ofList_eq]
    rfl

theorem ofJson_toJson {s : Statistics} (h : s.Named) : ofJson s.toJson = .ok s := by
  have hcandidates : countsIn s.toJson "candidates" = .ok s.candidates := countsIn_of_get? rfl h.candidates
  have hmatched : countsIn s.toJson "matches" = .ok s.matched := countsIn_of_get? rfl h.matched
  have hreported : countsIn s.toJson "diagnostics" = .ok s.reported := countsIn_of_get? rfl h.reported
  have hfailed : countsIn s.toJson "failures" = .ok s.failed := countsIn_of_get? rfl h.failed
  have hguards := mapM_guards h.guards
  rw [(h.rejected.map_memberName Prod.snd).trans (List.map_id _)] at hguards
  have hmember : s.toJson.get? "guard_rejections" =
      some (.object (s.rejected.map fun entry => (entry.1.memberName, entry.2.document))) := rfl
  have hobject : s.toJson.members?.isNone = false := rfl
  rw [ofJson, hobject, hcandidates, hmatched, hmember, hreported, hfailed]
  simp only [bind, Except.bind]
  rw [show ∀ members, Misfit.lacking.orElse (Json.object members).members? = .ok members from fun _ => rfl]
  simp only [bind, Except.bind] at hguards
  simp only [hguards]
  rfl

theorem holdsTooLong_object {members : List (String × Json)} :
    (Json.object members).holdsTooLong = false ↔ ∀ member ∈ members, member.2.holdsTooLong = false := by
  rw [Json.holdsTooLong, Json.fold_object]
  show (members.map _).any Prod.snd = false ↔ _
  rw [List.any_map, List.any_eq_false]
  simp only [Bool.not_eq_true]
  rfl

theorem holdsTooLong_int (n : Int) : (Json.int n).holdsTooLong = Json.isTooLong n := by
  rw [Json.holdsTooLong, Json.fold]
  · exact fun _ h => (by cases h)
  · exact fun _ h => (by cases h)

theorem isTooLong_of_lt {n : Nat} (h : n < Nat.pow 10 Json.digitLimit) : Json.isTooLong n = false := by
  rw [Json.isTooLong, Int.natAbs_natCast]
  exact decide_eq_false (Nat.not_le.2 h)

/-- A tally can be read back from a text if its counts can be written. -/
theorem readable_tally {t : Tally} (hnamed : Tally.Named t) (hwhole : t.Whole) (h : t.document.holdsTooLong = false) :
    t.document.Readable := by
  refine .object ?_ fun member hmember => ?_
  · rw [Dict.keys, List.map_map]
    exact hnamed.nodup_memberNames
  · have hshort := holdsTooLong_object.1 h member hmember
    obtain ⟨entry, hentry, rfl⟩ := List.mem_map.1 hmember
    obtain ⟨n, hn⟩ := hwhole entry.2 (List.mem_map_of_mem hentry)
    rw [hn, holdsTooLong_int] at hshort
    rw [hn]
    exact .int hshort

theorem readable_toJson {s : Statistics} {os : List Occurrence} (hnamed : s.Named) (hcounts : s.Counts os)
    (h : s.toJson.holdsTooLong = false) : s.toJson.Readable := by
  have hshort := holdsTooLong_object.1 h
  have hrejected : (Json.object (s.rejected.map fun entry => (entry.1.memberName, entry.2.document))).Readable := by
    refine .object ?_ fun member hmember => ?_
    · rw [Dict.keys, List.map_map]
      exact hnamed.rejected.nodup_memberNames
    · have hguards := holdsTooLong_object.1 (hshort ("guard_rejections", _) (by simp)) member hmember
      obtain ⟨entry, hentry, rfl⟩ := List.mem_map.1 hmember
      have hvalue : entry.2 ∈ Dict.values s.rejected := List.mem_map_of_mem hentry
      exact readable_tally (hnamed.guards _ hvalue) (hcounts.rejected _ hvalue) hguards
  have hkeys : ["candidates", "matches", "guard_rejections", "diagnostics", "failures"].Nodup := by decide
  refine .object hkeys fun member hmember => ?_
  have hmember' := hmember
  simp only [List.mem_cons, List.not_mem_nil, or_false] at hmember'
  obtain rfl | rfl | rfl | rfl | rfl := hmember'
  · exact readable_tally hnamed.candidates hcounts.candidates.whole (hshort _ hmember)
  · exact readable_tally hnamed.matched hcounts.matched.whole (hshort _ hmember)
  · exact hrejected
  · exact readable_tally hnamed.reported hcounts.reported.whole (hshort _ hmember)
  · exact readable_tally hnamed.failed hcounts.failed.whole (hshort _ hmember)

/-- No count is larger than the number of labels that were counted. -/
theorem holdsTooLong_tally {t : Tally} {labels : List Label} (hnamed : Tally.Named t) (hcounts : t.Counts labels)
    (h : labels.length < Nat.pow 10 Json.digitLimit) : t.document.holdsTooLong = false := by
  rw [Tally.document, holdsTooLong_object]
  intro member hmember
  obtain ⟨⟨l, value⟩, hentry, rfl⟩ := List.mem_map.1 hmember
  obtain ⟨name, -, hfind⟩ := hnamed.find?_of_mem hentry
  have hvalue : value = .int (labels.count (.text name) : Nat) := by
    have hcount := hcounts.count name
    rwa [Tally.count, hfind, Option.getD_some] at hcount
  have hle : labels.count (.text name) ≤ labels.length := List.count_le_length
  rw [hvalue, holdsTooLong_int]
  exact isTooLong_of_lt (Nat.lt_of_le_of_lt hle h)

theorem holdsTooLong_toJson {s : Statistics} {os : List Occurrence} (hnamed : s.Named) (hcounts : s.Counts os)
    (h : os.length < Nat.pow 10 Json.digitLimit) : s.toJson.holdsTooLong = false := by
  have hlength {f : Occurrence → Option Label} : (os.filterMap f).length < Nat.pow 10 Json.digitLimit :=
    Nat.lt_of_le_of_lt (List.length_filterMap_le f os) h
  rw [toJson, holdsTooLong_object]
  intro member hmember
  simp only [List.mem_cons, List.not_mem_nil, or_false] at hmember
  obtain rfl | rfl | rfl | rfl | rfl := hmember
  · exact holdsTooLong_tally hnamed.candidates hcounts.candidates hlength
  · exact holdsTooLong_tally hnamed.matched hcounts.matched hlength
  · refine holdsTooLong_object.2 fun member hmember => ?_
    obtain ⟨⟨l, t⟩, hentry, rfl⟩ := List.mem_map.1 hmember
    obtain ⟨name, -, hfind⟩ := hnamed.rejected.find?_of_mem hentry
    have hguards := hcounts.guards name
    rw [Statistics.guards, hfind, Option.getD_some] at hguards
    exact holdsTooLong_tally (hnamed.guards t (List.mem_map_of_mem hentry)) hguards hlength
  · exact holdsTooLong_tally hnamed.reported hcounts.reported hlength
  · exact holdsTooLong_tally hnamed.failed hcounts.failed hlength

/-! ## Written down and read back -/

/-- Nothing that can be asked tells the two apart. -/
structure Alike (s s' : Statistics) : Prop where
  document : s'.toJson = s.toJson
  summary : ∃ sums, s.summary = .ok sums ∧ s'.summary = .ok sums
  rejections : ∀ lint guard, ∃ n, s.rejectionCount lint guard = .ok n ∧ s'.rejectionCount lint guard = .ok n

/-- Whatever is counted under names, and however often all counts are given up in between: the statistics are read
back from their text in any layout, with the same tallies in the same order, and whatever is counted from then on,
nothing tells those that were read back from those that were written. They can be written unless there is a count
with more digits than a text can have, and it takes as many deeds to get there. -/
theorem parse_print_of_deeds (deeds : List Deed) :
    ∃ s, ({} : Statistics).performAll deeds = .ok s ∧
      (deeds.length < Nat.pow 10 Json.digitLimit → s.toJson.holdsTooLong = false) ∧
      ∀ layout : Json.Layout, layout.Spaced → s.toJson.holdsTooLong = false →
        ∃ restored, parse (s.print layout) = .ok restored ∧ restored.toJson = s.toJson ∧
          ∀ more, ∃ s' restored', s.performAll more = .ok s' ∧ restored.performAll more = .ok restored' ∧
            Alike s' restored' := by
  obtain ⟨s, hs, hnamed, os, hcounts, hbound⟩ := sound_performAll sound_empty deeds
  rw [Nat.zero_add] at hbound
  refine ⟨s, hs, fun hlength => ?_, fun layout hlayout hshort => ⟨s, ?_, rfl, fun more => ?_⟩⟩
  · exact holdsTooLong_toJson hnamed hcounts (Nat.lt_of_le_of_lt hbound hlength)
  · rw [parse, print, Json.parse_print hlayout (readable_toJson hnamed hcounts hshort)]
    simp only [ofJson_toJson hnamed]
    rfl
  · obtain ⟨s', hs', -, os', hcounts', -⟩ := sound_performAll ⟨hnamed, os, hcounts, hbound⟩ more
    refine ⟨s', s', hs', hs', rfl, ?_, fun lint guard => ?_⟩
    · obtain ⟨sums, hsums⟩ := hcounts'.exists_summary
      exact ⟨sums, hsums, hsums⟩
    · obtain ⟨n, hn⟩ := hcounts'.exists_rejectionCount lint guard
      exact ⟨_, hn, hn⟩

/-- Names with quotes, a control character, a backslash and characters from beyond the first plane, written with a
negative number of blanks for each level. -/
theorem parse_print_of_deeds_names :
    let lint := "say \"no\"\n\\"
    let guard := "\u0001é𝄞"
    let deeds : List Deed :=
      [.failed "x", .reset, .candidate lint, .rejected lint guard, .rejected lint "", .matched guard]
    let layout : Json.Layout := .blanks (-1)
    deeds.length < Nat.pow 10 Json.digitLimit ∧ layout.Spaced ∧
      ∃ s restored, ({} : Statistics).performAll deeds = .ok s ∧ parse (s.print layout) = .ok restored ∧
        restored.toJson = s.toJson ∧
        ∃ s' restored', s.performAll [.rejected lint guard] = .ok s' ∧
          restored.performAll [.rejected lint guard] = .ok restored' ∧ Alike s' restored' := by
  intro lint guard deeds layout
  have hlength : deeds.length < Nat.pow 10 Json.digitLimit := by decide +kernel
  have hlayout : layout.Spaced := .blanks (-1)
  obtain ⟨s, hs, hshort, hrestored⟩ := parse_print_of_deeds deeds
  obtain ⟨restored, hparse, hsame, hmore⟩ := hrestored layout hlayout (hshort hlength)
  exact ⟨hlength, hlayout, s, restored, hs, hparse, hsame, hmore _⟩

end Statistics

end NestLint
