import NestLint.Match.Matcher

/-!
# Where notes of the matcher are taken

Patterns note what they have to say on the channel of trees, and so does the matcher about schemes
that fail. Any other note in a run over a tree is one of a handler.

* `check_noted`: a check;
* `matchTree_noted`: a run of a matcher over a tree.
-/

namespace NestLint

/-! ## Notes of checks -/

namespace Attempt

/-- All notes satisfy `P`. -/
def Noted (P : Note → Prop) (a : Attempt) : Prop := ∀ n ∈ a.notes, P n

variable {P : Note → Prop}

theorem noted_of_nil {a : Attempt} (h : a.notes = []) : a.Noted P := by
  rw [Noted, h]
  nofun

theorem noted_append {a : List Note} {b : Attempt} (ha : ∀ n ∈ a, P n) (hb : b.Noted P) :
    Noted P { b with notes := a ++ b.notes } := by
  intro n hn
  obtain hn | hn := List.mem_append.1 hn
  · exact ha n hn
  · exact hb n hn

theorem Noted.andThen {a : Attempt} (ha : a.Noted P) {next : Captures Site → Attempt}
    (hnext : ∀ c, (next c).Noted P) : (a.andThen next).Noted P := by
  rw [Attempt.andThen]
  split
  · exact noted_append ha (hnext _)
  · exact ha

theorem Noted.orElse {a : Attempt} (ha : a.Noted P) (c : Captures Site) {next : Captures Site → Attempt}
    (hnext : ∀ c, (next c).Noted P) : (a.orElse c next).Noted P := by
  rw [Attempt.orElse]
  split
  · exact noted_append ha (hnext _)
  · exact ha

theorem Noted.capturing {a : Attempt} (ha : a.Noted P) (name : Option String) (site : Site) :
    (a.capturing name site).Noted P := by
  cases name with
  | none => exact ha
  | some name => exact ha.andThen fun c => noted_of_nil rfl

end Attempt

/-- A note on the channel of trees. -/
def Note.OnTrees (n : Note) : Prop := n.channel = Note.treeChannel

namespace Pattern

open Attempt
open Note (OnTrees)

theorem traceNotes_onTrees (o : PatternOptions) (item : Site) (matched : Bool) :
    ∀ n ∈ traceNotes o item matched, OnTrees n := by
  intro n hn
  rw [traceNotes] at hn
  split at hn
  · obtain rfl | hn := List.mem_cons.1 hn
    · rfl
    · split at hn
      · cases hn
      · simp only [List.cons_append, List.mem_cons, List.mem_append, List.mem_replicate, List.not_mem_nil,
          or_false] at hn
        obtain rfl | rfl | ⟨-, rfl⟩ | rfl := hn <;> rfl
  · cases hn

theorem guarded_noted (p : Pattern) (item : Option Site) (c : Captures Site) {rule : Site → Captures Site → Attempt}
    (h : ∀ site c, (rule site c).Noted OnTrees) : (guarded p item c rule).Noted OnTrees := by
  cases item with
  | none => exact noted_of_nil rfl
  | some site =>
    have hrule := (h site c).capturing p.options.name site
    rw [guarded]
    split
    · simp only
      split
      · exact hrule
      · intro n hn
        obtain hn | hn := List.mem_append.1 hn
        · exact hrule n hn
        · exact traceNotes_onTrees _ _ _ n hn
    · exact noted_of_nil rfl

mutual

/-- Whatever a check notes, it notes on the channel of trees. -/
theorem check_noted : ∀ (p : Pattern) (item : Option Site) (c : Captures Site), (p.check item c).Noted OnTrees
  | .any o _, none, c => by
    rw [check]
    exact noted_of_nil rfl
  | .any o _, some site, c => by
    rw [check]
    exact (noted_of_nil rfl : (success c).Noted OnTrees).capturing o.name site
  | .absent _, item, c => by
    rw [check]
    exact noted_of_nil rfl
  | .optional _ _, none, c => by
    rw [check]
    exact noted_of_nil rfl
  | .optional o p, some site, c => by
    rw [check]
    exact (check_noted p (some site) c).capturing o.name site
  | .either o ps, item, c => by
    rw [check]
    exact guarded_noted _ item c fun site c => checkAny_noted ps site c
  | .all o ps, item, c => by
    rw [check]
    exact guarded_noted _ item c fun site c => checkAll_noted ps site c
  | .kind o k, item, c => by
    rw [check]
    exact guarded_noted _ item c fun site c => noted_of_nil rfl
  | .ifThen o pc pb pe, item, c => by
    rw [check]
    refine guarded_noted _ item c fun site c => ?_
    cases site.ifParts? with
    | none => exact noted_of_nil rfl
    | some parts =>
      exact (check_noted pc parts.1 c).andThen fun c =>
        (check_noted pb parts.2.1 c).andThen fun c => check_noted pe parts.2.2 c
  | .ifLet o pp ps pb pe, item, c => by
    rw [check]
    refine guarded_noted _ item c fun site c => ?_
    cases site.ifLetParts? with
    | none => exact noted_of_nil rfl
    | some parts =>
      exact (check_noted pp parts.1 c).andThen fun c =>
        (check_noted ps parts.2.1 c).andThen fun c =>
          (check_noted pb parts.2.2.1 c).andThen fun c => check_noted pe parts.2.2.2 c
  | .block o ps, item, c => by
    rw [check]
    refine guarded_noted _ item c fun site c => ?_
    cases site.stmts? with
    | none => exact noted_of_nil rfl
    | some stmts =>
      simp only
      split
      · exact checkEach_noted ps stmts c
      · exact noted_of_nil rfl
  | .stmt o closed p, item, c => by
    rw [check]
    refine guarded_noted _ item c fun site c => ?_
    cases site.stmtParts? with
    | none => exact noted_of_nil rfl
    | some parts =>
      simp only
      split
      · exact check_noted p (some parts.2) c
      · exact noted_of_nil rfl
  | .bare _ _, _, _ => by
    rw [check]
    exact noted_of_nil rfl

theorem checkAny_noted : ∀ (ps : List Pattern) (site : Site) (c : Captures Site),
    (checkAny ps site c).Noted OnTrees
  | [], site, c => by
    rw [checkAny]
    exact noted_of_nil rfl
  | p :: ps, site, c => by
    rw [checkAny]
    exact (check_noted p (some site) c).orElse c fun c => checkAny_noted ps site c

theorem checkAll_noted : ∀ (ps : List Pattern) (site : Site) (c : Captures Site),
    (checkAll ps site c).Noted OnTrees
  | [], site, c => by
    rw [checkAll]
    exact noted_of_nil rfl
  | p :: ps, site, c => by
    rw [checkAll]
    exact (check_noted p (some site) c).andThen fun c => checkAll_noted ps site c

theorem checkEach_noted : ∀ (ps : List Pattern) (sites : List Site) (c : Captures Site),
    (checkEach ps sites c).Noted OnTrees
  | p :: ps, site :: sites, c => by
    rw [checkEach]
    exact (check_noted p (some site) c).andThen fun c => checkEach_noted ps sites c
  | [], _, c => by
    rw [checkEach]
    · exact noted_of_nil rfl
    · nofun
  | p :: ps, [], c => by
    rw [checkEach]
    · exact noted_of_nil rfl
    · nofun

end

end Pattern

/-! ## Notes of runs -/

/-- A step that is a note satisfies `P`. -/
def Step.Noted {ε : Type} (P : Note → Prop) : Step ε → Prop
  | .note n => P n
  | _ => True

variable {ε ρ : Type} {P : Note → Prop}

theorem noted_of_notes {notes : List Note} (h : ∀ n ∈ notes, P n) :
    ∀ step ∈ notes.map Step.note, Step.Noted P (ε := ε) step := by
  intro step hstep
  obtain ⟨n, hn, rfl⟩ := List.mem_map.1 hstep
  exact h n hn

/-- All notes of the handler of a scheme, and all that it notes when it examines an item, satisfy `P`. -/
structure Scheme.Noted (P : Note → Prop) (scheme : Scheme ε ρ) : Prop where
  handle : ∀ i item c, ∀ step ∈ (scheme.handle i item c).1, Step.Noted P step
  onAccept : ∀ item, ∀ step ∈ scheme.onAccept item, Step.Noted P step

namespace Scheme

variable {scheme : Scheme ε ρ}

theorem Noted.examineFrom (h : scheme.Noted P) (htrees : ∀ n : Note, n.OnTrees → P n) (wanted : Option (Wanted ρ))
    (item : Option Site) : ∀ (i : Nat) (ps : List Pattern),
      ∀ step ∈ (scheme.examineFrom wanted item i ps).1, step.Noted P
  | _, [] => nofun
  | i, p :: ps => by
    have hcheck : ∀ step ∈ (p.check item []).notes.map Step.note, Step.Noted P (ε := ε) step :=
      noted_of_notes fun n hn => htrees n (Pattern.check_noted p item [] n hn)
    have htold := h.handle i item (p.check item []).captures
    have hrest := h.examineFrom htrees wanted item (i + 1) ps
    -- every outcome is made of the notes of the check, of what the handler tells, and of the rest
    have hboth : ∀ step ∈ (p.check item []).notes.map Step.note ++ (scheme.handle i item (p.check item []).captures).1,
        step.Noted P := fun step hstep => (List.mem_append.1 hstep).elim (hcheck step) (htold step)
    have hall : ∀ step ∈ (p.check item []).notes.map Step.note ++
        (scheme.handle i item (p.check item []).captures).1 ++ (scheme.examineFrom wanted item (i + 1) ps).1,
        step.Noted P := fun step hstep => (List.mem_append.1 hstep).elim (hboth step) (hrest step)
    rw [Scheme.examineFrom]
    split
    · exact hcheck
    · exact fun step hstep => (List.mem_append.1 hstep).elim (hcheck step) (hrest step)
    · simp only
      split
      · exact hboth
      · exact hall
      · split
        · exact hboth
        · split
          · exact hboth
          · exact hall

theorem Noted.examine (h : scheme.Noted P) (htrees : ∀ n : Note, n.OnTrees → P n) (wanted : Option (Wanted ρ))
    (item : Option Site) : ∀ step ∈ (scheme.examine wanted item).1, step.Noted P := by
  rw [Scheme.examine]
  split
  · nofun
  · nofun
  · exact fun step hstep => (List.mem_append.1 hstep).elim (h.onAccept item step)
      (h.examineFrom htrees wanted item 0 scheme.patterns step)

end Scheme

namespace Matcher

theorem failureNotes_onTrees (fault : MatchFault) : ∀ n ∈ failureNotes fault, n.OnTrees := by
  intro n hn
  simp only [failureNotes, List.mem_cons, List.not_mem_nil, or_false] at hn
  obtain rfl | rfl := hn <;> rfl

theorem checkScheme_noted {scheme : Scheme ε ρ} (h : scheme.Noted P) (htrees : ∀ n : Note, n.OnTrees → P n)
    (m : Matcher ε ρ) (item : Option Site) : ∀ step ∈ (m.checkScheme scheme item).1, step.Noted P := by
  have hexamine := h.examine htrees m.wanted item
  rw [checkScheme]
  split
  · rename_i steps results heq
    rw [heq] at hexamine
    exact hexamine
  · rename_i steps fault heq
    rw [heq] at hexamine
    have hfailure : ∀ step ∈ (failureNotes fault).map Step.note, Step.Noted P (ε := ε) step :=
      noted_of_notes fun n hn => htrees n (failureNotes_onTrees fault n hn)
    intro step hstep
    obtain hstep | hstep := List.mem_append.1 hstep
    · exact (List.mem_append.1 hstep).elim (hexamine step) (hfailure step)
    · rw [List.mem_singleton.1 hstep]
      trivial

/-- Where the notes of all handlers satisfy `P`, and those of patterns do, so do all notes of a run. -/
theorem matchTree_noted {m : Matcher ε ρ} (h : ∀ entry ∈ m.schemes, entry.2.Noted P)
    (htrees : ∀ n : Note, n.OnTrees → P n) (root : Node) : ∀ step ∈ (m.matchTree root).1, step.Noted P := by
  intro step hstep
  rw [matchTree] at hstep
  simp only [List.mem_append, List.mem_map, List.mem_flatMap] at hstep
  obtain (⟨title, -, rfl⟩ | ⟨outcome, ⟨site, -, rfl⟩, hstep⟩) | ⟨title, -, rfl⟩ := hstep
  · trivial
  · simp only [checkSchemes, List.mem_flatMap, List.mem_map] at hstep
    obtain ⟨outcome, ⟨entry, hentry, rfl⟩, hstep⟩ := hstep
    exact checkScheme_noted (h entry hentry) htrees m (some site) step hstep
  · trivial

end Matcher

end NestLint
