import NestLint.Match.Check
import NestLint.Match.Choice

/-!
# Alternatives that are taken apart

When alternatives are put together, an alternative that is itself a choice and has no name is replaced by its own
alternatives. What the choice asked of an item besides is lost with it: the kind that it required. So the two ways of
trying them agree, unless one comes to such a choice with an item of another kind, and one of its alternatives, which
should not have been tried at all, does not fail.

This is what `OrPat` does to its alternatives when it is built.

* `Attempt.Like`, `Attempt.Tantamount`: attempts that cannot be told apart, at all or after starting over;
* `Deviates`: the place where the two ways part;
* `Deviates.like`, `like_of_not_deviates`: what they come to, if there is such a place and if there is none;
* `check_oneOf_like_iff`: when they agree;
* `check_oneOf_kind_lost`: a choice whose kind is lost.
-/

namespace NestLint

open Pattern (admitted guarded)

/-! ## Attempts that come to the same -/

namespace Attempt

/-- The outcomes and the captures are the same. Notes do not count. -/
def Like (a b : Attempt) : Prop := a.verdict = b.verdict ∧ a.captures = b.captures

/-- The outcomes are the same, and the captures, except for what a failure leaves behind. -/
def Tantamount (a b : Attempt) : Prop := a.verdict = b.verdict ∧ (a.verdict ≠ .failed → a.captures = b.captures)

variable {a a' b b' : Attempt} {c : Captures Site} {next next' : Captures Site → Attempt}

theorem Like.refl (a : Attempt) : a.Like a := ⟨rfl, rfl⟩

theorem Like.symm (h : a.Like b) : b.Like a := ⟨h.1.symm, h.2.symm⟩

theorem Like.trans (h : a.Like b) (h' : b.Like b') : a.Like b' := ⟨h.1.trans h'.1, h.2.trans h'.2⟩

theorem Like.tantamount (h : a.Like b) : a.Tantamount b := ⟨h.1, fun _ => h.2⟩

theorem orElse_of_failed (h : a.verdict = .failed) : (a.orElse c next).Like (next c) := by
  rw [Attempt.orElse, if_pos h]
  exact ⟨rfl, rfl⟩

theorem orElse_of_ne_failed (h : a.verdict ≠ .failed) : a.orElse c next = a := by
  rw [Attempt.orElse, if_neg h]

/-- Starting over forgets what a failure left behind. -/
theorem Tantamount.orElse (h : a.Tantamount b) (hnext : (next c).Like (next' c)) :
    (a.orElse c next).Like (b.orElse c next') := by
  by_cases hfailed : a.verdict = .failed
  · exact ((orElse_of_failed hfailed).trans hnext).trans (orElse_of_failed (h.1 ▸ hfailed)).symm
  · rw [orElse_of_ne_failed hfailed, orElse_of_ne_failed (h.1 ▸ hfailed)]
    exact ⟨h.1, h.2 hfailed⟩

theorem orElse_failure_tantamount (a : Attempt) (c : Captures Site) : a.Tantamount (a.orElse c failure) := by
  by_cases hfailed : a.verdict = .failed
  · have hlike : (a.orElse c failure).Like (failure c) := orElse_of_failed hfailed
    exact ⟨hfailed.trans hlike.1.symm, fun h => absurd hfailed h⟩
  · rw [orElse_of_ne_failed hfailed]
    exact (Like.refl a).tantamount

theorem Like.capturing (h : a.Like b) (name : Option String) (site : Site) :
    (a.capturing name site).Like (b.capturing name site) := by
  cases name with
  | none => exact h
  | some name =>
    obtain ⟨hverdict, hcaptures⟩ := h
    simp only [Attempt.capturing, Attempt.andThen, hverdict, hcaptures]
    split
    · exact ⟨rfl, rfl⟩
    · exact ⟨hverdict, hcaptures⟩

end Attempt

namespace Pattern

open Attempt

variable {p : Pattern} {ps behind : List Pattern} {site : Site} {item : Option Site} {c : Captures Site}

/-- Notes aside, an item that is admitted to a pattern is left to the rule of the pattern, and then gets its name. -/
theorem guarded_like (rule : Site → Captures Site → Attempt) (h : p.requiredKind.all (· == site.kind)) :
    (guarded p (some site) c rule).Like ((rule site c).capturing p.options.name site) := by
  simp only [guarded, if_pos h]
  split <;> exact ⟨rfl, rfl⟩

/-- Patterns with the same options that try alternatives alike, on an item that is admitted to them. -/
theorem like_of_checkAny {o : PatternOptions} {qs : List Pattern}
    (h : ∀ site, admitted (either o ps) item = some site → (checkAny ps site c).Like (checkAny qs site c)) :
    ((either o ps).check item c).Like ((either o qs).check item c) := by
  rw [check, check]
  cases item with
  | none => exact Like.refl _
  | some site =>
    by_cases hkind : (either o ps).requiredKind.all (· == site.kind)
    · have hadmitted : admitted (either o ps) (some site) = some site := by
        rw [admitted, Option.filter_some, if_pos hkind]
      have hnamed := (h site hadmitted).capturing o.name site
      exact ((guarded_like _ hkind).trans hnamed).trans (guarded_like (p := either o qs) _ hkind).symm
    · rw [guarded, guarded, if_neg hkind, if_neg (show ¬(either o qs).requiredKind.all (· == site.kind) from hkind)]
      exact Like.refl _

/-- Alternatives behind others are tried if these fail. -/
theorem checkAny_append_like (ps qs : List Pattern) (site : Site) (c : Captures Site) :
    (checkAny (ps ++ qs) site c).Like ((checkAny ps site c).orElse c fun c => checkAny qs site c) := by
  induction ps with
  | nil =>
    rw [List.nil_append, checkAny]
    exact (orElse_of_failed rfl).symm
  | cons p ps ih =>
    rw [List.cons_append, checkAny, checkAny]
    by_cases hfailed : (p.check (some site) c).verdict = .failed
    · have hrest : ((p.check (some site) c).orElse c fun c => checkAny ps site c).Like (checkAny ps site c) :=
        orElse_of_failed hfailed
      exact ((orElse_of_failed hfailed).trans ih).trans (hrest.symm.tantamount.orElse (Like.refl _))
    · rw [orElse_of_ne_failed hfailed, orElse_of_ne_failed hfailed, orElse_of_ne_failed hfailed]
      exact Like.refl _

/-! ## Choices inside of choices -/

/-- Whether the pattern is a choice without a name that a node of kind `k` must not come to. -/
def bars (k : Kind) : Pattern → Bool
  | .either o _ => o.name.isNone && !o.kind.all (· == k)
  | _ => false

/-- A choice that keeps a node out fails on it, and leaves nothing behind. -/
theorem check_of_bars (h : p.bars site.kind) : p.check (some site) c = failure c := by
  cases p with
  | either o ps =>
    simp only [bars, Bool.and_eq_true, Bool.not_eq_true'] at h
    rw [check, guarded]
    exact if_neg (by simpa [requiredKind, formKind, options] using h.2)
  | _ => cases h

/-- The alternatives of a choice that does not keep a node out come to the same as the choice. -/
theorem check_tantamount_of_not_bars (h : p.bars site.kind = false) :
    (p.check (some site) c).Tantamount (checkAny p.alternatives site c) := by
  have hsingle (q : Pattern) : (q.check (some site) c).Tantamount (checkAny [q] site c) := by
    rw [checkAny, show (fun c => checkAny [] site c) = failure from funext fun c => by rw [checkAny]]
    exact orElse_failure_tantamount _ c
  cases p with
  | either o ps =>
    rw [alternatives]
    split
    · rename_i hname
      simp only [bars, hname, Bool.true_and, Bool.not_eq_false'] at h
      have hlike := guarded_like (p := either o ps) (c := c) (fun site c => checkAny ps site c)
        (by simpa [requiredKind, formKind, options] using h)
      rw [show (either o ps).options.name = none from Option.isNone_iff_eq_none.1 hname] at hlike
      rw [check]
      exact hlike.tantamount
    · exact hsingle _
  | _ => exact hsingle _

/-- The first pattern whose alternatives do not all fail is a choice that keeps the node out, and these patterns stand
behind it. -/
structure Deviates (ps : List Pattern) (site : Site) (c : Captures Site) (p : Pattern) (behind : List Pattern) :
    Prop where
  split : ∃ front, ps = front ++ p :: behind ∧ ∀ q ∈ front, (checkAny q.alternatives site c).verdict = .failed
  bars : p.bars site.kind
  tried : (checkAny p.alternatives site c).verdict ≠ .failed

theorem verdict_of_alternatives (h : (checkAny p.alternatives site c).verdict = .failed) :
    (p.check (some site) c).verdict = .failed := by
  cases hbars : p.bars site.kind with
  | true =>
    rw [check_of_bars hbars]
    rfl
  | false => exact (check_tantamount_of_not_bars hbars).1.trans h

/-- Patterns in front that fail make no difference, taken apart or not. -/
theorem like_of_failed (h : (checkAny p.alternatives site c).verdict = .failed) (ps : List Pattern) :
    (checkAny ((p :: ps).flatMap alternatives) site c).Like (checkAny (ps.flatMap alternatives) site c) ∧
      (checkAny (p :: ps) site c).Like (checkAny ps site c) := by
  rw [List.flatMap_cons, checkAny]
  exact ⟨(checkAny_append_like _ _ site c).trans (orElse_of_failed h),
    orElse_of_failed (verdict_of_alternatives h)⟩

/-- Where the two ways part, one comes to the alternatives of the choice, the other to what stands behind it. -/
theorem Deviates.like (h : Deviates ps site c p behind) :
    (checkAny (ps.flatMap alternatives) site c).Like (checkAny p.alternatives site c) ∧
      (checkAny ps site c).Like (checkAny behind site c) := by
  obtain ⟨⟨front, rfl, hfront⟩, hbars, htried⟩ := h
  induction front with
  | nil =>
    have hapart := checkAny_append_like p.alternatives (behind.flatMap alternatives) site c
    rw [orElse_of_ne_failed htried] at hapart
    refine ⟨hapart, ?_⟩
    rw [List.nil_append, checkAny, check_of_bars hbars]
    exact orElse_of_failed rfl
  | cons q front ih =>
    obtain ⟨hapart, hwhole⟩ := like_of_failed (hfront q List.mem_cons_self) (front ++ p :: behind)
    obtain ⟨hapart', hwhole'⟩ := ih fun r hr => hfront r (List.mem_cons_of_mem _ hr)
    exact ⟨hapart.trans hapart', hwhole.trans hwhole'⟩

/-- If the two ways do not part, they come to the same. -/
theorem like_of_not_deviates (h : ∀ p behind, ¬Deviates ps site c p behind) :
    (checkAny (ps.flatMap alternatives) site c).Like (checkAny ps site c) := by
  induction ps with
  | nil => exact Like.refl _
  | cons p ps ih =>
    by_cases hfailed : (checkAny p.alternatives site c).verdict = .failed
    · have hrest : ∀ q behind, ¬Deviates ps site c q behind := by
        intro q behind hq
        obtain ⟨⟨front, rfl, hfront⟩, hbars, htried⟩ := hq
        refine h q behind ⟨⟨p :: front, rfl, fun r hr => ?_⟩, hbars, htried⟩
        rcases List.mem_cons.1 hr with rfl | hr
        · exact hfailed
        · exact hfront r hr
      obtain ⟨hapart, hwhole⟩ := like_of_failed hfailed ps
      exact (hapart.trans (ih hrest)).trans hwhole.symm
    · have hbars : p.bars site.kind = false := by
        rw [Bool.eq_false_iff]
        exact fun hbars => h p ps ⟨⟨[], rfl, nofun⟩, hbars, hfailed⟩
      have hsame := check_tantamount_of_not_bars (c := c) hbars
      have hapart := checkAny_append_like p.alternatives (ps.flatMap alternatives) site c
      rw [orElse_of_ne_failed hfailed] at hapart
      rw [List.flatMap_cons, checkAny, orElse_of_ne_failed (hsame.1 ▸ hfailed)]
      exact hapart.trans ⟨hsame.1.symm, (hsame.2 (hsame.1 ▸ hfailed)).symm⟩

/-! ## The two ways -/

/-- Alternatives that have been taken apart come to the same as the patterns themselves, on an item and from captures,
exactly if this is so where the two ways part: if the first pattern whose alternatives do not all fail is a choice
without a name that asks for another kind than that of the item, then these alternatives must come to the same as the
patterns behind the choice. In particular this is so if no choice without a name asks for a kind. -/
theorem check_oneOf_like_iff (o : PatternOptions) (ps : List Pattern) (item : Option Site) (c : Captures Site) :
    (((oneOf o ps).check item c).Like ((either o ps).check item c) ↔
        ∀ site, admitted (either o ps) item = some site → ∀ p behind, Deviates ps site c p behind →
          ((either o p.alternatives).check item c).Like ((either o behind).check item c)) ∧
      ((∀ k, ∀ p ∈ ps, p.bars k = false) → ((oneOf o ps).check item c).Like ((either o ps).check item c)) := by
  have hdeviates {site p behind} (hsite : admitted (either o ps) item = some site)
      (h : Deviates ps site c p behind) :
      ((oneOf o ps).check item c).Like ((either o p.alternatives).check item c) ∧
        ((either o ps).check item c).Like ((either o behind).check item c) := by
    refine ⟨like_of_checkAny fun s hs => ?_, like_of_checkAny fun s hs => ?_⟩
    · obtain rfl : site = s := Option.some.inj (hsite.symm.trans hs)
      exact h.like.1
    · obtain rfl : site = s := Option.some.inj (hsite.symm.trans hs)
      exact h.like.2
  have hlike (h : ∀ site, admitted (either o ps) item = some site → ∀ p behind, ¬Deviates ps site c p behind) :
      ((oneOf o ps).check item c).Like ((either o ps).check item c) :=
    like_of_checkAny fun site hsite => like_of_not_deviates (h site hsite)
  refine ⟨⟨fun h site hsite p behind hp => ?_, fun h => ?_⟩, fun h => hlike fun site _ p behind hp => ?_⟩
  · obtain ⟨hapart, hwhole⟩ := hdeviates hsite hp
    exact (hapart.symm.trans h).trans hwhole
  · by_cases hex : ∃ site p behind, admitted (either o ps) item = some site ∧ Deviates ps site c p behind
    · obtain ⟨site, p, behind, hsite, hp⟩ := hex
      obtain ⟨hapart, hwhole⟩ := hdeviates hsite hp
      exact (hapart.trans (h site hsite p behind hp)).trans hwhole.symm
    · exact hlike fun site hsite p behind hp => hex ⟨site, p, behind, hsite, hp⟩
  · obtain ⟨⟨front, hps, -⟩, hbars, -⟩ := hp
    rw [h _ p (by simp [hps])] at hbars
    cases hbars

/-- A choice that asks for an `if`, and captures what a literal or anything else behind it captures, too. -/
def ifOrLitOrAny : List Pattern :=
  [oneOf { kind := some .ifThen } [capture "x", kind {} .lit], kind {} .lit, capture "x"]

/-- A choice without a name and one that has a name and asks for a block. -/
def inNamedBlock : List Pattern :=
  [oneOf {} [capture "x", .absent {}], oneOf { name := some "y", kind := some .block } [capture "x", wildcard]]

theorem check_oneOf_like_iff_path :
    let site := Site.root (.path ⟨0, 1, .root⟩ ["a"])
    (∃ p behind, Deviates ifOrLitOrAny site [] p behind ∧
        ((either {} p.alternatives).check (some site) []).Like ((either {} behind).check (some site) [])) ∧
      ((oneOf {} inNamedBlock).check (some site) []).Like ((either {} inNamedBlock).check (some site) []) := by
  intro site
  have hdeviates : Deviates ifOrLitOrAny site [] (oneOf { kind := some .ifThen } [capture "x", kind {} .lit])
      [kind {} .lit, capture "x"] := ⟨⟨[], rfl, nofun⟩, by decide, by decide⟩
  have hlike : ((oneOf {} ifOrLitOrAny).check (some site) []).Like ((either {} ifOrLitOrAny).check (some site) []) :=
    ⟨rfl, rfl⟩
  refine ⟨⟨_, _, hdeviates, (check_oneOf_like_iff {} _ _ _).1.1 hlike site rfl _ _ hdeviates⟩, ?_⟩
  exact (check_oneOf_like_iff {} _ _ _).2 fun k p hp => by
    simp only [inNamedBlock, List.mem_cons, List.not_mem_nil, or_false] at hp
    rcases hp with rfl | rfl <;> rfl

/-- A choice of a path or a literal that asks for an `if` matches nothing, but taken apart it matches a path. -/
theorem check_oneOf_kind_lost :
    let ps := [oneOf { kind := some .ifThen } [kind {} .path, kind {} .lit], kind {} .block]
    let item := some (Site.root (.path ⟨0, 1, .root⟩ ["x"]))
    ((oneOf {} ps).check item []).verdict = .matched ∧ ((either {} ps).check item []).verdict = .failed ∧
      ¬((oneOf {} ps).check item []).Like ((either {} ps).check item []) := by
  intro ps item
  have hapart : ((oneOf {} ps).check item []).verdict = .matched := rfl
  have hwhole : ((either {} ps).check item []).verdict = .failed := rfl
  refine ⟨hapart, hwhole, fun h => ?_⟩
  rw [Attempt.Like, hapart, hwhole] at h
  cases h.1

end Pattern

end NestLint
