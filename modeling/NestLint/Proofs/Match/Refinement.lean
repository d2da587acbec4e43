import NestLint.Match.Check
import NestLint.Match.Choice

/-!
# Checks agree with meanings

A check works on captures that it changes as it goes and that stay half made when it fails. The
meaning of a pattern knows nothing of that: it fails, or it gives the captures after a success. The
two agree for every pattern all of whose parts can be checked, because whatever a failed check left
behind is dropped before anybody looks at it: a conjunction ends with the failure, and alternatives
start over from the captures that the first one started from.

The check is `check` of a pattern, with `snapshot` and `restore` of the `MatchContext` where
alternatives start over.

* `Attempt.Agrees`: an attempt and a meaning say the same;
* `Agrees.andThen`, `Agrees.orElse`, `Agrees.capturing`, `agrees_guarded`: the ways to put attempts
  together keep this, which is all that the induction over patterns needs;
* `check_agrees`: the induction;
* `check_iff_eval`: what a check and a match have to do with the meaning of the pattern.
-/

namespace NestLint

open Pattern (take admitted guarded)

/-! ## Attempts and meanings -/

namespace Attempt

/-- An attempt says what a meaning says. After a failure nothing is said about the captures. -/
def Agrees (a : Attempt) : Option (Captures Site) → Prop
  | some captures => a.verdict = .matched ∧ a.captures = captures
  | none => a.verdict = .failed

theorem agrees_success (c : Captures Site) : (success c).Agrees (some c) := ⟨rfl, rfl⟩

theorem agrees_failure (c : Captures Site) : (failure c).Agrees none := rfl

theorem agrees_ofBool (b : Bool) (c : Captures Site) :
    (⟨.ofBool b, c, []⟩ : Attempt).Agrees (if b then some c else none) := by
  cases b with
  | false => exact agrees_failure c
  | true => exact agrees_success c

/-- Only the verdict and the captures count. -/
theorem Agrees.of_eq {a b : Attempt} {m : Option (Captures Site)} (h : a.Agrees m) (hv : b.verdict = a.verdict)
    (hc : b.captures = a.captures) : b.Agrees m := by
  cases m with
  | none => exact hv.trans h
  | some c => exact ⟨hv.trans h.1, hc.trans h.2⟩

/-- An attempt that agrees with a meaning is no attempt at a pattern that cannot be checked. -/
theorem Agrees.lack? {a : Attempt} {m : Option (Captures Site)} (h : a.Agrees m) : a.verdict.lack? = none := by
  cases m with
  | none => rw [show a.verdict = .failed from h]; rfl
  | some c => rw [h.1]; rfl

theorem Agrees.andThen {a : Attempt} {m : Option (Captures Site)} (h : a.Agrees m)
    {next : Captures Site → Attempt} {f : Captures Site → Option (Captures Site)}
    (hnext : ∀ c, (next c).Agrees (f c)) : (a.andThen next).Agrees (m.bind f) := by
  cases m with
  | none =>
    have hv : a.verdict = .failed := h
    rw [Attempt.andThen, if_neg (by rw [hv]; decide)]
    exact hv
  | some c =>
    obtain ⟨hv, rfl⟩ := h
    rw [Attempt.andThen, if_pos hv]
    exact (hnext a.captures).of_eq rfl rfl

/-- The second alternative starts from the captures that the first one started from, so what the
first one left behind does not matter. -/
theorem Agrees.orElse {a : Attempt} {m m' : Option (Captures Site)} (h : a.Agrees m) {c : Captures Site}
    {next : Captures Site → Attempt} (hnext : (next c).Agrees m') : (a.orElse c next).Agrees (m.or m') := by
  cases m with
  | none =>
    have hv : a.verdict = .failed := h
    rw [Attempt.orElse, if_pos hv]
    exact hnext.of_eq rfl rfl
  | some c' =>
    rw [Attempt.orElse, if_neg (by rw [h.1]; decide)]
    exact h

theorem Agrees.capturing {a : Attempt} {m : Option (Captures Site)} (h : a.Agrees m) (name : Option String)
    (site : Site) : (a.capturing name site).Agrees (m.bind (take name site)) := by
  cases name with
  | none =>
    have hm : m.bind (take none site) = m := by cases m <;> rfl
    rw [hm]
    exact h
  | some name => exact h.andThen fun c => agrees_ofBool _ _

end Attempt

namespace Pattern

open Attempt

/-- The frame around the rule of a pattern: the item must be admitted, and gets its name last. -/
theorem agrees_guarded (p : Pattern) (item : Option Site) (c : Captures Site)
    {rule : Site → Captures Site → Attempt} {f : Site → Option (Captures Site)}
    (h : ∀ site, ((rule site c).capturing p.options.name site).Agrees (f site)) :
    (guarded p item c rule).Agrees ((admitted p item).bind f) := by
  cases item with
  | none => exact agrees_failure c
  | some site =>
    simp only [guarded, admitted, Option.filter_some]
    split
    · rw [(h site).lack?]
      exact (h site).of_eq rfl rfl
    · exact agrees_failure c

/-- A list of patterns means nothing on a list of another length. -/
theorem evalEach_of_length_ne : ∀ {ps : List Pattern} {sites : List Site}, sites.length ≠ ps.length →
    ∀ c, evalEach ps sites c = none
  | [], [], h, _ => absurd rfl h
  | [], _ :: _, _, _ => by simp [evalEach]
  | _ :: _, [], _, _ => by simp [evalEach]
  | p :: ps, site :: sites, h, c => by
    have hl : sites.length ≠ ps.length := fun e => h (congrArg (· + 1) e)
    rw [evalEach]
    cases p.eval (some site) c with
    | none => rfl
    | some c => exact evalEach_of_length_ne hl c

/-! ## The induction -/

mutual

/-- Whether all of a pattern can be checked. -/
def isCheckable : Pattern → Bool
  | .any .. | .absent _ | .kind .. => true
  | .optional _ p | .stmt _ _ p => isCheckable p
  | .either _ ps | .all _ ps | .block _ ps => areCheckable ps
  | .ifThen _ pc pb pe => isCheckable pc && isCheckable pb && isCheckable pe
  | .ifLet _ pp ps pb pe => isCheckable pp && isCheckable ps && isCheckable pb && isCheckable pe
  | .bare .. => false

/-- Whether all patterns of a list can be checked. -/
def areCheckable : List Pattern → Bool
  | [] => true
  | p :: ps => isCheckable p && areCheckable ps

end

mutual

theorem check_agrees : ∀ {p : Pattern}, p.isCheckable → ∀ (item : Option Site) (c : Captures Site),
    (p.check item c).Agrees (p.eval item c)
  | .any o acceptsNothing, _, none, c => by
    rw [check, eval]
    exact agrees_ofBool acceptsNothing c
  | .any o _, _, some site, c => by
    rw [check, eval]
    exact (agrees_success c).capturing o.name site
  | .absent _, _, item, c => by
    rw [check, eval]
    exact agrees_ofBool item.isNone c
  | .optional _ _, _, none, c => by
    rw [check, eval]
    exact agrees_success c
  | .optional o p, h, some site, c => by
    rw [check, eval]
    exact (check_agrees (p := p) h (some site) c).capturing o.name site
  | .either o ps, h, item, c => by
    rw [check, eval]
    exact agrees_guarded (.either o ps) item c fun site => (checkAny_agrees h site c).capturing o.name site
  | .all o ps, h, item, c => by
    rw [check, eval]
    exact agrees_guarded (.all o ps) item c fun site => (checkAll_agrees h site c).capturing o.name site
  | .kind o k, _, item, c => by
    rw [check, eval]
    exact agrees_guarded (.kind o k) item c fun site => (agrees_success c).capturing o.name site
  | .ifThen o pc pb pe, h, item, c => by
    simp only [isCheckable, Bool.and_eq_true] at h
    rw [check, eval]
    refine agrees_guarded (.ifThen o pc pb pe) item c fun site => ?_
    cases site.ifParts? with
    | none => exact (agrees_failure c).capturing o.name site
    | some parts =>
      obtain ⟨cond, body, els⟩ := parts
      have hall := ((check_agrees h.1.1 cond c).andThen fun c =>
        (check_agrees h.1.2 body c).andThen fun c => check_agrees h.2 els c).capturing o.name site
      simp only [Option.bind_assoc] at hall
      simp only [Option.bind_some, Option.bind_assoc]
      exact hall
  | .ifLet o pp ps pb pe, h, item, c => by
    simp only [isCheckable, Bool.and_eq_true] at h
    rw [check, eval]
    refine agrees_guarded (.ifLet o pp ps pb pe) item c fun site => ?_
    cases site.ifLetParts? with
    | none => exact (agrees_failure c).capturing o.name site
    | some parts =>
      obtain ⟨pat, scrutinee, body, els⟩ := parts
      have hall := ((check_agrees h.1.1.1 pat c).andThen fun c =>
        (check_agrees h.1.1.2 scrutinee c).andThen fun c =>
          (check_agrees h.1.2 body c).andThen fun c => check_agrees h.2 els c).capturing o.name site
      simp only [Option.bind_assoc] at hall
      simp only [Option.bind_some, Option.bind_assoc]
      exact hall
  | .block o ps, h, item, c => by
    rw [check, eval]
    refine agrees_guarded (.block o ps) item c fun site => ?_
    cases site.stmts? with
    | none => exact (agrees_failure c).capturing o.name site
    | some stmts =>
      simp only [Option.bind_some]
      split
      · rename_i hl
        exact (checkEach_agrees h hl c).capturing o.name site
      · rename_i hl
        rw [evalEach_of_length_ne hl]
        exact (agrees_failure c).capturing o.name site
  | .stmt o closed p, h, item, c => by
    rw [check, eval]
    refine agrees_guarded (.stmt o closed p) item c fun site => ?_
    cases site.stmtParts? with
    | none => exact (agrees_failure c).capturing o.name site
    | some parts =>
      obtain ⟨form, node⟩ := parts
      simp only [Option.bind_some]
      split
      · exact (check_agrees (p := p) h (some node) c).capturing o.name site
      · exact (agrees_failure c).capturing o.name site

theorem checkAny_agrees : ∀ {ps : List Pattern}, areCheckable ps → ∀ (site : Site) (c : Captures Site),
    (checkAny ps site c).Agrees (evalFirst ps site c)
  | [], _, site, c => by
    rw [checkAny, evalFirst]
    exact agrees_failure c
  | p :: ps, h, site, c => by
    simp only [areCheckable, Bool.and_eq_true] at h
    rw [checkAny, evalFirst]
    exact (check_agrees h.1 (some site) c).orElse (checkAny_agrees h.2 site c)

theorem checkAll_agrees : ∀ {ps : List Pattern}, areCheckable ps → ∀ (site : Site) (c : Captures Site),
    (checkAll ps site c).Agrees (evalAll ps site c)
  | [], _, site, c => by
    rw [checkAll, evalAll]
    exact agrees_success c
  | p :: ps, h, site, c => by
    simp only [areCheckable, Bool.and_eq_true] at h
    rw [checkAll, evalAll]
    exact (check_agrees h.1 (some site) c).andThen fun c => checkAll_agrees h.2 site c

theorem checkEach_agrees : ∀ {ps : List Pattern}, areCheckable ps → ∀ {sites : List Site},
    sites.length = ps.length → ∀ c, (checkEach ps sites c).Agrees (evalEach ps sites c)
  | [], _, [], _, c => by
    rw [checkEach, evalEach]
    · exact agrees_success c
    · nofun
  | p :: ps, h, site :: sites, hl, c => by
    simp only [areCheckable, Bool.and_eq_true] at h
    rw [checkEach, evalEach]
    exact (check_agrees h.1 (some site) c).andThen fun c => checkEach_agrees h.2 (Nat.succ.inj hl) c

end

/-! ## Checks and matches -/

/-- A check that starts from any captures succeeds with the captures that the pattern means, and
fails if it means none; a match is what the pattern means where nothing is captured yet. -/
theorem check_iff_eval {p : Pattern} (h : p.isCheckable) (item : Option Site) (c : Captures Site) :
    (∀ c', (p.check item c).verdict = .matched ∧ (p.check item c).captures = c' ↔ p.eval item c = some c') ∧
      ((p.check item c).verdict = .failed ↔ p.eval item c = none) ∧ p.match? item = p.eval item [] := by
  have ha := check_agrees h item c
  refine ⟨fun c' => ?_, ?_, ?_⟩
  · cases he : p.eval item c with
    | none =>
      rw [he] at ha
      rw [show (p.check item c).verdict = .failed from ha]
      simp
    | some c'' =>
      rw [he] at ha
      simp [ha.1, ha.2]
  · cases he : p.eval item c with
    | none =>
      rw [he] at ha
      rw [show (p.check item c).verdict = .failed from ha]
      simp
    | some c'' =>
      rw [he] at ha
      simp [ha.1]
  · have hn := check_agrees h item []
    rw [match?]
    cases he : p.eval item [] with
    | none =>
      rw [he] at hn
      exact if_neg (by rw [show (p.check item []).verdict = .failed from hn]; decide)
    | some c'' =>
      rw [he] at hn
      simp [hn.1, hn.2]

/-- An `if` whose body is empty. -/
def emptyIf : Node := .ifThen ⟨0, 7, .root⟩ (some (.path ⟨3, 4, .root⟩ ["a"])) (some (.block ⟨5, 7, .root⟩ [])) none

/-- A name that the condition and the body would have to share, which two nodes never do. -/
def sharedName : Pattern := .ifThen {} (.capture "x") (.capture "x") .wildcard

/-- The shared name is tried first, then the same name for the body alone. -/
def sharedOrBody : Pattern := .either {} [sharedName, .ifThen {} .wildcard (.capture "x") .wildcard]

theorem sharedOrBody_check_iff_eval : sharedOrBody.isCheckable ∧
    (∀ c', (sharedOrBody.check (some (.root emptyIf)) []).verdict = .matched ∧
        (sharedOrBody.check (some (.root emptyIf)) []).captures = c' ↔
      sharedOrBody.eval (some (.root emptyIf)) [] = some c') ∧
    ((sharedOrBody.check (some (.root emptyIf)) []).verdict = .failed ↔
      sharedOrBody.eval (some (.root emptyIf)) [] = none) ∧
    sharedOrBody.match? (some (.root emptyIf)) = sharedOrBody.eval (some (.root emptyIf)) [] :=
  ⟨rfl, check_iff_eval rfl (some (.root emptyIf)) []⟩

/- What the first alternative captured before it failed is there afterwards, but the second one
captures another node under the same name. -/
example : (sharedName.check (some (.root emptyIf)) []).verdict = .failed ∧
    ((sharedName.check (some (.root emptyIf)) []).captures.map fun entry => (entry.1, entry.2.map Site.index)) =
      [("x", some 1)] ∧
    ((sharedOrBody.match? (some (.root emptyIf))).map fun c => c.map fun entry => (entry.1, entry.2.map Site.index)) =
      some [("x", some 2)] := by
  cbv

end Pattern

end NestLint
