import NestLint.Match.Matcher
import NestLint.Proofs.Match.Refinement

/-!
# What a scheme gives for an item

The results of a scheme depend on the meanings of its patterns and on the replies of its handler
alone: which notes are taken on the way, and what a failed check left behind, does not matter.

* `examineFrom_of_none`, `examineFrom_of_some`: what one pattern does to the results of the patterns
  behind it;
* `examineFrom_of_yields`: the results where only one pattern matches;
* `checkScheme_results`: an item on which the scheme fails gives no results.
-/

namespace NestLint

variable {ε ρ : Type}

namespace Scheme

variable {scheme : Scheme ε ρ} {wanted : Option (Wanted ρ)} {item : Option Site} {i : Nat} {p : Pattern}
  {ps : List Pattern} {c : Captures Site}

/-- A pattern that means nothing on the item is passed over. -/
theorem examineFrom_of_none (hp : p.isCheckable) (he : p.eval item [] = none) :
    (scheme.examineFrom wanted item i (p :: ps)).2 = (scheme.examineFrom wanted item (i + 1) ps).2 := by
  have ha := Pattern.check_agrees hp item []
  rw [he] at ha
  rw [examineFrom, show (p.check item []).verdict = .failed from ha]

/-- After a match it is up to the reply of the handler. -/
theorem examineFrom_of_some (hp : p.isCheckable) (he : p.eval item [] = some c) :
    (scheme.examineFrom wanted item i (p :: ps)).2 =
      match (scheme.handle i item c).2 with
      | .fault fault => .error fault
      | .nothing => (scheme.examineFrom wanted item (i + 1) ps).2
      | .result value =>
        match wanted.filter fun w => !w.fits value with
        | some w => .error (.unwanted w.name)
        | none =>
          if scheme.firstOnly then .ok [value]
          else (scheme.examineFrom wanted item (i + 1) ps).2.map (value :: ·) := by
  have ha := Pattern.check_agrees hp item []
  rw [he] at ha
  obtain ⟨hv, hc⟩ := ha
  rw [examineFrom, hv, hc]
  cases hr : (scheme.handle i item c).2 with
  | fault fault => simp only [hr]
  | nothing => simp only [hr]
  | result value =>
    simp only [hr]
    cases wanted.filter fun w => !w.fits value with
    | some w => rfl
    | none =>
      by_cases hf : scheme.firstOnly
      · rw [if_pos hf, if_pos hf]
      · rw [if_neg hf, if_neg hf]

theorem examineFrom_of_fault (hp : p.isCheckable) (he : p.eval item [] = some c) {fault : MatchFault}
    (hr : (scheme.handle i item c).2 = .fault fault) :
    (scheme.examineFrom wanted item i (p :: ps)).2 = .error fault := by
  rw [examineFrom_of_some hp he, hr]

theorem examineFrom_of_nothing (hp : p.isCheckable) (he : p.eval item [] = some c)
    (hr : (scheme.handle i item c).2 = .nothing) :
    (scheme.examineFrom wanted item i (p :: ps)).2 = (scheme.examineFrom wanted item (i + 1) ps).2 := by
  rw [examineFrom_of_some hp he, hr]

/-- A result that is wanted stands before those of the patterns behind. -/
theorem examineFrom_of_result (hp : p.isCheckable) (he : p.eval item [] = some c) {value : ρ}
    (hr : (scheme.handle i item c).2 = .result value) (hw : ∀ w ∈ wanted, w.fits value)
    (hf : scheme.firstOnly = false) :
    (scheme.examineFrom wanted item i (p :: ps)).2 =
      (scheme.examineFrom wanted item (i + 1) ps).2.map (value :: ·) := by
  have hfits : (wanted.filter fun w => !w.fits value) = none := by
    cases wanted with
    | none => rfl
    | some w => simp [Option.filter, hw w rfl]
  rw [examineFrom_of_some hp he, hr]
  simp only [hfits, hf, Bool.false_eq_true, if_false]

/-- What a reply adds to the results: a value, or nothing. A handler that fails adds nothing. -/
inductive Yields : Reply ρ → Option ρ → Prop where
  | result (value : ρ) : Yields (.result value) (some value)
  | nothing : Yields .nothing none
  | fault (fault : MatchFault) : Yields (.fault fault) none

/-- Where the patterns behind give no results, the results are what the handler adds. -/
theorem examineFrom_of_yields (hp : p.isCheckable) (he : p.eval item [] = some c) {value? : Option ρ}
    (hr : Yields (scheme.handle i item c).2 value?) (hw : ∀ value ∈ value?, ∀ w ∈ wanted, w.fits value)
    (hf : scheme.firstOnly = false) (hrest : (scheme.examineFrom wanted item (i + 1) ps).2 = .ok []) :
    (scheme.examineFrom wanted item i (p :: ps)).2.toOption.getD [] = value?.toList := by
  generalize hreply : (scheme.handle i item c).2 = reply at hr
  cases hr with
  | result value =>
    rw [examineFrom_of_result hp he hreply (hw value rfl) hf, hrest]
    rfl
  | nothing =>
    rw [examineFrom_of_nothing hp he hreply, hrest]
    rfl
  | fault fault =>
    rw [examineFrom_of_fault hp he hreply]
    rfl

end Scheme

namespace Matcher

/-- A scheme gives what its patterns give where it examines an item, and nothing where it fails. -/
theorem checkScheme_results (m : Matcher ε ρ) (scheme : Scheme ε ρ) (item : Option Site) :
    (m.checkScheme scheme item).2 = (scheme.examine m.wanted item).2.toOption.getD [] := by
  rw [checkScheme]
  split
  · rename_i steps results h
    rw [h]
    rfl
  · rename_i steps fault h
    rw [h]
    rfl

end Matcher

end NestLint
