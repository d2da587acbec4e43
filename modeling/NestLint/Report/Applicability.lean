/-!
# How safe a fix is

A fix is rated by how safely it can be applied without anyone looking at it. Ratings only ever go
down.

The ratings are `Applicability` with `degrade` and `is_machine_applicable`.

* `rank_degrade`: the lower of two ratings has the lower of their ranks;
* `degrade_le_left`, `degrade_le_right`: it is not above either.
-/

namespace NestLint

/-- How safe it is to apply a fix unseen. -/
inductive Applicability where
  | unspecified
  | maybeIncorrect
  | machineApplicable
  deriving DecidableEq, Repr, Inhabited

namespace Applicability

/-- All ratings, from the highest. -/
def all : List Applicability := [.machineApplicable, .maybeIncorrect, .unspecified]

/-- The name of a rating. -/
def name : Applicability → String
  | .machineApplicable => "MachineApplicable"
  | .maybeIncorrect => "MaybeIncorrect"
  | .unspecified => "Unspecified"

/-- The rating of a name. -/
def ofName? (name : String) : Option Applicability := all.find? fun rating => rating.name == name

/-- The order of the ratings. -/
def rank : Applicability → Nat
  | .unspecified => 0
  | .maybeIncorrect => 1
  | .machineApplicable => 2

/-- The lower of two ratings. -/
def degrade (a b : Applicability) : Applicability := if a.rank ≤ b.rank then a else b

/-- Whether a fix may be applied without anyone looking at it. -/
def isMachineApplicable (a : Applicability) : Bool := a == .machineApplicable

theorem ofName?_name (a : Applicability) : ofName? a.name = some a := by cases a <;> decide +kernel

theorem rank_degrade (a b : Applicability) : (a.degrade b).rank = min a.rank b.rank := by
  cases a <;> cases b <;> rfl

theorem degrade_le_left (a b : Applicability) : (a.degrade b).rank ≤ a.rank := by
  rw [rank_degrade]; exact Nat.min_le_left ..

theorem degrade_le_right (a b : Applicability) : (a.degrade b).rank ≤ b.rank := by
  rw [rank_degrade]; exact Nat.min_le_right ..

end Applicability

end NestLint
