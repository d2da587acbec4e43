import NestLint.Json.Label
import NestLint.Json.Member

/-!
# Values that do not fit

Whoever reads a document wants values of certain kinds at certain places. Where it holds something
else, the reading ends there, and what is said about it is only how the value does not fit.

* `need`, `needParts`, `needLabel`, `needNames`: values of a kind, or how they do not fit;
* `naming`: what a value names among several things;
* `pairs`: the labels and values that an object or a list of pairs stands for;
* `pairs_object`: an object stands for its members.
-/

namespace NestLint

/-- How a value does not fit. -/
inductive Misfit where
  /-- It is of the wrong kind. -/
  | wrongKind
  /-- It does not have what is asked of it. -/
  | lacking
  /-- It is none of the values that can stand there. -/
  | unknown
  /-- It is missing. -/
  | missing
  /-- It stands for something outside of a list. -/
  | outside
  deriving DecidableEq, Repr, Inhabited

/-- What is there, or how it does not fit. -/
abbrev Fitting (α : Type) : Type := Except Misfit α

namespace Misfit

/-- Something that may be missing, as something that has to be there. -/
def orElse {α : Type} (misfit : Misfit) : Option α → Fitting α
  | some value => .ok value
  | none => .error misfit

end Misfit

namespace Json

/-- The member `key`, which has to be there. -/
def need (value : Json) (key : String) : Fitting Json := Misfit.missing.orElse (value.get? key)

/-- The text of the member `key`, which has to be there. -/
def needText (value : Json) (key : String) (misfit : Misfit) : Fitting String := do
  misfit.orElse (← value.need key).str?

/-- The parts of a value that has to have some. -/
def needParts (value : Json) : Fitting (List Json) := Misfit.wrongKind.orElse value.parts?

/-- The parts of the member `key`; none, if it is missing. -/
def partsAt (value : Json) (key : String) : Fitting (List Json) := ((value.get? key).getD (.list [])).needParts

/-- A value as a label. -/
def needLabel (value : Json) : Fitting Label := Misfit.wrongKind.orElse (Label.ofDocument? value)

/-- The names among the parts of a value that are labels. -/
def needNames (value : Json) : Fitting (List String) := do
  return (← (← value.needParts).mapM needLabel).filterMap fun label => label.document.str?

/-- What a value names. -/
def naming {α : Type} (find : String → Option α) (value : Json) : Fitting α := do
  let _ ← value.needLabel
  Misfit.missing.orElse (value.str?.bind find)

/-- What the member `key` names, which has to be there. -/
def needNamed {α : Type} (value : Json) (key : String) (find : String → Option α) : Fitting α := do
  (← value.need key).naming find

/-- The label and the value of a pair. A text of two characters is one, and so is an object of two
members. -/
def pair (value : Json) : Fitting (Label × Json) := do
  match ← value.needParts with
  | [label, value] => return (← label.needLabel, value)
  | _ => throw .unknown

/-- The labels with values in an object or in a list of pairs. -/
def pairs : Json → Fitting (List (Label × Json))
  | .object members => .ok (members.map fun entry => (.text entry.1, entry.2))
  | value => do (← value.needParts).mapM pair

/-- The members that pairs stand for. Pairs whose label is no name are left out. -/
def named (pairs : List (Label × Json)) : Dict Json :=
  Dict.ofList (pairs.filterMap fun
    | (.text name, value) => some (name, value)
    | _ => none)

theorem pairs_object (members : Dict Json) :
    pairs (.object members) = .ok (members.map fun entry => (.text entry.1, entry.2)) := rfl

end Json

end NestLint
