import NestLint.Json.Label

/-!
# Tallies

A tally keeps counts under labels. A label is nearly always the name of a lint or of a guard, but
tallies that were written down as pairs may have been edited since, so it may be any label.

Counts are numbers. Any value is kept when a tally is read back; only adding to it shows whether it
is a number.

A tally is one counter of `LintStatistics`, `candidates` for example.

* `Json.plus`, `Json.total`: counts added up;
* `Json.total_ints`: the sum of whole numbers.
-/

namespace NestLint

/-! ## Counts -/

/-- What keeps a count from being found, added to or written. -/
inductive CountFault where
  /-- What is asked for is no label. -/
  | noLabel
  /-- There are labels that cannot be compared. -/
  | noOrder
  /-- It is no number. -/
  | noNumber
  /-- It is infinite. -/
  | infinite
  /-- It is the value that stands for no number in particular. -/
  | undefined
  /-- It is whole and too large to be added to a number with a fraction. -/
  | tooLarge
  /-- It has too many digits for a text. -/
  | tooLong
  deriving DecidableEq, Repr, Inhabited

namespace Json

/-- A whole number as one with a fraction. -/
def widened (n : Int) : Except CountFault Binary64 :=
  match Binary64.ofInt n with
  | .infinite _ => .error .tooLarge
  | x => .ok x

/-- The sum of two counts. -/
def plus (a b : Json) : Except CountFault Json :=
  match a.counted, b.counted with
  | .int a, .int b => .ok (.int (a + b))
  | .float a, .float b => .ok (.float (a.add b))
  | .int a, .float b => (widened a).map fun a => .float (a.add b)
  | .float a, .int b => (widened b).map fun b => .float (a.add b)
  | _, _ => .error .noNumber

/-- Whether a count is zero. -/
def isZero (count : Json) : Bool :=
  match count.counted with
  | .int n => n == 0
  | .float x => x.isZero
  | _ => false

/-- The sum of counts. -/
def total (counts : List Json) : Except CountFault Json := counts.foldlM plus (.int 0)

/-- A whole number as a text. -/
def decimalText (n : Int) : Except CountFault String := if isTooLong n then .error .tooLong else .ok (toString n)

/-- A count as it is written in a report: its whole part. -/
def wholeText : Json → Except CountFault String
  | .int n => decimalText n
  | .bool b => decimalText b.toInt
  | .float (.finite negative m e) =>
    let (num, den) := Binary64.ratio m e
    let n : Int := num / den
    decimalText (if negative then -n else n)
  | .float (.infinite _) => .error .infinite
  | .float .notANumber => .error .undefined
  | _ => .error .noNumber

theorem plus_int (a b : Int) : plus (.int a) (.int b) = .ok (.int (a + b)) := rfl

theorem total_ints (ns : List Int) : total (ns.map .int) = .ok (.int (ns.foldl (· + ·) 0)) := by
  have h (acc : Int) : (ns.map Json.int).foldlM plus (.int acc) = .ok (.int (ns.foldl (· + ·) acc)) := by
    induction ns generalizing acc with
    | nil => rfl
    | cons n rest ih =>
      rw [List.map_cons, List.foldlM_cons, plus_int, List.foldl_cons]
      exact ih (acc + n)
  exact h 0

end Json

/-! ## Tallies -/

/-- Counts under labels. -/
abbrev Tally : Type := Table Label Json

namespace Tally

/-- What is kept under a label, in a table of counts or of anything else. -/
def find? {α : Type} (t : Table Label α) (l : Label) : Option α := Dict.get? t (l.among (Dict.keys t))

/-- Keep something under a label. -/
def keep {α : Type} (t : Table Label α) (l : Label) (value : α) : Table Label α :=
  Dict.insert t (l.among (Dict.keys t)) value

/-- The count under a label; what has not been counted is zero. -/
def count (t : Tally) (l : Label) : Json := (find? t l).getD (.int 0)

/-- One more under a label. -/
def countUp (t : Tally) (l : Label) : Except CountFault Tally :=
  ((t.count l).plus (.int 1)).map (keep t l)

/-- Pairs of labels and counts put down one after the other. -/
def ofList (entries : List (Label × Json)) : Tally := entries.foldl (fun t entry => keep t entry.1 entry.2) []

/-- The tally inside a message. -/
def shown (t : Tally) : String :=
  "\x7b" ++ Json.commaSeparated (t.map fun entry => entry.1.document.display ++ ": " ++ entry.2.display) ++ "\x7d"

/-- The tally as a document. -/
def document (t : Tally) : Json := .object (t.map fun entry => (entry.1.memberName, entry.2))

end Tally

end NestLint
