import NestLint.Json.Display
import NestLint.Json.Printer

/-!
# Labels

A label is what something is kept under. It is nearly always a name, but it may be any value without
parts: null, a truth value or a number. Labels that are the same number are one label, whatever they
look like; the one that came first is kept.

* `Label.among`, `Label.among_text`: a label among those that are known, and that a name is only ever
  found under itself;
* `Label.sorted?`: labels in order, as far as they can be compared.
-/

namespace NestLint

/-- What something is kept under: a name, or another value without parts. -/
inductive Label where
  | text (value : String)
  | nothing
  | truth (value : Bool)
  | whole (value : Int)
  | fraction (value : Binary64)
  deriving DecidableEq, Repr, Inhabited

namespace Label

/-- The label as a value. -/
def document : Label → Json
  | .text value => .str value
  | .nothing => .null
  | .truth value => .bool value
  | .whole value => .int value
  | .fraction value => .float value

/-- A value without parts as a label. -/
def ofDocument? : Json → Option Label
  | .str value => some (.text value)
  | .null => some .nothing
  | .bool value => some (.truth value)
  | .int value => some (.whole value)
  | .float value => some (.fraction value)
  | .list _ | .object _ => none

/-- The label as it is shown in a report. -/
def shown (l : Label) : String := l.document.message

/-- The label as the name of a member: a name as it is, everything else as it is written in a
document. -/
def memberName : Label → String
  | .text value => value
  | l => Json.print .oneLine l.document

/-- The number that a label is, if it is one. -/
def number? : Label → Option Binary64
  | .truth value => some (.exactly value.toInt)
  | .whole value => some (.exactly value)
  | .fraction value => some value
  | _ => none

/-- Whether two labels are one: equal, or the same number. -/
def same (a b : Label) : Bool :=
  a == b || match a.number?, b.number? with
    | some x, some y => x.same y
    | _, _ => false

/-- The label among those that are known which is the same, or else the label itself. -/
def among (known : List Label) (l : Label) : Label := (known.find? (·.same l)).getD l

/-- Whether a label may stand before another one in order. -/
def before (a b : Label) : Bool :=
  match a, b with
  | .text a, .text b => decide (a ≤ b)
  | a, b =>
    match a.number?, b.number? with
    | some x, some y => !y.less x
    | _, _ => true

/-- Whether a label is a name. -/
def isText : Label → Bool
  | .text _ => true
  | _ => false

/-- Labels in order. Names can be compared with each other, and so can numbers. -/
def sorted? (labels : List Label) : Option (List Label) :=
  if labels.length ≤ 1 || labels.all isText || labels.all (·.number?.isSome) then some (labels.mergeSort before)
  else none

theorem among_text (known : List Label) (name : String) : (Label.text name).among known = .text name := by
  unfold among
  cases h : known.find? fun l => l.same (.text name) with
  | none => rfl
  | some l =>
    have h := List.find?_some h
    simpa [same, number?] using h

end Label

end NestLint
