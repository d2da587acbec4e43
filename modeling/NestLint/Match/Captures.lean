import NestLint.Dict
import NestLint.Text.Quoted

/-!
# Captures

While a pattern is checked, items are remembered under names. A name stands for exactly one item:
giving it a second time succeeds only for the very same item. Captures are plain values, so going
back to an earlier state is keeping that state.

The captures are what `MatchContext` keeps (`get_item`, `bind_item`, `has_item`, `snapshot`,
`restore`), and those of a successful match are a `MatchResult`.

* `bind_of_free`, `bind_of_bound`: when a name can be given;
* `Captures.capture?`, `Captures.field?`: a capture that is there for sure;
* `Captures.display`: how the captures of a successful match are shown.
-/

namespace NestLint

universe u

/-- Items under names, in the order in which the names were given. A name may be kept for no
item. -/
abbrev Captures (α : Type u) : Type u := Dict (Option α)

namespace Captures

variable {α : Type u}

/-- The item under `name`. -/
def item? (captures : Captures α) (name : String) : Option α := (Dict.get? captures name).join

/-- Whether `name` has an item. -/
def bound (captures : Captures α) (name : String) : Bool := (item? captures name).isSome

/-- Give `name` to `item`, and whether that is possible. -/
def bind [BEq α] (captures : Captures α) (name : String) (item : Option α) : Captures α × Bool :=
  match item? captures name with
  | none => (Dict.insert captures name item, true)
  | some old => (captures, item == some old)

theorem bind_of_free [BEq α] {captures : Captures α} {name : String} (h : captures.item? name = none)
    (item : Option α) : bind captures name item = (Dict.insert captures name item, true) := by
  simp [bind, h]

theorem bind_of_bound [BEq α] {captures : Captures α} {name : String} {old : α} (h : captures.item? name = some old)
    (item : Option α) : bind captures name item = (captures, item == some old) := by
  simp [bind, h]

/-! ## Captures of a successful match -/

/-- What keeps a capture from being read. -/
inductive Missing where
  /-- No item was captured under the name. -/
  | noCapture (name : String)
  /-- The name is kept, but for no item. -/
  | noItem (name : String)
  /-- The name stands for something else. -/
  | reserved (name : String)
  deriving DecidableEq, Repr, Inhabited

/-- What is reported. -/
def Missing.message : Missing → String
  | .noCapture name => "no capture named " ++ Text.quoted name
  | .noItem name | .reserved name => name

/-- What captures have besides the captures themselves. -/
def ownFields : List String := ["_captures", "keys", "values", "items", "get", "_abc_impl", "_is_protocol"]

/-- Whether a name is no name of a capture when captures are read as fields. -/
def isReserved (name : String) : Bool := "__".toList.isPrefixOf name.toList || ownFields.contains name

/-- The capture `name`. -/
def capture? (captures : Captures α) (name : String) : Except Missing α :=
  match Dict.get? captures name with
  | some (some item) => .ok item
  | some none => .error (.noItem name)
  | none => .error (.noCapture name)

/-- The capture `name` read as a field. -/
def field? (captures : Captures α) (name : String) : Except Missing α :=
  if isReserved name then .error (.reserved name) else captures.capture? name

/-- The captures as they are shown in messages: the names in order. -/
def display (captures : Captures α) : String :=
  "MatchResult(" ++ ", ".intercalate ((Dict.keys captures).mergeSort fun a b => decide (a ≤ b)) ++ ")"

end Captures

end NestLint
