import NestLint.Dict
import NestLint.Number.Shortest

/-!
# JSON documents

A document is a value of JSON whose objects keep the order of their members. Whole numbers are kept
exactly and apart from numbers with a fraction, because they are written differently.

* `equal`: when two values are equal;
* `get?`: a member of an object;
* `parts?`: which values can be taken apart;
* `truthy`: which values count as set where an option is used as a switch.
-/

namespace NestLint

/-- A JSON value. Objects keep their members in order. -/
inductive Json where
  | null
  | bool (value : Bool)
  | int (value : Int)
  | float (value : Binary64)
  | str (value : String)
  | list (items : List Json)
  | object (members : List (String × Json))
  deriving Repr, Inhabited

namespace Json

/-! ## Equal values -/

mutual

/-- Whether two values are equal, with the same members in the same order. -/
def equal : Json → Json → Bool
  | .null, .null => true
  | .bool a, .bool b => a == b
  | .int a, .int b => a == b
  | .float a, .float b => a == b
  | .str a, .str b => a == b
  | .list a, .list b => equalItems a b
  | .object a, .object b => equalMembers a b
  | _, _ => false

/-- Whether two lists have equal items. -/
def equalItems : List Json → List Json → Bool
  | [], [] => true
  | a :: as, b :: bs => equal a b && equalItems as bs
  | _, _ => false

/-- Whether two objects have equal members, in the same order. -/
def equalMembers : List (String × Json) → List (String × Json) → Bool
  | [], [] => true
  | (key, a) :: as, (name, b) :: bs => key == name && equal a b && equalMembers as bs
  | _, _ => false

end

instance : BEq Json := ⟨equal⟩

mutual

theorem eq_of_equal : ∀ {a b : Json}, equal a b = true → a = b
  | .null, .null, _ => rfl
  | .bool _, .bool _, h | .int _, .int _, h | .float _, .float _, h | .str _, .str _, h => by
    simpa [equal] using h
  | .list _, .list _, h => by rw [eq_of_equalItems h]
  | .object _, .object _, h => by rw [eq_of_equalMembers h]

theorem eq_of_equalItems : ∀ {as bs : List Json}, equalItems as bs = true → as = bs
  | [], [], _ => rfl
  | _ :: _, _ :: _, h => by
    rw [equalItems, Bool.and_eq_true] at h
    rw [eq_of_equal h.1, eq_of_equalItems h.2]

theorem eq_of_equalMembers : ∀ {as bs : List (String × Json)}, equalMembers as bs = true → as = bs
  | [], [], _ => rfl
  | (_, _) :: _, (_, _) :: _, h => by
    rw [equalMembers, Bool.and_eq_true, Bool.and_eq_true, beq_iff_eq] at h
    rw [h.1.1, eq_of_equal h.1.2, eq_of_equalMembers h.2]

end

mutual

theorem equal_refl : ∀ a : Json, equal a a = true
  | .null => rfl
  | .bool _ | .int _ | .float _ | .str _ => by simp [equal]
  | .list as => equalItems_refl as
  | .object as => equalMembers_refl as

theorem equalItems_refl : ∀ as : List Json, equalItems as as = true
  | [] => rfl
  | a :: as => by rw [equalItems, equal_refl a, equalItems_refl as, Bool.and_self]

theorem equalMembers_refl : ∀ as : List (String × Json), equalMembers as as = true
  | [] => rfl
  | (key, a) :: as => by
    rw [equalMembers, equal_refl a, equalMembers_refl as, beq_self_eq_true, Bool.and_self, Bool.and_self]

end

instance : LawfulBEq Json where
  eq_of_beq := eq_of_equal
  rfl := equal_refl _

instance : DecidableEq Json := fun _ _ => decidable_of_iff _ beq_iff_eq

/-! ## Parts of values -/

/-- The members of an object. -/
def members? : Json → Option (Dict Json)
  | .object members => some members
  | _ => none

/-- The member `key` of an object. -/
def get? (value : Json) (key : String) : Option Json := value.members?.bind fun members => Dict.get? members key

/-- The text of a string. -/
def str? : Json → Option String
  | .str text => some text
  | _ => none

/-- The value of a whole number. -/
def int? : Json → Option Int
  | .int n => some n
  | _ => none

/-- A value as a number: the truth values count as 0 and 1. -/
def counted : Json → Json
  | .bool b => .int b.toInt
  | value => value

/-- The whole number that a value counts as. -/
def whole? (value : Json) : Option Int := value.counted.int?

/-- The parts that a value can be taken apart into: the items of a list, the characters of a text, or
the names of the members of an object. -/
def parts? : Json → Option (List Json)
  | .list items => some items
  | .str text => some (text.toList.map fun c => .str (String.singleton c))
  | .object members => some (members.map fun entry => .str entry.1)
  | _ => none

/-- A value is off if it is null, false, zero or empty, and on otherwise. -/
def truthy : Json → Bool
  | .null => false
  | .bool b => b
  | .int n => n != 0
  | .float x => !x.isZero
  | .str s => s != ""
  | .list items => !items.isEmpty
  | .object members => !members.isEmpty

/-- The most digits that a whole number can have in a text. One that is longer is neither read nor
written. -/
def digitLimit : Nat := 4300

/-- Whether a whole number has too many digits for a text. -/
def isTooLong (n : Int) : Bool := decide (Nat.pow 10 digitLimit ≤ n.natAbs)

/-- A list of texts as a value. -/
def ofStrings (texts : List String) : Json := .list (texts.map .str)

/-- A text, or null for none. -/
def ofString? : Option String → Json
  | none => .null
  | some text => .str text

end Json

end NestLint
