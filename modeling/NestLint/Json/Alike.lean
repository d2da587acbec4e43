import NestLint.Json.Basic

/-!
# Values that count as the same

Where values are compared, numbers are compared by their value whatever their kind, a truth value
counts as 0 or 1, and the order of the members of an object does not matter.
-/

namespace NestLint.Json

/-- Whether two values are the same number. A truth value counts as 0 or 1. -/
def sameNumber : Json → Json → Bool
  | .int a, .int b => a == b
  | .int a, .bool b => a == b.toInt
  | .float a, .float b => a.same b
  | .int a, .float b => b.isInt a
  | .float a, .int b => a.isInt b
  | .float a, .bool b => a.isInt b.toInt
  | _, _ => false

mutual

/-- Whether two values count as the same: numbers by their value, whatever their kind, and members
in any order. -/
def alike : Json → Json → Bool
  | .list a, .list b => alikeItems a b
  | .object a, .object b => a.length == b.length && alikeMembers a b
  | .null, .null => true
  | .str a, .str b => a == b
  | .bool a, b => sameNumber (.int a.toInt) b
  | a, b => sameNumber a b

/-- Whether two lists have the same items. -/
def alikeItems : List Json → List Json → Bool
  | [], [] => true
  | a :: as, b :: bs => alike a b && alikeItems as bs
  | _, _ => false

/-- Whether each member is the same in another object. -/
def alikeMembers : List (String × Json) → List (String × Json) → Bool
  | [], _ => true
  | (key, a) :: rest, other =>
    (match Dict.get? other key with
      | some b => alike a b
      | none => false) && alikeMembers rest other

end

end NestLint.Json
