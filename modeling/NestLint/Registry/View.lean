import NestLint.Json.Alike
import NestLint.Registry.Family

/-!
# Views of registries

A view shows the members that are registered somewhere and pass some tests. It is looked at anew
every time, so it shows what has been registered since.

A view is a `FilterableGenerator`, and `filter` gives it one test more.

* `View.members`: what a view shows;
* `members_restrict`: a further test shows no member that was not shown before.
-/

namespace NestLint

/-- A holder of a registry with tests: attributes that a member has to have. -/
structure View where
  holder : Nat
  tests : List (Dict Json) := []
  deriving Repr, Inhabited

namespace View

variable {ℓ : Type}

/-- Whether a member passes a test. An attribute that it does not have counts as null. -/
def passes (f : Family ℓ) (n : Nat) (test : Dict Json) : Bool :=
  test.all fun entry => (f.value? n entry.1).any fun value => value.alike entry.2

/-- The members that a view shows, in order of registration. -/
def members (f : Family ℓ) (v : View) : List Nat :=
  (f.tablesOf v.holder).all.filter fun n => v.tests.all (passes f n)

/-- The view with a further test. -/
def restrict (v : View) (test : Dict Json) : View := { v with tests := v.tests ++ [test] }

/-- How a view is shown, up to what it is a view of. -/
def text (v : View) : String := "<FilterableGenerator " ++ toString v.tests.length ++ " predicate(s)"

theorem members_restrict (f : Family ℓ) (v : View) (test : Dict Json) :
    (v.restrict test).members f = (v.members f).filter fun n => passes f n test := by
  simp [members, restrict, List.filter_filter, Bool.and_comm]

end View

end NestLint
