import NestLint.Json.Basic

/-!
# Taking values apart

What a value stands for is often put together from what its parts stand for: the items of a list,
the members of an object. `fold` is that recursion, written once.

* `fold_list`, `fold_object`: the parts of a container are folded in order;
* `tagged`: the value for readers that cannot tell all numbers apart;
* `holdsTooLong`: whether the value can be written at all.
-/

namespace NestLint.Json

universe u

/-- What stands for a value without parts, for a list and for an object. A container comes with its
parts and with what stands for them. -/
structure Folding (α : Type u) where
  leaf : Json → α
  list : List Json → List α → α
  object : Dict Json → Dict α → α

variable {α : Type u}

mutual

/-- What stands for a value. -/
def fold (f : Folding α) : Json → α
  | .list items => f.list items (foldItems f items)
  | .object members => f.object members (foldMembers f members)
  | value => f.leaf value

/-- What stands for the items of a list. -/
def foldItems (f : Folding α) : List Json → List α
  | [] => []
  | item :: rest => fold f item :: foldItems f rest

/-- What stands for the members of an object. -/
def foldMembers (f : Folding α) : List (String × Json) → List (String × α)
  | [] => []
  | (key, value) :: rest => (key, fold f value) :: foldMembers f rest

end

theorem foldItems_eq_map (f : Folding α) (items : List Json) : foldItems f items = items.map (fold f) := by
  induction items with
  | nil => rfl
  | cons item rest ih => simp [foldItems, ih]

theorem foldMembers_eq_map (f : Folding α) (members : List (String × Json)) :
    foldMembers f members = members.map fun entry => (entry.1, fold f entry.2) := by
  induction members with
  | nil => rfl
  | cons entry rest ih => simp [foldMembers, ih]

theorem fold_list (f : Folding α) (items : List Json) : fold f (.list items) = f.list items (items.map (fold f)) := by
  rw [fold, foldItems_eq_map]

theorem fold_object (f : Folding α) (members : List (String × Json)) :
    fold f (.object members) = f.object members (members.map fun entry => (entry.1, fold f entry.2)) := by
  rw [fold, foldMembers_eq_map]

/-- The value with its texts and the names of its members changed. -/
def mapTexts (change : String → String) : Json → Json :=
  fold
    { leaf := fun
        | .str text => .str (change text)
        | value => value
      list := fun _ items => .list items
      object := fun _ members => .object (members.map fun entry => (change entry.1, entry.2)) }

/-- The numbers up to this one can be told apart by every reader. -/
def exactLimit : Nat := Nat.pow 2 53

/-- The value for readers that have one kind of number only: what they could not tell apart is
written as a text and says what it is. -/
def tagged : Json → Json :=
  fold
    { leaf := fun
        | .int n => if n.natAbs < exactLimit then .int n else .object [("int", .str (toString n))]
        | .float x => .object [("float", .str x.text)]
        | value => value
      list := fun _ items => .list items
      object := fun _ members => .object members }

/-- Whether some number in the value has too many digits for a text. -/
def holdsTooLong : Json → Bool :=
  fold
    { leaf := fun
        | .int n => isTooLong n
        | _ => false
      list := fun _ items => items.any id
      object := fun _ members => members.any Prod.snd }

end NestLint.Json
