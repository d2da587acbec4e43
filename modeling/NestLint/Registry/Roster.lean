import NestLint.Json.Label
import NestLint.Registry.View
import NestLint.Text.Search

/-!
# Rosters

A roster gives names to the members of a family and to views of its registries, apart from the names
that members are registered under. What is loaded later is the member that a name stands for by
then.

* `Roster.shown`: a member by the first name that stands for it;
* `Roster.look`: a member that is looked up in the registry of another one.
-/

namespace NestLint

/-- Members and views under labels. What is pending in a registry is what a member is called. -/
structure Roster where
  family : Family Json := .initial
  members : Table Label Nat := [(.text "Registrant", 0), (.text "LintPass", 2)]
  views : Table Label View := []

/-- What keeps a roster from being used. -/
inductive RosterFault where
  | family (fault : FamilyFault)
  /-- Nothing is registered under a name. -/
  | unknown
  /-- A label stands for nothing by the time that it is looked up. -/
  | notLoaded (target : Label)
  /-- What should be loaded cannot be a label. -/
  | badTarget
  deriving DecidableEq, Repr, Inhabited

namespace Roster

/-- The number of a member. -/
def find? (r : Roster) (label : Label) : Option Nat := Dict.get? r.members (label.among (Dict.keys r.members))

/-- The view under a label. -/
def view? (r : Roster) (label : Label) : Option View := Dict.get? r.views (label.among (Dict.keys r.views))

/-- The roster with a label for a member. -/
def nameMember (r : Roster) (label : Label) (n : Nat) : Roster :=
  { r with members := Dict.insert r.members (label.among (Dict.keys r.members)) n }

/-- The roster with a label for a view. -/
def nameView (r : Roster) (label : Label) (view : View) : Roster :=
  { r with views := Dict.insert r.views (label.among (Dict.keys r.views)) view }

/-- A member as it is shown: by the first label that stands for it, or else by its own name. -/
def shown (r : Roster) (n : Nat) : Json :=
  match r.members.find? fun entry => entry.2 == n with
  | some (label, _) => label.document
  | none => .str (r.family.nameOf n)

/-- Several members as they are shown. -/
def listing (r : Roster) (members : List Nat) : Json := .list (members.map r.shown)

/-- The names of the ancestors of a member, itself first, without the base of schemes. -/
def ancestry (r : Roster) (n : Nat) : List String := ((r.family.order n).filter (· != 1)).map r.family.nameOf

/-- What is loaded is the member that a label stands for. -/
def load (r : Roster) : Loading Nat Json RosterFault :=
  fun target registry =>
    (registry, match Label.ofDocument? target with
      | none => .error (.loading .badTarget)
      | some label => ((r.find? label).map .ok).getD (.error (.loading (.notLoaded label))))

/-- The member that has a name in the registry that some member uses. -/
def look (r : Roster) (user : Nat) (name : String) : Roster × Except RosterFault Nat :=
  let (registry, result) := (r.family.holding user).get r.load name
  ({ r with family := r.family.setRegistry user registry },
    match result, r.family.canStore user with
    | .error (.loading fault), _ => .error fault
    | _, .error fault => .error (.family fault)
    | .error .unknown, .ok () => .error .unknown
    | .ok n, .ok () => .ok n)

/-- Whether a name is registered with a member. What it uses in place of a table may have the name
in it, too. -/
def knows (r : Roster) (user : Nat) (key : String) : Except FamilyFault Bool :=
  match r.family.table false user with
  | .holder i => .ok (Dict.contains (r.family.tablesOf i).registered key)
  | .value (.list items) => .ok (items.contains (.str key))
  | .value (.str text) => .ok (Text.occursIn key.toList text.toList)
  | .value _ => .error .notStore
  | .nothing => .error .noRegistry

/-- Keep a name in the registry that a member uses for something that is loaded later. -/
def defer (r : Roster) (user : Nat) (name : String) (target : Json) : Except FamilyFault Roster := do
  if ← r.knows user (Registry.normalize name) then return r
  match r.family.table true user with
  | .holder _ =>
    return { r with family := r.family.setRegistry user ((r.family.holding user).lazyRegister name target) }
  | .value _ => throw .notStore
  | .nothing => throw .noRegistry

end Roster

end NestLint
