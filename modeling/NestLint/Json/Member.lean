import NestLint.Json.Basic

/-!
# Members with defaults

Documents leave out what is as usual. Here a member that is missing, or that is of another kind than
the one asked for, is read as a default.
-/

namespace NestLint.Json

/-- The member `key`, or null. -/
def member (value : Json) (key : String) : Json := (value.get? key).getD .null

/-- Whether there is a member `key`. -/
def has (value : Json) (key : String) : Bool := (value.get? key).isSome

/-- The members of an object; of anything else, none. -/
def members (value : Json) : Dict Json := value.members?.getD []

/-- The members of an object that are texts. -/
def textMembers (value : Json) : Dict String :=
  value.members.filterMap fun entry => entry.2.str?.map fun text => (entry.1, text)

/-- The items of a list; of anything else, none. -/
def items : Json → List Json
  | .list items => items
  | _ => []

/-- Whether the value is a list. -/
def isList : Json → Bool
  | .list _ => true
  | _ => false

/-- The text of the member `key`. -/
def textAt? (value : Json) (key : String) : Option String := (value.member key).str?

/-- The text of the member `key`, or a default. -/
def textAt (value : Json) (key : String) (default : String := "") : String := (value.textAt? key).getD default

/-- The whole number in the member `key`, or a default. -/
def intAt (value : Json) (key : String) (default : Int := 0) : Int := (value.member key).int?.getD default

/-- Whether the member `key` counts as set, or a default. -/
def isOn (value : Json) (key : String) (default : Bool := false) : Bool :=
  ((value.get? key).map truthy).getD default

/-- The items of the list in the member `key`. -/
def itemsAt (value : Json) (key : String) : List Json := (value.member key).items

/-- The texts among the parts of the member `key`. -/
def textsAt (value : Json) (key : String) : List String := ((value.member key).parts?.getD []).filterMap str?

end NestLint.Json
