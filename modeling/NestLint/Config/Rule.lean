import NestLint.Json.Basic
import NestLint.Report.Diagnostic
import NestLint.Text.Casing
import NestLint.Text.Search

/-!
# The rules of a project

A rule switches one lint pass off or on and gives it options. Rules are written by hand, so each
part of a rule is kept as the value that was written, and only use shows whether it makes sense.

A rule is a `RuleConfiguration` with `to_dict` and `from_dict`.

* `Rule.find?`: the rule for a name, whatever its case;
* `Rule.level?`: the level that a rule asks for.
-/

namespace NestLint

/-- One entry of a project. -/
structure Rule where
  name : Json := .null
  isActivated : Json := .bool true
  config : Json := .object []
  deriving Repr, Inhabited, BEq

namespace Rule

/-- What can be wrong with a rule. -/
inductive Fault where
  /-- The entry is no object, or has an unknown member. -/
  | unknownForm
  /-- The name is neither null nor a text. -/
  | nameNotText
  /-- The options cannot be searched for a level. -/
  | configNotSearchable
  /-- A level is mentioned in the options, which are no object. -/
  | configNotObject
  /-- The level is no text. -/
  | levelNotText
  /-- No level has this name. -/
  | unknownLevel (text : String)
  deriving DecidableEq, Repr, Inhabited

/-- What is reported. -/
def Fault.message : Fault → String
  | .unknownLevel text => Level.unknownMessage text
  | _ => ""

/-- The members of a rule, by name. -/
def memberNames : List String := ["name", "is_activated", "config"]

/-- The rule in an entry. Missing members have their defaults; there are no others. -/
def ofJson (entry : Json) : Except Fault Rule :=
  match entry.members? with
  | none => .error .unknownForm
  | some members =>
    if (Dict.keys members).all memberNames.contains then
      .ok ⟨Dict.getD members "name" .null, Dict.getD members "is_activated" (.bool true),
        Dict.getD members "config" (.object [])⟩
    else .error .unknownForm

/-- The entry for a rule. -/
def toJson (r : Rule) : Json :=
  .object [("name", r.name), ("is_activated", r.isActivated), ("config", r.config)]

/-- The first rule with a name, whatever its case. Rules before it must have names that can be
compared. -/
def find? (rules : List Rule) (name : String) : Except Fault (Option Rule) :=
  match rules with
  | [] => .ok none
  | r :: rest =>
    match r.name with
    | .null => find? rest name
    | .str text => if Text.lower text = Text.lower name then .ok (some r) else find? rest name
    | _ => .error .nameNotText

/-- Whether the options mention a level. A text mentions it if the word occurs in it. -/
def mentionsLevel : Json → Except Fault Bool
  | .object members => .ok (Dict.contains members "level")
  | .list items => .ok (items.contains (.str "level"))
  | .str text => .ok (Text.occursIn "level".toList text.toList)
  | _ => .error .configNotSearchable

/-- The level that a rule asks for, if it does. -/
def level? (r : Rule) : Except Fault (Option Level) := do
  if !(← mentionsLevel r.config) then return none
  match r.config with
  | .object members =>
    match Dict.get? members "level" with
    | some (.str text) =>
      match Level.ofText? text with
      | some level => return some level
      | none => throw (.unknownLevel text)
    | _ => throw .levelNotText
  | _ => throw .configNotObject

theorem ofJson_toJson (r : Rule) : ofJson r.toJson = .ok r := rfl

end Rule

end NestLint
