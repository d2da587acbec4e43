import NestLint.Json.Alike
import NestLint.Json.Display
import NestLint.Log.Note

/-!
# The levels of notes

A level is a number. Some levels have names, two of them a second one that is only understood.

* `levelNamed?_levelName`: the name that is shown for a level is understood as that level;
* `levelTitle`: how any value is shown that stands for a level.
-/

namespace NestLint.Note

/-- The levels under their names. Of two names for a level the first one is shown. -/
def levelNames : Dict Int :=
  [("CRITICAL", criticalLevel), ("FATAL", criticalLevel), ("ERROR", errorLevel), ("WARNING", warningLevel),
    ("WARN", warningLevel), ("INFO", infoLevel), ("DEBUG", debugLevel), ("NOTSET", 0)]

/-- How a level is shown. -/
def levelName (level : Int) : String :=
  match levelNames.find? fun entry => entry.2 == level with
  | some (name, _) => name
  | none => "Level " ++ toString level

/-- How a value is shown that stands for a level: a number by the name of the level, a name by the
number. -/
def levelTitle : Json → Json
  | .str name => ((Dict.get? levelNames name).map .int).getD (.str ("Level " ++ name))
  | value =>
    match levelNames.find? fun entry => (Json.int entry.2).alike value with
    | some (name, _) => .str name
    | none => .str ("Level " ++ value.message)

/-- The capital form of a character, as far as the names of levels are concerned: besides the small
letters there are two other characters whose capital form is a plain letter. -/
def capital (c : Char) : Char :=
  if c = 'ı' then 'I' else if c = 'ſ' then 'S' else c.toUpper

/-- The level with a name, whatever its case. -/
def levelNamed? (name : String) : Option Int := Dict.get? levelNames (String.ofList (name.toList.map capital))

/-- What is reported for a text that names no level. -/
def unknownLevelMessage (name : String) : String := "Unknown logging level: " ++ name

/-- The level of a channel that takes the level of the one above it. -/
def inheritedLevel : Int := 0

theorem levelNamed?_levelName : ∀ entry ∈ levelNames, levelNamed? (levelName entry.2) = some entry.2 := by
  decide +kernel

end NestLint.Note
