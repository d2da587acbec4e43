import NestLint.Json.Basic
import NestLint.Text.Quoted

/-!
# Values inside messages

How a value of a document is shown inside a message: strings between quotes, the named values as
`None`, `True` and `False`, containers with their parts between brackets. A string that stands alone
is shown without quotes.
-/

namespace NestLint.Json

/-- Texts with a comma and a blank between each two. -/
def commaSeparated (texts : List String) : String := ", ".intercalate texts

mutual

/-- A value as a part of a message. -/
def display : Json → String
  | .null => "None"
  | .bool b => if b then "True" else "False"
  | .int n => toString n
  | .float x => x.text
  | .str s => Text.quoted s
  | .list items => "[" ++ commaSeparated (displayItems items) ++ "]"
  | .object members => "\x7b" ++ commaSeparated (displayMembers members) ++ "\x7d"

/-- The items of a list, each on its own. -/
def displayItems : List Json → List String
  | [] => []
  | item :: rest => display item :: displayItems rest

/-- The members of an object, each on its own. -/
def displayMembers : List (String × Json) → List String
  | [] => []
  | (key, value) :: rest => (Text.quoted key ++ ": " ++ display value) :: displayMembers rest

end

/-- A value that stands alone in a message. -/
def message : Json → String
  | .str s => s
  | value => display value

/-- The name of the kind of a value inside messages. -/
def typeName : Json → String
  | .null => "NoneType"
  | .bool _ => "bool"
  | .int _ => "int"
  | .float _ => "float"
  | .str _ => "str"
  | .list _ => "list"
  | .object _ => "dict"

/-- Texts as a list inside a message. -/
def displayStrings (texts : List String) : String := "[" ++ commaSeparated (texts.map Text.quoted) ++ "]"

end NestLint.Json
