import NestLint.Log.Context
import NestLint.Log.Level
import NestLint.Log.Template
import NestLint.Text.Word

/-!
# Records

A record is what becomes of something that is said on a channel: the level, the text, and further
attributes, of which the lint at work is one. A line for a reader is a template filled with all of
these. Writing a line changes the record: the lint is put between brackets behind a dash, and
whoever writes the same record next finds it like that.

The line is that of `IfCollapseFormatter.format`, and a record is made by `makeRecord`.

* `Record.decorated`: the change;
* `Record.line?`: the line, and the record afterwards.
-/

namespace NestLint

/-- Something said on a channel. A text that cannot be put together is noticed only where it is
asked for. -/
structure Record where
  channel : String
  /-- The level as it was given. -/
  level : Json
  text : Except TemplateFault String
  attributes : Context

namespace Record

/-- Names that attributes cannot have, because every record has something under them. -/
def reserved : List String :=
  ["name", "msg", "args", "levelname", "levelno", "pathname", "filename", "module", "exc_info",
    "exc_text", "stack_info",
    "lineno", "funcName", "created", "msecs", "relativeCreated", "thread", "threadName", "processName", "process",
    "message", "asctime"]

/-- The first name that attributes cannot have. -/
def clash? (attributes : Context) : Option String := (Dict.keys attributes).find? reserved.contains

/-- The attribute that takes the place of the text of a record. No value can do so. -/
def textAttribute : String := "getMessage"

/-- The text of a record with these attributes. -/
def textWith (attributes : Context) (text : Except TemplateFault String) : Except TemplateFault String :=
  if Dict.contains attributes textAttribute then .error .wrongKind else text

/-- An attribute, or null. -/
def value (r : Record) (key : String) : Json := Dict.getD r.attributes key .null

/-- The name of a file, without the directories around it. -/
def fileName (path : String) : String := (path.splitOn "/").getLastD ""

/-- The name of a file without what follows its last dot. -/
def stem (name : String) : String :=
  match (name.toList.reverse.dropWhile (· != '.')).drop 1 with
  | [] => name
  | front => String.ofList front.reverse

/-- What a record holds besides its text and the attributes that it is given: the place where it was
made, and the message with its arguments as they were given. -/
def ownAttributes (path : String) (line : Int) (message : Json) (arguments : List Json) : Context :=
  [("msg", message), ("args", .str ("(" ++ Json.commaSeparated (arguments.map Json.display) ++
      (if arguments.length == 1 then ",)" else ")"))),
    ("pathname", .str path), ("filename", .str (fileName path)), ("module", .str (stem (fileName path))),
    ("lineno", .int line), ("funcName", .null), ("exc_info", .null), ("exc_text", .null), ("stack_info", .null),
    ("threadName", .str "MainThread"), ("processName", .str "MainProcess")]

/-! ## Lines -/

/-- How the lint is written in a line. -/
def lintMark (lint : Json) : String := if lint.truthy then " - [" ++ lint.message ++ "]" else ""

/-- The record with the lint as it is written in a line. -/
def decorated (r : Record) : Record :=
  let mark := lintMark (Dict.getD r.attributes Context.lintKey (.str ""))
  { r with attributes := Dict.insert r.attributes Context.lintKey (.str mark) }

/-- The values of a line. -/
def fields (r : Record) (clock text : String) : Dict Json :=
  Dict.merge r.attributes [("name", .str r.channel), ("levelname", Note.levelTitle r.level), ("levelno", r.level),
    ("message", .str text), ("asctime", .str clock)]

/-- The line of a record by a template, and the record afterwards. -/
def line? (r : Record) (template clock : String) : Except TemplateFault (String × Record) := do
  let r := r.decorated
  let text ← r.text
  return (← Template.fillNamed template (r.fields clock text), r)

/-- The lines of a record that is written `n` times by a template. -/
def lines (template clock : String) : Nat → Record → Except TemplateFault (List String)
  | 0, _ => .ok []
  | n + 1, r => do
    let (line, r) ← r.line? template clock
    return line :: (← lines template clock n r)

/-- The template of the lines on the console and in the log file. -/
def lineTemplate : String := "%(asctime)s - %(name)s - %(levelname)s%(lint)s - %(message)s"

/-! ## Which templates are accepted for lines -/

/-- The letters that a slot can end in, with what counts as another case of one of them. -/
def slotLetters : List Char := "diouxefgcrsa%İıſ".toList

/-- The text behind a width or precision at its start; decimal digits of any script count. -/
def afterSize : List Char → List Char
  | '*' :: rest => rest
  | cs => cs.dropWhile Text.isDecimal

/-- Whether a text starts with a slot that has a name. -/
def startsWithSlot (cs : List Char) : Bool :=
  match cs with
  | '%' :: '(' :: rest =>
    match rest.takeWhile Text.isWordChar, rest.dropWhile Text.isWordChar with
    | _ :: _, ')' :: rest =>
      let rest := afterSize (rest.dropWhile Template.flagChars.contains)
      let rest := match rest with
        | '.' :: behind => if (afterSize behind).length < behind.length then afterSize behind else rest
        | _ => rest
      rest.head?.any fun c => slotLetters.contains c.toLower
    | _, _ => false
  | _ => false

/-- Whether a template has a slot with a name anywhere. -/
def hasSlot : List Char → Bool
  | [] => false
  | c :: rest => startsWithSlot (c :: rest) || hasSlot rest

theorem lintMark_empty : lintMark (.str "") = "" := by decide +kernel

theorem value_decorated (r : Record) : r.decorated.value Context.lintKey =
    .str (lintMark (Dict.getD r.attributes Context.lintKey (.str ""))) := by
  simp [value, decorated, Dict.getD, Dict.get?_insert]

end Record

end NestLint
