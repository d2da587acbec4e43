import NestLint.Json.Basic
import NestLint.Text.Quoted

/-!
# Writing documents

A document is written on one line, or with one member a line and a unit of indentation for each
level. All characters beyond ASCII are escaped, those above the first plane as two surrogates, so a
document is plain ASCII.

* `printLines_list_nil`, `printLines_object_nil`: empty containers stay on one line.
-/

namespace NestLint.Json

/-- The escape of one 16-bit unit. -/
def escapeUnit (n : Nat) : List Char := '\\' :: 'u' :: Text.hexDigits 4 n

/-- How a character is written inside a string. -/
def escapeChar (c : Char) : List Char :=
  let n := c.toNat
  if c = '"' || c = '\\' then ['\\', c]
  else if c = '\n' then ['\\', 'n']
  else if c = '\r' then ['\\', 'r']
  else if c = '\t' then ['\\', 't']
  else if n = 0x08 then ['\\', 'b']
  else if n = 0x0C then ['\\', 'f']
  else if 0x20 ≤ n && n < 0x7F then [c]
  else if n < 0x10000 then escapeUnit n
  else escapeUnit (0xD800 + (n - 0x10000) / 0x400) ++ escapeUnit (0xDC00 + (n - 0x10000) % 0x400)

/-- A string between double quotes. -/
def printString (text : String) : List Char := '"' :: text.toList.flatMap escapeChar ++ ['"']

/-- A number with a fraction; the special values have names of their own. -/
def printFloat : Binary64 → List Char
  | .notANumber => ['N', 'a', 'N']
  | .infinite negative => (if negative then ['-'] else []) ++ "Infinity".toList
  | x => x.text.toList

/-- A whole number in decimal. -/
def printInt (n : Int) : List Char := if n < 0 then '-' :: Nat.toDigits 10 n.natAbs else Nat.toDigits 10 n.natAbs

/-- A value that has no parts. -/
def printAtom : Json → List Char
  | .null => "null".toList
  | .bool b => if b then "true".toList else "false".toList
  | .int n => printInt n
  | .float x => printFloat x
  | .str s => printString s
  | .list _ | .object _ => []

/-- Texts with a separator between each two. -/
def separated (separator : List Char) : List (List Char) → List Char
  | [] => []
  | [text] => text
  | text :: rest => text ++ separator ++ separated separator rest

mutual

/-- The document on one line. -/
def printLine : Json → List Char
  | .list items => '[' :: separated [',', ' '] (printItems items) ++ [']']
  | .object members => '\x7b' :: separated [',', ' '] (printMembers members) ++ ['\x7d']
  | atom => printAtom atom

/-- The items of a list, each on its own. -/
def printItems : List Json → List (List Char)
  | [] => []
  | item :: rest => printLine item :: printItems rest

/-- The members of an object, each on its own. -/
def printMembers : List (String × Json) → List (List Char)
  | [] => []
  | (key, value) :: rest => (printString key ++ ':' :: ' ' :: printLine value) :: printMembers rest

end

/-- The start of a line at a level. -/
def lineStart (unit : List Char) (level : Nat) : List Char := '\n' :: (List.replicate level unit).flatten

/-- The parts of a container between its brackets, each on a line of its own. -/
def bracketed (unit : List Char) (level : Nat) (opening closing : Char) (parts : List (List Char)) : List Char :=
  if parts.isEmpty then [opening, closing]
  else opening :: lineStart unit (level + 1) ++ separated (',' :: lineStart unit (level + 1)) parts
    ++ lineStart unit level ++ [closing]

mutual

/-- The document over several lines, with `unit` as the indentation of one level. -/
def printLines (unit : List Char) (level : Nat) : Json → List Char
  | .list items => bracketed unit level '[' ']' (printItemLines unit (level + 1) items)
  | .object members => bracketed unit level '\x7b' '\x7d' (printMemberLines unit (level + 1) members)
  | atom => printAtom atom

/-- The items of a list at a level. -/
def printItemLines (unit : List Char) (level : Nat) : List Json → List (List Char)
  | [] => []
  | item :: rest => printLines unit level item :: printItemLines unit level rest

/-- The members of an object at a level. -/
def printMemberLines (unit : List Char) (level : Nat) : List (String × Json) → List (List Char)
  | [] => []
  | (key, value) :: rest =>
    (printString key ++ ':' :: ' ' :: printLines unit level value) :: printMemberLines unit level rest

end

/-- How a document is laid out. -/
inductive Layout where
  /-- On one line. -/
  | oneLine
  /-- One part a line, each level one `unit` further in. -/
  | indented (unit : String)
  deriving DecidableEq, Repr

/-- The layout with `n` blanks for each level; a negative number counts as none. -/
def Layout.blanks (n : Int) : Layout := .indented (String.ofList (List.replicate n.toNat ' '))

/-- What keeps a value from asking for a layout. -/
inductive LayoutFault where
  /-- It is of another kind. -/
  | wrongKind
  /-- The number of blanks is larger than any size. -/
  | tooLarge
  /-- There is no room for so many blanks. -/
  | tooWide
  deriving DecidableEq, Repr, Inhabited

/-- The first number that is larger than any size. -/
def sizeLimit : Int := Int.pow 2 63

/-- The number of blanks from which on there is no room for them. -/
def blankLimit : Int := Int.pow 2 40

/-- The layout with a number of blanks for each level, if that is possible. -/
def Layout.blanks? (n : Int) : Except LayoutFault Layout :=
  if n < -sizeLimit || sizeLimit ≤ n then .error .tooLarge
  else if blankLimit ≤ n then .error .tooWide
  else .ok (.blanks n)

/-- The layout that a value asks for: null for one line, a number of blanks, or a text for each
level. A truth value counts as a number, and `default` blanks stand in where nothing is asked for. -/
def Layout.ofDocument (default : Int) : Option Json → Except LayoutFault Layout
  | none => .ok (.blanks default)
  | some .null => .ok .oneLine
  | some (.str unit) => .ok (.indented unit)
  | some (.int n) => Layout.blanks? n
  | some (.bool b) => .ok (.blanks b.toInt)
  | some _ => .error .wrongKind

/-- The text of a document. -/
def print (layout : Layout) (value : Json) : String :=
  String.ofList (match layout with
    | .oneLine => printLine value
    | .indented unit => printLines unit.toList 0 value)

theorem printLines_list_nil (unit : List Char) (level : Nat) : printLines unit level (.list []) = ['[', ']'] := rfl

theorem printLines_object_nil (unit : List Char) (level : Nat) :
    printLines unit level (.object []) = ['\x7b', '\x7d'] := rfl

end NestLint.Json
