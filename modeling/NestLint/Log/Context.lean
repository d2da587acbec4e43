import NestLint.Json.Basic
import NestLint.Log.Note

/-!
# The context of notes

A note is written down together with what was going on at that moment: the lint whose pass is at
work and the file that is being checked. This context is a dictionary. It is never left empty:
without any other key it says that no lint is at work.

The context is the `mdc` of `IfCollapseLogger`, with `add_mdc`, `get_mdc`, `remove_mdc`,
`update_lint` and `reset_lint`.

* `Context.current`: what a note gets to see;
* `Entry`: a note with its context.
-/

namespace NestLint

/-- What is going on, under keys. -/
abbrev Context : Type := Dict Json

namespace Context

/-- The key of the lint at work. -/
def lintKey : String := "lint"

/-- The key of the file being checked. -/
def fileKey : String := "file"

/-- The context when nothing has been said. -/
def idle : Context := [(lintKey, .str "")]

/-- What a note gets to see. -/
def current (c : Context) : Context := if c.isEmpty then idle else c

/-- What is under a key. -/
def get? (c : Context) (key : String) : Option Json := Dict.get? c.current key

/-- The context with `value` under `key`. -/
def put (c : Context) (key : String) (value : Json) : Context := Dict.insert c.current key value

/-- The context without `key`. -/
def remove (c : Context) (key : String) : Context := Dict.erase c.current key

/-- The context while a lint is at work. -/
def enterLint (c : Context) (lint : Json) : Context := c.put lintKey lint

/-- The context when no lint is at work any more. -/
def leaveLint (c : Context) : Context := c.remove lintKey

/-- The context while a file is checked. -/
def enterFile (c : Context) (file : String) : Context := c.put fileKey (.str file)

/-- The context when the file is done with. -/
def leaveFile (c : Context) : Context := c.remove fileKey

end Context

/-- A note with the context in which it was made. -/
structure Entry where
  note : Note
  context : Context
  deriving Repr, Inhabited

end NestLint
