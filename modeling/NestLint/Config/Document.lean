import NestLint.Files.Tree
import NestLint.Json.Parser
import NestLint.Json.Printer

/-!
# Documents in files

Options and projects are kept as JSON documents in files, written with one member or item a line.

Through these `RuleConfiguration`, `ProjectConfiguration` and `LintConfiguration` reach their files.

* `FileTree.readDocument`, `FileTree.writeDocument`: from and to a file.
-/

namespace NestLint

/-- What keeps a document from being read. -/
inductive DocumentFault where
  | file (fault : FileFault)
  /-- The text is no document. -/
  | malformed
  /-- There is a number with too many digits in the text. -/
  | tooLong
  deriving DecidableEq, Repr, Inhabited

/-- How a fault is called in notes. -/
def DocumentFault.title : DocumentFault → String
  | .file fault => fault.title
  | .malformed => "JSONDecodeError"
  | .tooLong => "ValueError"

/-- How documents are laid out in files. -/
def documentLayout : Json.Layout := .blanks 2

/-- What stands in a note for the fault itself. -/
def faultMark (title : String) : String := "<" ++ title ++ ">"

namespace FileTree

/-- The document in a file. -/
def readDocument (t : FileTree) (p : FilePath) : Except DocumentFault Json :=
  match t.readText p with
  | .error fault => .error (.file fault)
  | .ok text =>
    (Json.parse text).mapError fun
      | .malformed => .malformed
      | .tooLong => .tooLong

/-- A document is written to a file. The directories around it are made if they are missing. -/
def writeDocument (t : FileTree) (p : FilePath) (document : Json) : FileTree × Except FileFault Unit :=
  match t.makeDirectories p.parent with
  | (t, .error fault) => (t, .error fault)
  | (t, .ok ()) =>
    match t.writeText p (Json.print documentLayout document) with
    | .ok t => (t, .ok ())
    | .error fault => (t, .error fault)

end FileTree

end NestLint
