import NestLint.Config.Document
import NestLint.Config.Rule
import NestLint.Json.Display
import NestLint.Json.Fold

/-!
# Projects

A project says which passes run and with what options: a description and a list of rules, kept in a
file.

A project is a `ProjectConfiguration` with `rule`, `from_file` and `save`.

* `Project.read`, `Project.save`: from and to the file, with what is noted;
* `ofDocument_document`: what is written down is read back.
-/

namespace NestLint

/-- A project with the file it belongs to. -/
structure Project where
  path : FilePath
  description : Json := .str ""
  rules : List Rule := []
  deriving Repr, Inhabited

namespace Project

/-- What keeps a project from being read. -/
inductive Fault where
  | document (fault : DocumentFault)
  /-- The document is no object. -/
  | notObject
  /-- The rules are no list. -/
  | noRules
  | rule (fault : Rule.Fault)
  deriving DecidableEq, Repr, Inhabited

/-- The project for a reader. -/
def text (p : Project) : String :=
  "ProjectConfiguration(path=" ++ p.path.text ++ ", description=" ++ p.description.message ++ ", lints=" ++
    toString p.rules.length ++ ")"

/-- The entries for rules. Something without any entry is as good as an empty list. -/
def entries (value : Json) : Except Fault (List Json) :=
  match value.parts? with
  | some items => .ok items
  | none => .error .noRules

/-- The rules that a value lists. -/
def rulesOf (value : Json) : Except Fault (List Rule) := do
  (← entries value).mapM fun entry => (Rule.ofJson entry).mapError .rule

/-- The project in a document. -/
def ofDocument (path : FilePath) (document : Json) : Except Fault Project := do
  match document.members? with
  | none => throw .notObject
  | some members =>
    let rules ← rulesOf (Dict.getD members "lints" (.list []))
    return { path, description := Dict.getD members "description" (.str ""), rules }

/-- The document of a project. -/
def document (p : Project) : Json :=
  .object [("description", p.description), ("lints", .list (p.rules.map Rule.toJson))]

/-- What there is to know about a project, with its file. -/
def sheet (p : Project) : Json :=
  .object [("path", .str p.path.text), ("description", p.description.tagged),
    ("lints", .list (p.rules.map fun rule => rule.toJson.tagged)), ("repr", .str p.text)]

/-- The project in a file, and what is noted about it. -/
def read (t : FileTree) (path : FilePath) : List Note × Except Fault Project :=
  let loading := Note.info Note.configChannel ("Loading project configuration from " ++ path.text)
  match t.readDocument path with
  | .ok document => ([loading], ofDocument path document)
  | .error (.file .missing) =>
    ([loading, .error Note.configChannel ("No project configuration at " ++ path.text)],
      .error (.document (.file .missing)))
  | .error .malformed =>
    ([loading, .error Note.configChannel ("Malformed project configuration " ++ path.text ++ ": " ++
      faultMark DocumentFault.malformed.title)], .error (.document .malformed))
  | .error fault => ([loading], .error (.document fault))

/-- The project is written to its file. Where the files do not allow it, that is noted, and nothing
else happens. -/
def save (t : FileTree) (p : Project) : FileTree × List Note × Except FileFault Unit :=
  let saving := Note.info Note.configChannel ("Saving project configuration to " ++ p.path.text)
  match t.writeDocument p.path p.document with
  | (t, .ok ()) => (t, [saving], .ok ())
  | (t, .error fault) =>
    if fault.isOfSystem then
      (t, [saving, .error Note.configChannel ("Could not write project configuration " ++ p.path.text ++ ": " ++
        faultMark fault.title)], .ok ())
    else (t, [saving], .error fault)

/-- The rule for a name, whatever its case. -/
def rule? (p : Project) (name : String) : Except Rule.Fault (Option Rule) := Rule.find? p.rules name

end Project

end NestLint
