import NestLint.Config.Project

/-!
# Options

Options are a JSON document in a file. They name the project, the directory of the logs, and whether
logs are removed at the start. Whatever the file holds is taken as it is, so it may turn out to be
no object only when an option is asked for.

The options are `LintConfiguration` with `_load`, `save`, `get`, `set`, `log_dir` and
`load_project`; `default_log_dir` is what `log_dir` falls back to.

* `Options.load`: from the file;
* `Options.logDirectory`, `Options.loadProject`: what the options ask for.
-/

namespace NestLint

/-- The options with the file they belong to and the directory of the user. -/
structure Options where
  userDirectory : FilePath
  file : FilePath
  values : Json := .object []
  deriving Repr, Inhabited

namespace Options

/-- What can be wrong with an option. -/
inductive Fault where
  /-- There are no options to look through, as the values are no object. -/
  | noOptions
  /-- An option cannot be picked out or set, as the values are no object. -/
  | notIndexed
  /-- There is no such option. -/
  | noSuchOption
  /-- The value is no text where a path is wanted. -/
  | notPath
  deriving DecidableEq, Repr, Inhabited

/-- The name of the file in the directory of the user. -/
def fileName : String := "options.json"

/-- The name of the directory of logs in the directory of the user. -/
def logsName : String := "logs"

/-- The option that names the project. -/
def projectKey : String := "project"

/-- The option that says where logs are kept. -/
def logDirectoryKey : String := "log_dir"

/-- The option that asks for old logs to be removed. -/
def eraseLogsKey : String := "erase_logs_on_reload"

/-- Where logs are kept unless an option says otherwise. -/
def defaultLogDirectory (userDirectory : FilePath) : FilePath := userDirectory.child logsName

/-! ## From and to the file -/

/-- The options in a file, by default that in the directory of the user, and what is noted about
them. Without a file, or if it holds no document, there are no options. -/
def load (t : FileTree) (userDirectory : FilePath) (file : Option FilePath) :
    List Note × Except DocumentFault Options :=
  let file := file.getD (userDirectory.child fileName)
  let fallBack := Note.warning Note.configChannel "Falling back to default options"
  match t.readDocument file with
  | .ok values =>
    ([.info Note.configChannel ("Loaded options from " ++ file.text)], .ok { userDirectory, file, values })
  | .error (.file .missing) =>
    ([.debug Note.configChannel ("No options file at " ++ file.text), fallBack], .ok { userDirectory, file })
  | .error .malformed =>
    ([.error Note.configChannel ("Malformed options file " ++ file.text), fallBack], .ok { userDirectory, file })
  | .error fault => ([], .error fault)

/-- The options are written to their file. Where the files do not allow it, that is noted, and
nothing else happens. -/
def save (t : FileTree) (o : Options) : FileTree × List Note × Except FileFault Unit :=
  match t.writeDocument o.file o.values with
  | (t, .ok ()) => (t, [.info Note.configChannel ("Options saved to " ++ o.file.text)], .ok ())
  | (t, .error fault) =>
    if fault.isOfSystem then
      (t, [.error Note.configChannel ("Could not write options to " ++ o.file.text ++ ": " ++ faultMark fault.title)],
        .ok ())
    else (t, [], .error fault)

/-! ## Single options -/

/-- An option, or a value in its place. -/
def getD (o : Options) (name : String) (fallback : Json) : Except Fault Json :=
  match o.values.members? with
  | some members => .ok (Dict.getD members name fallback)
  | none => .error .noOptions

/-- An option that is there. -/
def get (o : Options) (name : String) : Except Fault Json :=
  match o.values.members? with
  | none => .error .notIndexed
  | some members =>
    match Dict.get? members name with
    | some value => .ok value
    | none => .error .noSuchOption

/-- The options with one of them set. -/
def set (o : Options) (name : String) (value : Json) : Except Fault Options :=
  match o.values.members? with
  | none => .error .notIndexed
  | some members => .ok { o with values := .object (Dict.insert members name value) }

theorem get_set {o o' : Options} {name : String} {value : Json} (h : o.set name value = .ok o') :
    o'.get name = .ok value := by
  unfold set at h
  split at h
  · cases h
  · cases h; simp [get, Json.members?, Dict.get?_insert]

/-! ## What the options ask for -/

/-- A value as a path. -/
def path : Json → Except Fault FilePath
  | .str text => .ok (.ofText text)
  | _ => .error .notPath

/-- The directory of logs. An option that is not set is set to the default. -/
def logDirectory (o : Options) : Options × Except Fault FilePath :=
  match o.getD logDirectoryKey .null with
  | .error fault => (o, .error fault)
  | .ok value =>
    if value.truthy then (o, path value)
    else
      let directory := defaultLogDirectory o.userDirectory
      match o.set logDirectoryKey (.str directory.text) with
      | .ok o => (o, .ok (.ofText directory.text))
      | .error fault => (o, .error fault)

/-- What keeps the project of the options from being loaded. -/
inductive LoadFault where
  | options (fault : Fault)
  | project (fault : Project.Fault)
  deriving DecidableEq, Repr, Inhabited

/-- Whether a fault means that there is no project rather than a wrong one. -/
def isNoProject : Project.Fault → Bool
  | .document (.file .missing) | .document .malformed => true
  | _ => false

/-- The project that the options ask for, if they do and there is one. -/
def loadProject (t : FileTree) (o : Options) : List Note × Except LoadFault (Option Project) :=
  match o.getD projectKey .null with
  | .error fault => ([], .error (.options fault))
  | .ok value =>
    if value.truthy then
      match path value with
      | .error fault => ([], .error (.options fault))
      | .ok name =>
        match Project.read t (o.userDirectory.join name) with
        | (notes, .ok project) => (notes, .ok (some project))
        | (notes, .error fault) =>
          (notes, if isNoProject fault then .ok none else .error (.project fault))
    else ([], .ok none)

end Options

end NestLint
