import NestLint.Config.Options
import NestLint.Lint.Session
import NestLint.Log.Host

/-!
# Sessions on a host

The options say where logs go, whether old ones are removed, and which project applies. What a
session notes is said on the host, and the context stays there.

The start is `LintDriver.from_configuration`, and a check on the host is `LintDriver.check_tree`.

* `Session.start`: the logs are set up, and the passes that the project leaves on are selected;
* `Session.checkOn`: one file is checked.
-/

namespace NestLint

namespace Session

/-- What keeps a session from starting. -/
inductive StartFault where
  | options (fault : Options.Fault)
  | logs (fault : Host.SetUpFault)
  | project (fault : Project.Fault)
  | rule (fault : Rule.Fault)
  deriving DecidableEq, Repr, Inhabited

/-- Old logs are removed if the options ask for it. -/
def eraseLogs (h : Host) (o : Options) : Host × Options × Except StartFault Unit :=
  match o.getD Options.eraseLogsKey .null with
  | .error fault => (h, o, .error (.options fault))
  | .ok value =>
    if value.truthy then
      match o.logDirectory with
      | (o, .error fault) => (h, o, .error (.options fault))
      | (o, .ok directory) => (h.clearLogs directory, o, .ok ())
    else (h, o, .ok ())

/-- Logs are set up where the options want them. -/
def setUpLogs (h : Host) (o : Options) : Host × Options × Except StartFault Unit :=
  match o.logDirectory with
  | (o, .error fault) => (h, o, .error (.options fault))
  | (o, .ok directory) =>
    match h.setUp directory with
    | (h, .error fault) => (h, o, .error (.logs fault))
    | (h, .ok file) => (h.note (.info Note.sessionChannel ("Logging to " ++ file.text)), o, .ok ())

/-- The rules of the project that the options ask for. -/
def loadRules (h : Host) (o : Options) : Host × Except StartFault (List Rule) :=
  match o.loadProject h.files with
  | (notes, .error (.options fault)) => (h.noteAll notes, .error (.options fault))
  | (notes, .error (.project fault)) => (h.noteAll notes, .error (.project fault))
  | (notes, .ok (some project)) => (h.noteAll notes, .ok project.rules)
  | (notes, .ok none) =>
    let absent := Note.info Note.sessionChannel "No project configured, running every lint at its default level"
    (h.noteAll (notes ++ [absent]), .ok [])

/-- The passes of a session that is started from options. -/
def start (h : Host) (o : Options) (passes : List Pass) : Host × Options × Except StartFault (List Pass) :=
  match eraseLogs h o with
  | (h, o, .error fault) => (h, o, .error fault)
  | (h, o, .ok ()) =>
    match setUpLogs h o with
    | (h, o, .error fault) => (h, o, .error fault)
    | (h, o, .ok ()) =>
      match loadRules h o with
      | (h, .error fault) => (h, o, .error fault)
      | (h, .ok rules) =>
        let (notes, selected) := select rules passes
        (h.noteAll notes, o, selected.mapError .rule)

/-- A step of a matcher that works outside a session is followed: what is noted is said, and a pass
that is offered a node is at work from then on. -/
def followOn (h : Host) : Step Occurrence → Host
  | .note n => h.note n
  | .told (.candidate lint) => { h with hub := { h.hub with context := h.hub.context.enterLint lint.document } }
  | _ => h

/-- The host after a check that went as far as `progress`: what was noted is said, up to what cannot
be said, and the context stays. -/
def settle (h : Host) (progress : Progress) : Host × Except Host.LogFault Unit :=
  let (h, entered) := h.enterAll progress.entries
  ({ h with hub := { h.hub with context := progress.context } }, entered)

/-- Check a file with some passes: the findings and what occurred, unless something cannot be said. -/
def checkOn (h : Host) (passes : List Pass) (root : Node) (source : SourceText) (sink : Sink) :
    Host × Except Host.LogFault (List Diagnostic × List Occurrence) :=
  let (found, progress) := check passes h.hub.context root source sink
  let (h, entered) := settle h progress
  (h, entered.map fun () => (found, progress.occurrences))

/-- Examine what is left of a torn tree, up to the gap: what occurred. -/
def breakOffOn (h : Host) (passes : List Pass) (rest : Node) (source : SourceText) : Host × List Occurrence :=
  let progress := (examine passes h.hub.context rest source).2
  ((settle h progress).1, progress.occurrences)

end Session

end NestLint
