import NestLint.Files.Tree
import NestLint.Log.Hub
import NestLint.Log.Record

/-!
# The host

The host is all that the program works on besides its input: the files, the channels, the console,
and what has been recorded. Whatever is said on a channel goes to the outlets that the channel
reaches, one after the other.

The outlets are set up by `configure_loggers`, and logs are removed by `clear_logs`.

* `Host.logOn`, `Host.enter`: something is said;
* `Host.setUp`: the console and a log file become the outlets of the program's channels;
* `Host.clearLogs`: a directory of logs is removed.
-/

namespace NestLint

/-- In which state a log file is. -/
inductive Opening where
  | opened
  /-- It is open but has been removed, so what is written to it is lost. -/
  | removed
  /-- It is opened again when somebody writes to it. -/
  | closed
  deriving DecidableEq, Repr, Inhabited

/-- A log file. -/
structure LogFile where
  location : Location
  opening : Opening := .opened
  deriving DecidableEq, Repr, Inhabited

/-- What the program works on. -/
structure Host where
  files : FileTree := {}
  hub : Hub := .initial
  logFiles : List LogFile := []
  console : String := ""
  recorded : List Record := []
  /-- What time it is. -/
  clock : String := ""

namespace Host

/-! ## Saying something -/

/-- What keeps something from being said. -/
inductive LogFault where
  /-- What stands in the place of the context is none, or what is said along with it does not fit. -/
  | misfit (fault : Misfit)
  /-- An attribute has a name that it cannot have. -/
  | reserved (name : String)
  | template (fault : TemplateFault)
  /-- A log file cannot be opened again. -/
  | file (fault : FileFault)
  deriving DecidableEq, Repr, Inhabited

/-- The host with a log file in another state. -/
def setOpening (h : Host) (number : Nat) (opening : Opening) : Host :=
  { h with logFiles := h.logFiles.modify number fun f => { f with opening } }

/-- The host with a log file open. -/
def reopen (h : Host) (number : Nat) : Except FileFault Host := do
  match h.logFiles[number]? with
  | some ⟨location, .closed⟩ =>
    let location ← h.files.follow [] location
    if h.files.stored? location = some .directory then throw .isDirectory
    return { h.setOpening number .opened with files := h.files.append location "" }
  | _ => return h

/-- The host with a text added to an open log file. -/
def writeLog (h : Host) (number : Nat) (text : String) : Host :=
  match h.logFiles[number]? with
  | some ⟨location, .opened⟩ => { h with files := h.files.append location text }
  | _ => h

/-- The line of a record, for an outlet that shows lines. A text that cannot be put together is left
out. -/
def lineOf (h : Host) (r : Record) : Option String × Record :=
  match r.line? Record.lineTemplate h.clock with
  | .ok (line, r) => (some (line ++ "\n"), r)
  | .error _ => (none, r.decorated)

/-- A record reaches an outlet. -/
def deliver (h : Host) (r : Record) (outlet : Outlet) : Host × Record × Except LogFault Unit :=
  match outlet with
  | .silence => (h, r, .ok ())
  | .recorder =>
    match r.text with
    | .ok _ => ({ h with recorded := h.recorded ++ [r] }, r, .ok ())
    | .error fault => (h, r, .error (.template fault))
  | .console =>
    let (line, r) := h.lineOf r
    ({ h with console := h.console ++ line.getD "" }, r, .ok ())
  | .file number =>
    match h.reopen number with
    | .error fault => (h, r, .error (.file fault))
    | .ok h =>
      let (line, r) := h.lineOf r
      (h.writeLog number (line.getD ""), r, .ok ())
  | .lastResort =>
    let text := match r.text with
      | .ok text => text ++ "\n"
      | .error _ => ""
    ({ h with console := h.console ++ text }, r, .ok ())

/-- A record reaches several outlets, up to the first where something goes wrong. -/
def deliverAll (h : Host) (r : Record) : List Outlet → Host × Except LogFault Unit
  | [] => (h, .ok ())
  | outlet :: rest =>
    match h.deliver r outlet with
    | (h, r, .ok ()) => deliverAll h r rest
    | (h, _, fault) => (h, fault)

/-- Something is said on a channel, with the attributes that it comes with. -/
def logOn (h : Host) (n : Nat) (level : Int) (given : Json) (text : Except TemplateFault String)
    (attributes : Unit → Fitting Context) : Host × Except LogFault Unit :=
  if h.hub.isEnabled n level then
    match attributes () with
    | .error fault => (h, .error (.misfit fault))
    | .ok attributes =>
      match Record.clash? attributes with
      | some key => (h, .error (.reserved key))
      | none =>
        let channel := ((h.hub.channel? n).map Channel.name).getD ""
        h.deliverAll ⟨channel, given, Record.textWith attributes text, attributes⟩ (h.hub.outlets n level)
  else (h, .ok ())

/-- A note is said in the context in which it was made. -/
def enter (h : Host) (e : Entry) : Host × Except LogFault Unit :=
  let (hub, n) := h.hub.own e.note.channel
  { h with hub }.logOn n e.note.level (.int e.note.level) (.ok e.note.text) fun () => .ok e.context

/-- Whether something of a level is said at all on one of the program's channels. -/
def isOpen (h : Host) (name : String) (level : Int) : Bool :=
  let (hub, n) := h.hub.own name
  hub.isEnabled n level

/-- The host without anything recorded. -/
def forget (h : Host) : Host := { h with recorded := [] }

/-- A note is said in the context of the moment, if that is possible. -/
def note (h : Host) (n : Note) : Host := (h.enter ⟨n, h.hub.context.current⟩).1

/-- Several notes are said. -/
def noteAll (h : Host) (notes : List Note) : Host := notes.foldl note h

/-- Several notes are said, each in the context in which it was made, up to the first that cannot
be. -/
def enterAll (h : Host) : List Entry → Host × Except LogFault Unit
  | [] => (h, .ok ())
  | e :: rest =>
    match h.enter e with
    | (h, .ok ()) => enterAll h rest
    | (h, fault) => (h, fault)

/-! ## Outlets -/

/-- The name of the log file. -/
def logFileName : String := "ifcollapse.log"

/-- The outlets of the program's channels: all go to the log file, some to the console too. -/
def outletsFor (number : Nat) (name : String) : List Outlet :=
  if name == Note.engineChannel || name == Note.sessionChannel then [.console, .file number] else [.file number]

/-- Channels below the declared ones, which lose what they had of their own. -/
def isBelowDeclared (name : String) : Bool :=
  !Hub.declared.contains name && Hub.declared.any fun above => (above ++ ".").isPrefixOf name

/-- The declared channels get a level and outlets and pass nothing on. Channels below them leave
everything to them. -/
def rewire (hub : Hub) (number : Nat) : Hub :=
  let settle (hub : Hub) (name : String) : Hub :=
    let (hub, n) := hub.lookUp name
    hub.change n fun c =>
      { c with level := Note.infoLevel, outlets := outletsFor number name, passesOn := false }
  let release (hub : Hub) (name : String) : Hub :=
    let (hub, n) := hub.lookUp name
    hub.change n fun c => { c with level := Note.inheritedLevel, outlets := [], passesOn := true }
  let below := hub.channelNames.filter isBelowDeclared
  (below.foldl release (Hub.declared.foldl settle hub)).bump

/-- What can go wrong when logs are set up. -/
inductive SetUpFault where
  /-- The directory cannot be made. -/
  | noDirectory (fault : FileFault)
  /-- The log file cannot be opened. -/
  | noFile
  /-- The channels cannot be put in order, because one is known under something that is no name. -/
  | noOrder
  deriving DecidableEq, Repr, Inhabited

/-- The program's channels go to the console and to a log file in a directory, which is made if it
is missing. Log files that were open before are closed; whoever still writes to one opens it
again. -/
def setUp (h : Host) (directory : FilePath) : Host × Except SetUpFault FilePath :=
  match h.files.makeDirectories directory with
  | (files, .error fault) => ({ h with files }, .error (.noDirectory fault))
  | (files, .ok ()) =>
    let path := directory.child logFileName
    let h := { h with files, logFiles := h.logFiles.map fun f => { f with opening := .closed } }
    match files.writable path with
    | .error _ => (h, .error .noFile)
    | .ok location =>
      let h := { h with files := files.append location "" }
      if h.hub.hasNameless then (h, .error .noOrder)
      else
        let hub := rewire h.hub h.logFiles.length
        ({ h with hub, logFiles := h.logFiles ++ [⟨location, .opened⟩] }, .ok path)

/-- The host when files have been removed. -/
def without (h : Host) (files : FileTree) : Host :=
  let isLost (f : LogFile) : Bool := f.opening = .opened && (files.stored? f.location).isNone
  { h with files, logFiles := h.logFiles.map fun f => if isLost f then { f with opening := .removed } else f }

/-- A directory of logs is removed, as far as that is possible. -/
def clearLogs (h : Host) (directory : FilePath) : Host := h.without (h.files.removeAll directory)

/-- The same for a path as it is written. -/
def clearLogsAt (h : Host) (directory : String) : Host := h.without (h.files.removeAllAt directory)

/-- The records since the host had `n` of them. -/
def recordsSince (h : Host) (n : Nat) : List Record := h.recorded.drop n

theorem noteAll_append (h : Host) (a b : List Note) : h.noteAll (a ++ b) = (h.noteAll a).noteAll b := by
  simp [noteAll, List.foldl_append]

end Host

end NestLint
