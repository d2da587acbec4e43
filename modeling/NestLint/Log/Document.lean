import NestLint.Log.Host
import NestLint.Text.Casing

/-!
# Logs as documents

A record is written with its channel, its level by name, the lint and the file at work, and its
text. A channel is written with its levels and its place among the others.

Documents may ask for channels by any value and set levels to any value. What is no name or no level
does not fit.

* `Hub.ownUnder`, `Hub.lookUpUnder`: the channel that a document asks for;
* `Hub.putUnder`, `Hub.valueUnder`, `Hub.removeUnder`: the context by keys that may be no names;
* `Host.logDocument`: something is said as a document declares it;
* `Record.formatted`: the lines of a record that a document declares.
-/

namespace NestLint

/-- The file and the lint of a context. -/
def Context.document (c : Context) : Json :=
  .object [(fileKey, (c.get? fileKey).getD .null), (lintKey, (c.get? lintKey).getD .null)]

/-- A level as a number or by its name, which is written in capitals, and whether it is a truth
value. -/
def Note.levelOf (value : Json) : Fitting (Int × Bool) :=
  match value with
  | .str name => Misfit.unknown.orElse ((Dict.get? levelNames name).map fun level => (level, false))
  | value => Misfit.wrongKind.orElse (value.whole?.map fun level => (level, value != .int level))

namespace Hub

/-! ## The context -/

/-- What a note gets to see, with whatever labels. -/
def contextPairs (h : Hub) : Fitting (List (Label × Json)) :=
  match h.displacing with
  | none => .ok (h.context.current.map fun entry => (.text entry.1, entry.2))
  | some value => value.pairs

/-- The context as a document. -/
def contextDocument (h : Hub) : Fitting Json := do
  return .object (Dict.ofList ((← h.contextPairs).map fun entry => (entry.1.memberName, entry.2)))

/-- The attributes of what is said along with something else. -/
def attributesWith (h : Hub) (extra : Json) : Fitting Context := do
  let context := Json.named (← h.contextPairs)
  if extra.truthy then return Dict.merge context (Json.named (← extra.pairs)) else return context

/-- The hub with a value in the place of the context. One that counts as nothing is the empty
context. -/
def setContext (h : Hub) (value : Json) : Hub :=
  match value with
  | .object members => { h with context := members, displacing := none }
  | value => { h with context := [], displacing := if value.truthy then some value else none }

/-- The hub with the context changed, or `misfit` if another value stands in its place. -/
def changeContext (h : Hub) (misfit : Misfit) (f : Context → Context) : Fitting Hub :=
  if h.displacing.isSome then .error misfit else .ok { h with context := f h.context }

/-- The hub with a value under a key of the context. -/
def putUnder (h : Hub) (key value : Json) : Fitting Hub := do
  let label ← key.needLabel
  h.changeContext .wrongKind (·.put label.memberName value)

/-- The value under a key of the context, or a default. -/
def valueUnder (h : Hub) (key default : Json) : Fitting Json := do
  if h.displacing.isSome then throw .lacking
  return (h.context.get? (← key.needLabel).memberName).getD default

/-- The hub without a key of the context. -/
def removeUnder (h : Hub) (key : Json) : Fitting Hub :=
  h.changeContext .lacking fun context => ((Label.ofDocument? key).map Label.memberName).elim context context.remove

/-! ## Channels -/

/-- Whether a level is at least as high as a value; none, if the value cannot be compared. -/
def reaches? (level : Int) (value : Json) : Option Bool := do
  let x ← (← Label.ofDocument? value).number?
  let y := Binary64.exactly level
  some (x.less y || x.same y)

/-- The level that a channel of the program's own has in the place of another one, given the level
that is asked for. -/
def raised (c : Channel) (level : Json) : Fitting (Int × Bool) :=
  match reaches? c.level level with
  | none => .error .wrongKind
  | some true => .ok (c.level, c.isTruth)
  | some false => Misfit.wrongKind.orElse (level.whole?.map fun n => (n, level != .int n))

/-- The channel under a value, made if there is none. What counts as nothing stands for the channel
above all others. -/
def lookUpUnder (h : Hub) : Json → Hub × Fitting Nat
  | .str name => let (h, n) := h.lookUp name; (h, .ok n)
  | value => (h, if value.truthy then .error .wrongKind else .ok top)

/-- The program's own channel under a value, at a level if it is new. -/
def ownUnder (h : Hub) (value : Json) (level : Json := .int defaultLevel) : Hub × Fitting Nat :=
  match h.lookUpUnder value, Label.ofDocument? value with
  | (h, .error misfit), _ => (h, .error misfit)
  | (h, .ok _), none => (h, .error .wrongKind)
  | (h, .ok n), some label =>
    match h.channel? n with
    | none => (h, .ok n)
    | some c =>
      if c.keepsContext then (h, .ok n)
      else
        match raised c level with
        | .error misfit => (h, .error misfit)
        | .ok (level, isTruth) =>
          let (h, n) := match label with
            | .text name => h.own name level isTruth
            | _ => h.ownNameless level isTruth
          (h, .ok n)

/-- Whether something of a level is said on a channel; none, if the level is no number. -/
def isEnabledFor? (h : Hub) (n : Nat) (level : Json) : Option Bool := do
  let x ← (← Label.ofDocument? level).number?
  let effective := Binary64.exactly (h.effectiveLevel n)
  some ((Binary64.exactly 0).less x && (effective.less x || effective.same x))

/-- The answer to whether the program's own channel under a value is enabled for a level. It is found
out again if levels have changed since. -/
def testUnder (h : Hub) (channel level : Json) (kept : KeptAnswer) : Hub × Fitting KeptAnswer :=
  if kept.generation = some h.generation then (h, .ok kept)
  else
    match h.ownUnder channel with
    | (h, .error misfit) => (h, .error misfit)
    | (h, .ok n) =>
      (h, Misfit.wrongKind.orElse ((h.isEnabledFor? n level).map fun answer => ⟨some h.generation, answer⟩))

/-- A channel as a document wants it: at a level, passing records on or not, and with an outlet more
where nothing happens. It may lack any of these. -/
def declare (h : Hub) (j : Json) : Hub × Fitting Nat :=
  match (j.need "name").map h.lookUpUnder with
  | .error misfit => (h, .error misfit)
  | .ok (h, .error misfit) => (h, .error misfit)
  | .ok (h, .ok n) =>
    match (j.get? "level").mapM Note.levelOf with
    | .error misfit => (h, .error misfit)
    | .ok given =>
      (h.change n fun c =>
        let c := given.elim c fun (level, isTruth) => c.withLevel level isTruth
        { c with
          passesOn := j.isOn "propagate" c.passesOn
          outlets := c.outlets ++ if j.isOn "handler" then [.silence] else [] }, .ok n)

/-- The names that a document asks for, with all below them: one, several, or null for all there
are. -/
def startsIn : Json → Fitting (Option (List String))
  | .null => .ok none
  | .str start => .ok (some [start])
  | value => do return some (← (← value.needParts).mapM fun start => Misfit.wrongKind.orElse start.str?)

/-- The known channels that a document asks for. What is known under something that is no name can
be put in no order, has no parts, and has no case. -/
def availableIn (h : Hub) (starts : Json) (folds : Bool) : Fitting (List String) := do
  let starts ← startsIn starts
  if h.hasNameless then
    if starts.isNone || folds then throw .wrongKind
    if starts != some [] then throw .lacking
  return h.available starts (if folds then Text.lower else id)

/-- What there is to know about a channel. All but the one above all others stand below one. -/
def document (h : Hub) (n : Nat) : Fitting Json := Misfit.lacking.orElse do
  let c ← h.channel? n
  let above ← c.above.bind h.channel?
  some (.object [("class", .str (if c.keepsContext then "IfCollapseLogger" else "Logger")), ("name", .str c.name),
    ("level", c.givenLevel), ("effective", h.givenLevel n), ("propagate", .bool c.passesOn),
    ("parent", .str above.name), ("handlers", .int c.outlets.length)])

end Hub

/-! ## Records -/

namespace Record

/-- What is shown in the place of a text that differs from run to run, which its first characters
tell. -/
def maskOf (text : String) : Option String :=
  if "Traceback ".isPrefixOf text then some "<traceback>"
  else if "  File \"".isPrefixOf text then some "<frame>"
  else none

/-- The text of the record; nothing, if it cannot be put together. -/
def shownText (r : Record) : String :=
  match r.text with
  | .ok text => (maskOf text).getD text
  | .error _ => ""

/-- The record as a document. -/
def document (r : Record) : Json :=
  .object [("logger", .str r.channel), ("level", Note.levelTitle r.level), ("lint", r.value Context.lintKey),
    ("file", r.value Context.fileKey), ("message", .str r.shownText)]

/-- What keeps the lines of a record from being written. -/
inductive FormatFault where
  | misfit (fault : Misfit)
  /-- The template has no slot with a name. -/
  | noSlot
  /-- An attribute has a name that it cannot have. -/
  | reserved (name : String)
  | template (fault : TemplateFault)
  deriving DecidableEq, Repr, Inhabited

/-- The message of a document with its arguments. -/
def messageOf (j : Json) (arguments : List Json) : Except TemplateFault String :=
  Template.message (j.member "msg").message arguments

/-- The record on a channel that a document declares. It was made at a line of a file. -/
def declared (h : Hub) (channel path : String) (line : Int) (j : Json) : Except FormatFault Record := do
  let arguments ← (j.partsAt "args").mapError .misfit
  let attributes ← (h.attributesWith (j.member "extra")).mapError .misfit
  let level := (j.get? "level").getD (.int Note.infoLevel)
  let _ ← level.needLabel.mapError FormatFault.misfit
  match clash? attributes with
  | some name => throw (.reserved name)
  | none =>
    let own := ownAttributes path line (j.member "msg") arguments
    return ⟨channel, level, textWith attributes (messageOf j arguments), Dict.merge own attributes⟩

/-- The template that a document gives for lines. -/
def templateOf (j : Json) : Except FormatFault String := do
  let template := j.member "format"
  let template ←
    if template.truthy then (Misfit.wrongKind.orElse template.str?).mapError .misfit
    else pure "%(message)s"
  if hasSlot template.toList then return template else throw .noSlot

/-- The lines of the record that a document declares. -/
def formatted (h : Hub) (clock channel path : String) (line : Int) (j : Json) : Except FormatFault (List String) := do
  let record ← declared h channel path line j
  let template ← templateOf j
  let times ← (Misfit.wrongKind.orElse ((j.get? "times").getD (.int 1)).whole?).mapError .misfit
  (record.lines template clock times.toNat).mapError .template

end Record

/-- Something is said on a channel as a document declares it. -/
def Host.logDocument (h : Host) (n : Nat) (j : Json) : Host × Except LogFault Unit :=
  let declared : Fitting (Int × List Json) := do
    let level ← j.need "level"
    let arguments ← j.partsAt "args"
    return (← Misfit.wrongKind.orElse level.whole?, arguments)
  match declared with
  | .error misfit => (h, .error (.misfit misfit))
  | .ok (level, arguments) =>
    h.logOn n level (j.member "level") (Record.messageOf j arguments) fun () => h.hub.attributesWith (j.member "extra")

end NestLint
