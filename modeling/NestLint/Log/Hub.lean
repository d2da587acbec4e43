import NestLint.Json.Misfit
import NestLint.Log.Context
import NestLint.Log.Level

/-!
# Channels

Channels have names with dots, and a channel stands below the channel whose name is the nearest
start of its own. A channel without a level of its own takes the level of the one above. What is
said on a channel goes to its outlets, and then to those of the channel above, as far as channels
pass records on.

The program's own channels keep the context: what is said on them carries what is going on. A
channel that somebody else made is replaced by one of the program's own when the program first asks
for it. The new one takes over the level, the outlets and the channel above; channels that were
below the old one stay below the old one.

The program's own channels are those of `getLogger`; `LevelFlag` is the flag that keeps an answer,
and `available_loggers`, `get_level` and `set_level` of `LoggerConfigurator` look at channels and
change their levels.

* `lineage`: a channel with all channels above;
* `effectiveLevel`, `isEnabled`: what is said at all;
* `Hub.lookUp`, `Hub.own`: channels by name;
* `Hub.test`: the answer that a flag keeps until levels change.
-/

namespace NestLint

/-- Where records go. -/
inductive Outlet where
  /-- Everything is recorded. -/
  | recorder
  /-- Nothing happens. -/
  | silence
  /-- The console of the program. -/
  | console
  /-- The log file with a number. -/
  | file (number : Nat)
  /-- The console, where nothing else takes a record: only the text is shown. -/
  | lastResort
  deriving DecidableEq, Repr, Inhabited

/-- The least level that an outlet takes. -/
def Outlet.threshold : Outlet → Int
  | .recorder | .silence => 0
  | .console => Note.infoLevel
  | .file _ => Note.debugLevel
  | .lastResort => Note.warningLevel

/-- A channel. -/
structure Channel where
  name : String
  level : Int := Note.inheritedLevel
  /-- Whether the level was given as a truth value. -/
  isTruth : Bool := false
  /-- The number of the channel above. -/
  above : Option Nat := none
  /-- Whether records are passed on to the channel above. -/
  passesOn : Bool := true
  outlets : List Outlet := []
  /-- Whether it is one of the program's own. -/
  keepsContext : Bool := false
  deriving Repr, Inhabited

/-- The channel at another level. -/
def Channel.withLevel (c : Channel) (level : Int) (isTruth : Bool := false) : Channel := { c with level, isTruth }

/-- The level of a channel as it was given. -/
def Channel.givenLevel (c : Channel) : Json := if c.isTruth then .bool (c.level != 0) else .int c.level

/-- What a name stands for. -/
inductive Standing where
  | channel (number : Nat)
  /-- No channel, but there are channels below. -/
  | waiting (below : List Nat)
  deriving DecidableEq, Repr, Inhabited

/-- An answer that is kept as long as no levels change. -/
structure KeptAnswer where
  /-- The generation of levels for which the answer holds. -/
  generation : Option Int := none
  answer : Bool := false
  deriving DecidableEq, Repr, Inhabited

/-- A kept answer to whether a channel is enabled for a level. -/
structure LevelFlag extends KeptAnswer where
  channel : String
  level : Int
  deriving DecidableEq, Repr, Inhabited

/-- How a flag is shown, whatever its channel and its level look like. -/
def flagText (channel level : Json) : String :=
  "<LevelFlag " ++ channel.message ++ ">=" ++ (Note.levelTitle level).message ++ ">"

/-- How a flag is shown. -/
def LevelFlag.text (f : LevelFlag) : String := flagText (.str f.channel) (.int f.level)

/-- All channels by number, and what the names stand for. Channel 0 is above all others. -/
structure Hub where
  channels : List Channel
  names : Dict Standing := []
  /-- Goes up whenever levels are changed. -/
  generation : Int := 0
  context : Context := []
  /-- A value that was put in the place of the context, and is none. -/
  displacing : Option Json := none
  /-- Whether a channel has been asked for under something that is no name. -/
  hasNameless : Bool := false
  /-- The flags that belong to channels, by channel and level. -/
  flags : List ((Nat × Int) × LevelFlag) := []
  deriving Repr, Inhabited

namespace Hub

/-- The number of the channel above all others. -/
def top : Nat := 0

/-- The name of the channel above all others. -/
def topName : String := "root"

/-- The channel with a number. -/
def channel? (h : Hub) (n : Nat) : Option Channel := h.channels[n]?

/-- The hub with a channel changed. -/
def change (h : Hub) (n : Nat) (f : Channel → Channel) : Hub := { h with channels := h.channels.modify n f }

/-! ## Levels and ways -/

/-- A channel with all channels above, nearest first, as far as `fuel` goes. -/
def lineageUpTo (h : Hub) : Nat → Option Nat → List Channel
  | fuel + 1, some n =>
    match h.channel? n with
    | some c => c :: lineageUpTo h fuel c.above
    | none => []
  | _, _ => []

/-- A channel with all channels above, nearest first. -/
def lineage (h : Hub) (n : Nat) : List Channel := h.lineageUpTo h.channels.length (some n)

/-- The level of the nearest channel that has one of its own. -/
def effectiveLevel (h : Hub) (n : Nat) : Int :=
  (((h.lineage n).map Channel.level).find? (· != Note.inheritedLevel)).getD Note.inheritedLevel

/-- The level of the nearest channel that has one of its own, as it was given. -/
def givenLevel (h : Hub) (n : Nat) : Json :=
  (((h.lineage n).find? fun c => c.level != Note.inheritedLevel).map Channel.givenLevel).getD (.int Note.inheritedLevel)

/-- Whether something of a level is said on a channel. -/
def isEnabled (h : Hub) (n : Nat) (level : Int) : Bool := decide (0 < level) && decide (h.effectiveLevel n ≤ level)

/-- The channels that a record passes: up to the first that does not pass it on. -/
def passed : List Channel → List Channel
  | [] => []
  | c :: rest => if c.passesOn then c :: passed rest else [c]

/-- The outlets that a record of a level reaches. Where there are none at all, there is a last
resort. -/
def outlets (h : Hub) (n : Nat) (level : Int) : List Outlet :=
  let all := (passed (h.lineage n)).flatMap Channel.outlets
  (if all.isEmpty then [.lastResort] else all).filter fun o => decide (o.threshold ≤ level)

/-! ## Channels by name -/

/-- The starts of a name, given backwards, that end before a dot: the longest first. Two dots in a
row count as one. -/
def startsOf (backwards : List Char) : List (List Char) :=
  match _ : backwards.dropWhile (· != '.') with
  | [] => []
  | _ :: start => if start.isEmpty then [] else start.reverse :: startsOf start.tail
termination_by backwards.length
decreasing_by
  rename_i h _
  have h₁ : (backwards.dropWhile (· != '.')).length ≤ backwards.length := (List.dropWhile_suffix _).length_le
  rw [h] at h₁
  simp only [List.length_tail, List.length_cons] at h₁ ⊢
  omega

/-- The names above a name, nearest first. -/
def namesAbove (name : String) : List String := (startsOf name.toList.reverse).map String.ofList

/-- Find the channel above channel `n` among `names`. Names that stand for no channel remember who
waits. -/
def attach (n : Nat) : List String → Dict Standing → Dict Standing × Nat
  | [], names => (names, top)
  | name :: rest, names =>
    match Dict.get? names name with
    | none => attach n rest (Dict.insert names name (.waiting [n]))
    | some (.waiting below) => attach n rest (Dict.insert names name (.waiting (below ++ [n])))
    | some (.channel m) => (names, m)

/-- Put channel `n` with a name above those of `below` that stand below something further up. -/
def adopt (h : Hub) (n : Nat) (name : String) (below : List Nat) : Hub :=
  { h with channels := h.channels.mapIdx fun i c =>
      match (c.above.bind h.channel?).map Channel.name with
      | some above => if below.contains i && !name.isPrefixOf above then { c with above := some n } else c
      | none => c }

/-- A new channel with a name, which stands for it from then on. -/
def create (h : Hub) (name : String) (below : List Nat) : Hub × Nat :=
  let n := h.channels.length
  let h := { h with channels := h.channels ++ [({ name } : Channel)], names := Dict.insert h.names name (.channel n) }
  let h := h.adopt n name below
  let (names, above) := attach n (namesAbove name) h.names
  ({ h with names }.change n fun c => { c with above := some above }, n)

/-- The channel with a name. It is made if there is none. -/
def lookUp (h : Hub) (name : String) : Hub × Nat :=
  if name = "" || name = topName then (h, top)
  else
    match Dict.get? h.names name with
    | some (.channel n) => (h, n)
    | some (.waiting below) => h.create name below
    | none => h.create name []

/-- The level of the program's channels, unless something else is said. -/
def defaultLevel : Int := Note.infoLevel

/-- The program's own channel in the place of another one, at a level. A channel without outlets
passes records on, so that they are not lost. -/
def replacing (c : Channel) (level : Int) (isTruth : Bool) : Channel :=
  { c.withLevel level isTruth with keepsContext := true, passesOn := c.passesOn || c.outlets.isEmpty }

/-- A channel more, which has a number only. -/
def append (h : Hub) (c : Channel) : Hub × Nat := ({ h with channels := h.channels ++ [c] }, h.channels.length)

/-- The program's own channel with a name. A channel of another kind is replaced; the level goes up
to `level` if it is lower. -/
def own (h : Hub) (name : String) (level : Int := defaultLevel) (isTruth : Bool := false) : Hub × Nat :=
  let (h, n) := h.lookUp name
  match h.channel? n with
  | none => (h, n)
  | some c =>
    if c.keepsContext then (h, n)
    else
      let new := if level ≤ c.level then replacing c c.level c.isTruth else replacing c level isTruth
      let (h, m) := h.append new
      ({ h with names := Dict.insert h.names name (.channel m) }, m)

/-- The program's own channel under something that is no name: another one each time, like the one
above all others. -/
def ownNameless (h : Hub) (level : Int := defaultLevel) (isTruth : Bool := false) : Hub × Nat :=
  let (hub, n) := h.own "" level isTruth
  ({ hub with names := h.names, hasNameless := true }, n)

/-- The program's own channels. -/
def ownNames : List String :=
  [Note.engineChannel, Note.treeChannel, Note.lintsChannel, Note.sessionChannel, Note.configChannel]

/-- The hub at the start: the channel above all others records everything, and the program's
channels exist. -/
def initial : Hub :=
  ownNames.foldl (fun h name => (h.own name).1)
    { channels := [{ name := topName, level := Note.warningLevel, outlets := [.recorder] }] }

/-! ## Changing levels -/

/-- Levels have changed. -/
def bump (h : Hub) : Hub := { h with generation := h.generation + 1 }

/-- Give a channel a level, without telling the flags. -/
def setLevel (h : Hub) (n : Nat) (level : Int) (isTruth : Bool := false) : Hub :=
  h.change n fun c => c.withLevel level isTruth

/-- Give a channel the level with a name; none if no level has it. -/
def setLevel? (h : Hub) (name levelName : String) : Option Hub :=
  (Note.levelNamed? levelName).map fun level =>
    let (h, n) := h.own name level
    (h.setLevel n level).bump

/-- Give several channels the level with a name; none if no level has it. -/
def setLevels? (h : Hub) (names : List String) (levelName : String) : Option Hub :=
  names.foldlM (fun h name => h.setLevel? name levelName) h

/-- The truth of a flag. It is found out again if levels have changed since. -/
def test (h : Hub) (f : LevelFlag) : Hub × LevelFlag :=
  if f.generation = some h.generation then (h, f)
  else
    let (h, n) := h.own f.channel
    (h, { f with generation := some h.generation, answer := h.isEnabled n f.level })

/-- The truth of the flag that belongs to a channel. -/
def testOwn (h : Hub) (n : Nat) (level : Int) : Hub × Bool :=
  let flag := match h.flags.find? fun entry => entry.1 == (n, level) with
    | some (_, flag) => flag
    | none => { channel := ((h.channel? n).map Channel.name).getD "", level }
  let (h, flag) := h.test flag
  ({ h with flags := h.flags.filter (fun entry => entry.1 != (n, level)) ++ [((n, level), flag)] }, flag.answer)

/-! ## Which channels there are -/

/-- The channels that are always known. -/
def declared : List String := [Note.engineChannel, Note.treeChannel, Note.lintsChannel, Note.sessionChannel]

/-- The names that stand for channels. -/
def channelNames (h : Hub) : List String :=
  h.names.filterMap fun
    | (name, .channel _) => some name
    | (_, .waiting _) => none

/-- Whether a name is one of `starts`, or below one of them. -/
def isUnder (fold : String → String) (starts : List String) (name : String) : Bool :=
  starts.any fun start => fold name == fold start || (fold start ++ ".").isPrefixOf (fold name)

/-- The known channels in order, or those of them at or below one of `starts`. -/
def available (h : Hub) (starts : Option (List String)) (fold : String → String) : List String :=
  let known := (h.channelNames ++ declared).eraseDups
  let wanted := match starts with
    | none => known
    | some starts => known.filter (isUnder fold starts)
  wanted.mergeSort fun a b => decide (a ≤ b)

/-! ## Lemmas -/

theorem test_generation (h : Hub) (f : LevelFlag) : (h.test f).2.generation = some (h.test f).1.generation := by
  unfold test
  split
  · assumption
  · rfl

theorem effectiveLevel_of_level {h : Hub} {n : Nat} {c : Channel} (hc : h.channel? n = some c)
    (hl : c.level ≠ Note.inheritedLevel) : h.effectiveLevel n = c.level := by
  have hpos : 0 < h.channels.length := by
    have := (List.getElem?_eq_some_iff.1 hc).1
    omega
  obtain ⟨fuel, hf⟩ : ∃ fuel, h.channels.length = fuel + 1 := ⟨h.channels.length - 1, by omega⟩
  simp [effectiveLevel, lineage, hf, lineageUpTo, hc, hl]

end Hub

end NestLint
