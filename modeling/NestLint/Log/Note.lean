/-!
# Notes

What the program has to say about its own work is a list of notes: the channel, how serious it is,
and the text. The parts of the program that take notes give them back as data; whether and where one
is shown is decided where the channels are.
-/

namespace NestLint

/-- A note on a channel. A higher level is more serious. -/
structure Note where
  channel : String
  level : Int
  text : String
  deriving DecidableEq, Repr, Inhabited

namespace Note

/-- The level of notes for those who look for the cause of something. -/
def debugLevel : Int := 10

/-- The level of notes on the normal course of work. -/
def infoLevel : Int := 20

/-- The level of notes on something doubtful. -/
def warningLevel : Int := 30

/-- The level of notes on something that failed. -/
def errorLevel : Int := 40

/-- The level of notes on something that makes going on pointless. -/
def criticalLevel : Int := 50

/-- The channel of the program as a whole. -/
def engineChannel : String := "IfCollapse"

/-- The channel of readers, patterns and the matcher. -/
def treeChannel : String := "IfCollapse.tree"

/-- The channel of the lint passes. -/
def lintsChannel : String := "IfCollapse.lints"

/-- The channel of lint sessions. -/
def sessionChannel : String := "IfCollapse.driver"

/-- The channel of options and projects. -/
def configChannel : String := "ifcollapse.core.config"

/-- A note for those who look for the cause of something. -/
def debug (channel text : String) : Note := ⟨channel, debugLevel, text⟩

/-- A note on the normal course of work. -/
def info (channel text : String) : Note := ⟨channel, infoLevel, text⟩

/-- A note on something doubtful. -/
def warning (channel text : String) : Note := ⟨channel, warningLevel, text⟩

/-- A note on something that failed. -/
def error (channel text : String) : Note := ⟨channel, errorLevel, text⟩

end Note

end NestLint
