import NestLint.Log.Note
import NestLint.Tree.Node

/-!
# Patterns

A pattern says what a node, or a place where a node may be missing, has to look like. Patterns of a
fixed form ask for one kind of node; the others combine patterns or look at nothing.

The forms are `AnyPat`, `NonePat`, `OptPat`, `OrPat`, `AndPat`, `KindPat`, `IfPat`, `IfLetPat`,
`BlockPat`, `ExprStmtPat` and `SemiStmtPat`, and `BasePat` itself; the options of all of them are
those of `BasePat`.

* `Pattern.requiredKind`: the kind that an item must have before anything else is looked at;
* `Pattern.oneOf`: alternatives, with alternatives that capture nothing taken apart.
-/

namespace NestLint

/-- What every pattern may have: a name to capture the item under, a required kind, and notes for
those who look for the cause of a match. A pattern of a fixed form has a required kind of its
own. -/
structure PatternOptions where
  name : Option String := none
  kind : Option Kind := none
  traced : Bool := false
  remark : Option String := none
  depth : Int := 0
  deriving DecidableEq, Repr, Inhabited

/-- What a pattern that cannot be checked lacks. -/
inductive Lack where
  /-- There is no rule. -/
  | rule
  /-- There is no pattern at all where one is needed. -/
  | pattern
  deriving DecidableEq, Repr, Inhabited

/-- The patterns. -/
inductive Pattern where
  /-- Anything; whether also nothing. -/
  | any (options : PatternOptions) (acceptsNothing : Bool)
  /-- Nothing. -/
  | absent (options : PatternOptions)
  /-- Nothing, or what the pattern says. -/
  | optional (options : PatternOptions) (pattern : Pattern)
  /-- The first alternative that succeeds. -/
  | either (options : PatternOptions) (patterns : List Pattern)
  /-- All of the patterns, on one item. -/
  | all (options : PatternOptions) (patterns : List Pattern)
  /-- A node of a kind. -/
  | kind (options : PatternOptions) (kind : Kind)
  /-- An `if`. -/
  | ifThen (options : PatternOptions) (cond body els : Pattern)
  /-- An `if let`. -/
  | ifLet (options : PatternOptions) (pat scrutinee body els : Pattern)
  /-- A block of exactly as many statements as there are patterns. -/
  | block (options : PatternOptions) (stmts : List Pattern)
  /-- A statement that is an expression, without or with a semicolon. -/
  | stmt (options : PatternOptions) (closed : Bool) (node : Pattern)
  /-- A pattern that cannot be checked. -/
  | bare (options : PatternOptions) (lack : Lack)
  deriving Repr, Inhabited

namespace Pattern

/-- The options of a pattern. -/
def options : Pattern → PatternOptions
  | .any o _ | .absent o | .optional o _ | .either o _ | .all o _ | .kind o _ | .ifThen o .. | .ifLet o .. | .block o _
  | .stmt o .. | .bare o _ => o

/-- The pattern with other options. -/
def withOptions (o : PatternOptions) : Pattern → Pattern
  | .any _ b => .any o b
  | .absent _ => .absent o
  | .optional _ p => .optional o p
  | .either _ ps => .either o ps
  | .all _ ps => .all o ps
  | .kind _ k => .kind o k
  | .ifThen _ a b c => .ifThen o a b c
  | .ifLet _ a b c d => .ifLet o a b c d
  | .block _ ps => .block o ps
  | .stmt _ b p => .stmt o b p
  | .bare _ lack => .bare o lack

/-- The pattern with a name to capture under. -/
def named (p : Pattern) (name : String) : Pattern := p.withOptions { p.options with name := some name }

/-- The kind of node that the form of a pattern asks for. -/
def formKind : Pattern → Option Kind
  | .ifThen .. => some .ifThen
  | .ifLet .. => some .ifLet
  | .block .. => some .block
  | .stmt .. => some .stmt
  | _ => none

/-- The kind that an item must have. -/
def requiredKind (p : Pattern) : Option Kind :=
  match p with
  | .kind _ k => some k
  | p => p.formKind.or p.options.kind

/-- Whether the required kind follows from the form of a pattern, so that no other can be asked
for. -/
def hasFixedKind : Pattern → Bool
  | .kind .. => true
  | p => p.formKind.isSome

/-- The form of the statements that a pattern for statements accepts. -/
def stmtForm (closed : Bool) : StmtForm := if closed then .semi else .expr

/-- The name of the form of a pattern. -/
def title : Pattern → String
  | .any .. => "AnyPat"
  | .absent .. => "NonePat"
  | .optional .. => "OptPat"
  | .either .. => "OrPat"
  | .all .. => "AndPat"
  | .kind .. => "KindPat"
  | .ifThen .. => "IfPat"
  | .ifLet .. => "IfLetPat"
  | .block .. => "BlockPat"
  | .stmt _ closed _ => if closed then "SemiStmtPat" else "ExprStmtPat"
  | .bare .. => "BasePat"

/-! ## Building patterns -/

/-- Anything at all. -/
def wildcard : Pattern := .any {} true

/-- No pattern where one is needed. -/
def missing : Pattern := .bare {} .pattern

/-- Whether there is no pattern at all. -/
def isMissing : Pattern → Bool
  | .bare _ .pattern => true
  | _ => false

/-- Anything at all, captured under `name` if there is something. -/
def capture (name : String) : Pattern := .any { name := some name } true

/-- The alternatives that a pattern stands for: alternatives that capture nothing are taken
apart. -/
def alternatives : Pattern → List Pattern
  | .either o ps => if o.name.isNone then ps else [.either o ps]
  | p => [p]

/-- Alternatives, in the order in which they are tried. -/
def oneOf (o : PatternOptions) (ps : List Pattern) : Pattern := .either o (ps.flatMap alternatives)

/-- What is noted when alternatives are built from `ps`. -/
def oneOfNotes (ps : List Pattern) : List Note :=
  if ps.length ≤ 1 then [.warning Note.treeChannel "OrPat built from fewer than two alternatives"] else []

/-- What is noted when a conjunction is built from `ps`. -/
def allNotes (ps : List Pattern) : List Note :=
  if ps.length ≤ 1 then [.warning Note.treeChannel "AndPat built from fewer than two sub-patterns"] else []

theorem options_withOptions (o : PatternOptions) (p : Pattern) : (p.withOptions o).options = o := by cases p <;> rfl

theorem formKind_withOptions (o : PatternOptions) (p : Pattern) : (p.withOptions o).formKind = p.formKind := by
  cases p <;> rfl

end Pattern

end NestLint
