/-!
# Spans and the expansions they come from

Every node of a tree has a span: a range of the source text, counted in characters, and the origin
of the text. Text written by hand comes from the root; every macro expansion is an origin of its
own, so two pieces of text belong together exactly when their origins are the same.

An origin is a `SyntaxContext`, and `Span` has `to`, `with_ctxt` and `from_expansion`;
`same_context` compares two spans, and `in_macro` asks for one whether it is from an expansion.

* `Origin.same`: origins are compared by number, never by the name of the macro;
* `Span.join_bounds`: a joined span reaches over both.
-/

namespace NestLint

/-- Where text comes from: number 0 is the text written by hand, every other number is one macro
expansion. -/
structure Origin where
  id : Int
  macroName : Option String := none
  deriving DecidableEq, Repr, Inhabited

namespace Origin

/-- The text written by hand. -/
def root : Origin := ⟨0, none⟩

/-- Whether this is text written by hand. -/
def isRoot (o : Origin) : Bool := o.id == 0

/-- Whether two origins are one expansion. The name of the macro takes no part. -/
def same (a b : Origin) : Bool := a.id == b.id

/-- The origin as it is shown in messages. -/
def text (o : Origin) : String :=
  if o.isRoot then "#root"
  else
    let name := match o.macroName with
      | some name => if name = "" then "?" else name
      | none => "?"
    "#" ++ toString o.id ++ "(" ++ name ++ "!)"

end Origin

/-- The text from character `lo` up to character `hi`, with its origin. -/
structure Span where
  lo : Int
  hi : Int
  origin : Origin := .root
  deriving DecidableEq, Repr, Inhabited

namespace Span

/-- The span in front of all text. -/
def dummy : Span := ⟨0, 0, .root⟩

/-- Whether the text comes from a macro expansion. -/
def fromExpansion (s : Span) : Bool := !s.origin.isRoot

/-- Whether two spans come from the same expansion. -/
def sameOrigin (a b : Span) : Bool := a.origin.same b.origin

/-- The span over both, with the origin of the first. -/
def join (a b : Span) : Span := ⟨min a.lo b.lo, max a.hi b.hi, a.origin⟩

/-- The same range with another origin. -/
def withOrigin (s : Span) (origin : Origin) : Span := { s with origin }

/-- The number of characters; none if the bounds are the wrong way round. -/
def length (s : Span) : Nat := (s.hi - s.lo).toNat

/-- The greatest length that can be asked for. -/
def maxLength : Nat := Nat.pow 2 63 - 1

/-- The number of characters, unless it is too large to be told. -/
def length? (s : Span) : Option Nat := if s.length ≤ maxLength then some s.length else none

/-- Whether two spans have the same bounds and the same origin. -/
def same (a b : Span) : Bool := a.lo == b.lo && a.hi == b.hi && a.sameOrigin b

/-- The span as it is shown in messages. -/
def text (s : Span) : String :=
  "Span(" ++ toString s.lo ++ ".." ++ toString s.hi ++ (if s.origin.isRoot then "" else " " ++ s.origin.text) ++ ")"

theorem join_bounds (a b : Span) :
    (a.join b).lo ≤ a.lo ∧ (a.join b).lo ≤ b.lo ∧ a.hi ≤ (a.join b).hi ∧ b.hi ≤ (a.join b).hi := by
  simp only [join]; omega

end Span

end NestLint
