import NestLint.Match.Captures
import NestLint.Match.Pattern
import NestLint.Tree.Site

/-!
# What a pattern means

The meaning of a pattern is a function from captures to captures: on an item and the captures so
far, it fails or gives the captures after it. Failure leaves nothing behind, a conjunction hands the
captures on from left to right, and of alternatives the first that succeeds counts, each starting
from the same captures.

* `Pattern.eval`: the meaning of a pattern.
-/

namespace NestLint

namespace Pattern

/-- The captures with `name`, if there is one, given to `site`. -/
def take (name : Option String) (site : Site) (captures : Captures Site) : Option (Captures Site) :=
  match name with
  | none => some captures
  | some name =>
    let (captures, done) := Captures.bind captures name (some site)
    if done then some captures else none

/-- The item, if it is there and has the kind that a pattern requires. -/
def admitted (p : Pattern) (item : Option Site) : Option Site :=
  item.filter fun site => p.requiredKind.all (· == site.kind)

mutual

/-- The meaning of a pattern. A pattern that cannot be checked means nothing. -/
def eval : Pattern → Option Site → Captures Site → Option (Captures Site)
  | .any o acceptsNothing, item, c =>
    match item with
    | none => if acceptsNothing then some c else none
    | some site => take o.name site c
  | .absent _, item, c => if item.isNone then some c else none
  | .optional o p, item, c =>
    match item with
    | none => some c
    | some site => (eval p (some site) c).bind (take o.name site)
  | .either o ps, item, c =>
    (admitted (.either o ps) item).bind fun site => (evalFirst ps site c).bind (take o.name site)
  | .all o ps, item, c => (admitted (.all o ps) item).bind fun site => (evalAll ps site c).bind (take o.name site)
  | .kind o k, item, c => (admitted (.kind o k) item).bind fun site => take o.name site c
  | .ifThen o pc pb pe, item, c =>
    (admitted (.ifThen o pc pb pe) item).bind fun site =>
      site.ifParts?.bind fun (cond, body, els) =>
        (((eval pc cond c).bind (eval pb body)).bind (eval pe els)).bind (take o.name site)
  | .ifLet o pp ps pb pe, item, c =>
    (admitted (.ifLet o pp ps pb pe) item).bind fun site =>
      site.ifLetParts?.bind fun (pat, scrutinee, body, els) =>
        ((((eval pp pat c).bind (eval ps scrutinee)).bind (eval pb body)).bind (eval pe els)).bind (take o.name site)
  | .block o ps, item, c =>
    (admitted (.block o ps) item).bind fun site =>
      site.stmts?.bind fun stmts => (evalEach ps stmts c).bind (take o.name site)
  | .stmt o closed p, item, c =>
    (admitted (.stmt o closed p) item).bind fun site =>
      site.stmtParts?.bind fun (form, node) =>
        if form = stmtForm closed then (eval p (some node) c).bind (take o.name site) else none
  | .bare .., _, _ => none

/-- The first of several meanings that is defined. -/
def evalFirst : List Pattern → Site → Captures Site → Option (Captures Site)
  | [], _, _ => none
  | p :: ps, site, c => (eval p (some site) c).or (evalFirst ps site c)

/-- Several meanings on one item, one after the other. -/
def evalAll : List Pattern → Site → Captures Site → Option (Captures Site)
  | [], _, c => some c
  | p :: ps, site, c => (eval p (some site) c).bind (evalAll ps site)

/-- One meaning for each item of a list of the same length. -/
def evalEach : List Pattern → List Site → Captures Site → Option (Captures Site)
  | [], [], c => some c
  | p :: ps, site :: sites, c => (eval p (some site) c).bind (evalEach ps sites)
  | _, _, _ => none

end

end Pattern

end NestLint
