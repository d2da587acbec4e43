import NestLint.Match.Captures
import NestLint.Match.Pattern
import NestLint.Tree.Site

/-!
# Checking patterns

Checking a pattern on an item tells whether it matches, what is captured after that, and what was
noted on the way. A check that fails keeps what it captured before it failed; only alternatives
start over, each from the captures that the first one started from.

The check is `check` of each form, with `base_check` around it where the form has that;
`Pattern.match?` is `match_pattern`.

* `Pattern.check`: one pattern on one item;
* `Pattern.match?`: the captures of a successful match that starts from nothing.
-/

namespace NestLint

/-- The outcomes of a check. -/
inductive Verdict where
  | matched
  | failed
  /-- A pattern was to be checked that cannot be. -/
  | uncheckable (lack : Lack)
  deriving DecidableEq, Repr, Inhabited

namespace Verdict

/-- The outcome of a test. -/
def ofBool (b : Bool) : Verdict := if b then .matched else .failed

/-- What the pattern lacks that could not be checked. -/
def lack? : Verdict → Option Lack
  | .uncheckable lack => some lack
  | _ => none

end Verdict

/-- A check that has been made. -/
structure Attempt where
  verdict : Verdict
  captures : Captures Site
  notes : List Note := []
  deriving Repr, Inhabited

namespace Attempt

/-- A failure that leaves the captures as they are. -/
def failure (captures : Captures Site) : Attempt := ⟨.failed, captures, []⟩

/-- A success that leaves the captures as they are. -/
def success (captures : Captures Site) : Attempt := ⟨.matched, captures, []⟩

/-- After a success, go on with the captures it made. -/
def andThen (a : Attempt) (next : Captures Site → Attempt) : Attempt :=
  if a.verdict = .matched then
    let b := next a.captures
    { b with notes := a.notes ++ b.notes }
  else a

/-- After a failure, start over from `captures`. -/
def orElse (a : Attempt) (captures : Captures Site) (next : Captures Site → Attempt) : Attempt :=
  if a.verdict = .failed then
    let b := next captures
    { b with notes := a.notes ++ b.notes }
  else a

/-- After a success, give the item its name. -/
def capturing (a : Attempt) (name : Option String) (item : Site) : Attempt :=
  match name with
  | none => a
  | some name =>
    a.andThen fun captures =>
      let (captures, done) := Captures.bind captures name (some item)
      ⟨.ofBool done, captures, []⟩

end Attempt

namespace Pattern

/-- A line between other lines. -/
def ruler : String := "---------------------------------"

/-- What stands for one frame of a call trace. -/
def frame : String := "<frame>"

/-- What is noted about the outcome of a check. -/
def traceNotes (o : PatternOptions) (item : Site) (matched : Bool) : List Note :=
  let note := Note.debug Note.treeChannel
  if o.traced then
    let value := "Debug: value = " ++ (if matched then "True" else "False")
    let remark := match o.remark with
      | some remark => if remark = "" then "" else ", " ++ remark
      | none => ""
    note (value ++ remark) ::
      if o.depth = 0 then []
      else note ("Debug calltrace, item: " ++ item.text) :: note ruler :: List.replicate o.depth.toNat (note frame) ++
        [note ruler]
  else []

/-- The check of a pattern that asks for an item of a kind: the item must be there and have the
kind, then the pattern's own rule decides, then the item gets its name. -/
def guarded (p : Pattern) (item : Option Site) (captures : Captures Site)
    (rule : Site → Captures Site → Attempt) : Attempt :=
  match item with
  | none => .failure captures
  | some site =>
    if p.requiredKind.all (· == site.kind) then
      let a := (rule site captures).capturing p.options.name site
      if a.verdict.lack?.isSome then a
      else { a with notes := a.notes ++ traceNotes p.options site (a.verdict == .matched) }
    else .failure captures

mutual

/-- Check a pattern on an item, or on a place where there is none. -/
def check : Pattern → Option Site → Captures Site → Attempt
  | .any o acceptsNothing, item, captures =>
    match item with
    | none => ⟨.ofBool acceptsNothing, captures, []⟩
    | some site => (Attempt.success captures).capturing o.name site
  | .absent _, item, captures => ⟨.ofBool item.isNone, captures, []⟩
  | .optional o p, item, captures =>
    match item with
    | none => .success captures
    | some site => (check p (some site) captures).capturing o.name site
  | .either o ps, item, captures => guarded (.either o ps) item captures fun site captures => checkAny ps site captures
  | .all o ps, item, captures => guarded (.all o ps) item captures fun site captures => checkAll ps site captures
  | .kind o k, item, captures => guarded (.kind o k) item captures fun _ captures => .success captures
  | .ifThen o pc pb pe, item, captures =>
    guarded (.ifThen o pc pb pe) item captures fun site captures =>
      match site.ifParts? with
      | none => .failure captures
      | some (cond, body, els) =>
        (check pc cond captures).andThen fun captures =>
          (check pb body captures).andThen fun captures => check pe els captures
  | .ifLet o pp ps pb pe, item, captures =>
    guarded (.ifLet o pp ps pb pe) item captures fun site captures =>
      match site.ifLetParts? with
      | none => .failure captures
      | some (pat, scrutinee, body, els) =>
        (check pp pat captures).andThen fun captures =>
          (check ps scrutinee captures).andThen fun captures =>
            (check pb body captures).andThen fun captures => check pe els captures
  | .block o ps, item, captures =>
    guarded (.block o ps) item captures fun site captures =>
      match site.stmts? with
      | none => .failure captures
      | some stmts => if stmts.length = ps.length then checkEach ps stmts captures else .failure captures
  | .stmt o closed p, item, captures =>
    guarded (.stmt o closed p) item captures fun site captures =>
      match site.stmtParts? with
      | none => .failure captures
      | some (form, node) => if form = stmtForm closed then check p (some node) captures else .failure captures
  | .bare _ lack, _, captures => ⟨.uncheckable lack, captures, []⟩

/-- Try alternatives in order, each from the same captures. -/
def checkAny : List Pattern → Site → Captures Site → Attempt
  | [], _, captures => .failure captures
  | p :: ps, site, captures =>
    (check p (some site) captures).orElse captures fun captures => checkAny ps site captures

/-- Check all patterns on one item. -/
def checkAll : List Pattern → Site → Captures Site → Attempt
  | [], _, captures => .success captures
  | p :: ps, site, captures => (check p (some site) captures).andThen fun captures => checkAll ps site captures

/-- Check each pattern on the item at the same place of a list. -/
def checkEach : List Pattern → List Site → Captures Site → Attempt
  | p :: ps, site :: sites, captures =>
    (check p (some site) captures).andThen fun captures => checkEach ps sites captures
  | _, _, captures => .success captures

end

/-- The captures of a match that starts from nothing. -/
def match? (p : Pattern) (item : Option Site) : Option (Captures Site) :=
  let a := p.check item []
  if a.verdict = .matched then some a.captures else none

end Pattern

end NestLint
