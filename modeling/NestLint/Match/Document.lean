import NestLint.Match.Check
import NestLint.Tree.Document

/-!
# Patterns as documents

A pattern is the name of a known pattern, or an object that names its form under `p` and holds its
parts and options. A part that is null is a pattern for anything, except where several patterns
stand side by side, where one of them is missing then. Building alternatives and conjunctions may
leave notes, so reading a pattern does.

* `Pattern.ofDocument`: the pattern with the notes, up to what does not fit;
* `Pattern.document?`: what there is to know about a pattern.
-/

namespace NestLint

/-- The captures as a document: the names in order, each with the place of its item. -/
def Captures.document (captures : Captures Site) : Json :=
  .list (captures.map fun entry => .list [.str entry.1, (entry.2.map fun site => Json.int site.index).getD .null])

namespace Pattern

/-- What a document stands for: patterns, and notes about how they were built. -/
abbrev Building (α : Type) : Type := ExceptT Misfit (StateM (List Note)) α

/-- Leave some notes. -/
def leave (notes : List Note) : Building Unit := modify (· ++ notes)

/-- The kind of node that a value names. -/
def kindOf (value : Json) : Building Kind :=
  match value.str?.bind Kind.ofName? with
  | some k => pure k
  | none => throw .unknown

/-- The options of an object. -/
def optionsOf (j : Json) : Building PatternOptions := do
  let kind ← match j.get? "check_kind" with
    | none => pure none
    | some value => some <$> kindOf value
  let remark := if j.isOn "debug_msg" then some (j.member "debug_msg").message else none
  return { name := j.textAt? "bind", kind, traced := j.isOn "debug", remark,
           depth := j.intAt "debug_trace_depth" }

/-- A pattern for one part: anything, where it is missing. -/
def filledIn (p : Pattern) : Pattern := if p.isMissing then wildcard else p

/-- Options that only some forms have, with these forms. -/
def ownOptions : Dict (List String) := [("may_be_none", ["any"]), ("no_else", ["if", "if_let"])]

/-- Whether an object has an option that its form does not have. -/
def hasStrangeOption (j : Json) : Bool :=
  j.textAt "p" != "|" && ownOptions.any fun (option, forms) => j.has option && !forms.contains (j.textAt "p")

/-- The pattern of an object whose parts have been read. -/
def assemble (members : Dict Json) (parts : Dict (Building (List Pattern))) : Building Pattern := do
  let j := Json.object members
  let o ← optionsOf j
  let several : Building (List Pattern) := (Dict.get? parts "pats").getD (pure [])
  let one (key : String) : Building Pattern := do
    if (j.member key).isList then throw .wrongKind
    return (← (Dict.get? parts key).getD (pure [])).headD missing
  let part (key : String) : Building Pattern := do return filledIn (← one key)
  let els : Building Pattern := do
    let p ← part "els"
    return if j.isOn "no_else" then absent {} else p
  let (pattern, notes) ← match j.textAt "p" with
    | "any" => pure (any o (j.isOn "may_be_none" true), [])
    | "none" => pure (absent o, [])
    | "opt" => do pure (optional o (← one "pat"), [])
    | "or" => do
      let ps ← several
      pure (oneOf o ps, oneOfNotes ps)
    | "and" => do
      let ps ← several
      pure (all o ps, allNotes ps)
    | "|" => do
      match ← several with
      | p :: q :: _ => if p.isMissing then throw .wrongKind else pure (oneOf {} [p, q], [])
      | _ => throw .outside
    | "kind" => do pure (kind o (← kindOf (j.member "kind")), [])
    | "if" => do pure (ifThen o (← part "cond") (← part "then") (← els), [])
    | "if_let" => do pure (ifLet o (← part "pat") (← part "scrutinee") (← part "then") (← els), [])
    | "block" => do pure (block o (← several), [])
    | "expr" => do pure (stmt o false (← part "expr"), [])
    | "semi" => do pure (stmt o true (← part "expr"), [])
    | _ => pure (bare o .rule, [])
  if hasStrangeOption j || pattern.hasFixedKind && o.kind.isSome then throw .wrongKind
  leave notes
  return if j.has "rebind" then pattern.withOptions { pattern.options with name := j.textAt? "rebind" } else pattern

/-- What a value stands for. -/
def building (known : Dict Pattern) : Json → Building (List Pattern) :=
  Json.fold
    { leaf := fun
        | .str name =>
          match Dict.get? known name with
          | some p => pure [p]
          | none => throw .lacking
        | .null => pure [missing]
        | _ => throw .wrongKind
      list := fun _ parts => do return (← parts.mapM id).flatten
      object := fun members parts => do return [← assemble members parts] }

/-- The notes of a building, and what was built if everything fits. -/
def finish {α : Type} (b : Building α) : List Note × Fitting α :=
  let (result, notes) := b.run.run []
  (notes, result)

/-- The pattern that a document stands for, if everything fits, and the notes. -/
def ofDocument (known : Dict Pattern) (j : Json) : List Note × Fitting Pattern :=
  finish (do
    if j.isList then throw .wrongKind
    return (← building known j).headD missing)

/-- The patterns that several documents stand for, if everything fits, and the notes. -/
def ofDocuments (known : Dict Pattern) (js : List Json) : List Note × Fitting (List Pattern) :=
  finish (js.mapM fun j => do return (← building known j).headD missing)

/-- The object about a pattern. -/
def sheet (p : Pattern) (parts : Json) : Json :=
  .object [("class", .str p.title), ("bind", Json.ofString? p.options.name),
    ("kindname", Json.ofString? (p.formKind.map Kind.name)),
    ("check_kind", Json.ofString? (p.requiredKind.map Kind.name)), ("children", parts)]

mutual

/-- What there is to know about a pattern, unless a pattern is missing in it. A pattern without a
rule has no parts to speak of; `unknown` stands for them. -/
def document? (unknown : Json) : Pattern → Option Json
  | .any o b => sheet (.any o b) (.list [])
  | .absent o => sheet (.absent o) (.list [])
  | .optional o p => do return sheet (.optional o p) (.list [← document? unknown p])
  | .either o ps => do return sheet (.either o ps) (.list (← documents? unknown ps))
  | .all o ps => do return sheet (.all o ps) (.list (← documents? unknown ps))
  | .kind o k => sheet (.kind o k) (.list [])
  | .ifThen o a b c => do
    return sheet (.ifThen o a b c) (.list [← document? unknown a, ← document? unknown b, ← document? unknown c])
  | .ifLet o a b c d => do
    return sheet (.ifLet o a b c d)
      (.list [← document? unknown a, ← document? unknown b, ← document? unknown c, ← document? unknown d])
  | .block o ps => do return sheet (.block o ps) (.list [.list (← documents? unknown ps)])
  | .stmt o closed p => do return sheet (.stmt o closed p) (.list [← document? unknown p])
  | .bare o .rule => sheet (.bare o .rule) unknown
  | .bare _ .pattern => none

/-- What there is to know about several patterns. -/
def documents? (unknown : Json) : List Pattern → Option (List Json)
  | [] => some []
  | p :: rest => do return (← document? unknown p) :: (← documents? unknown rest)

end

end Pattern

end NestLint
