import NestLint.Report.Diagnostic
import NestLint.Report.Operand
import NestLint.Tree.Document

/-!
# Findings as documents

Lints, suggestions and diagnostics as objects. A lint that is not given is a default; a diagnostic
is written with its lint by name and with what a reader of it sees. An operand is given by its text,
by the place of its node in a tree, or by the operands that it is put together from.
-/

namespace NestLint

/-- The name of a level in documents. -/
def Level.code : Level → String
  | .allow => "ALLOW"
  | .warn => "WARN"
  | .deny => "DENY"

/-- The level of a name. -/
def Level.ofCode? (code : String) : Option Level := [Level.allow, .warn, .deny].find? fun level => level.code == code

/-- The lint that a document stands for. -/
def Lint.ofDocument (default : Lint) (j : Json) : Fitting Lint := do
  if j == .null then return default
  if j.members?.isNone then throw .wrongKind
  let name ← j.needText "name" .wrongKind
  return ⟨name, ← j.needNamed "level" Level.ofCode?, j.textAt "description", j.textAt "group" "style"⟩

namespace Suggestion

/-- The suggestion that a document stands for, which may be null. -/
def ofDocument? (j : Json) : Fitting (Option Suggestion) := do
  if j == .null then return none
  if j.members?.isNone then throw .wrongKind
  let span ← Span.ofDocument (← j.need "span")
  let replacement ← j.needText "replacement" .wrongKind
  return some ⟨span, replacement, ← j.needNamed "applicability" Applicability.ofName?, j.textAt "message" "try"⟩

/-- The suggestion that a document stands for, of which something is asked. -/
def ofDocument (j : Json) : Fitting Suggestion := do Misfit.lacking.orElse (← ofDocument? j)

/-- The suggestion as a document. -/
def document (s : Suggestion) : Json :=
  .object [("span", s.span.document), ("replacement", .str s.replacement), ("applicability", .str s.applicability.name),
    ("message", .str s.message)]

end Suggestion

namespace Diagnostic

/-- The diagnostic that a document stands for. -/
def ofDocument (default : Lint) (j : Json) : Fitting Diagnostic := do
  if j.members?.isNone then throw .wrongKind
  let lint ← Lint.ofDocument default (j.member "lint")
  let span ← Span.ofDocument (← j.need "span")
  return ⟨lint, span, ← j.needText "message" .wrongKind, ← Suggestion.ofDocument? (j.member "suggestion")⟩

/-- How the diagnostic looks where its source is known. -/
def inSource (d : Diagnostic) (source : SourceText) : Dict Json :=
  [("render_map", .str (d.render (some source))),
    ("applied", Json.ofString? (d.suggestion.map fun s => s.apply source.text))]

/-- The diagnostic as a document. -/
def document (d : Diagnostic) (source : Option SourceText) : Json :=
  .object ([("lint", .str d.lint.name), ("level", .str d.lint.level.name), ("span", d.span.document),
    ("message", .str d.message), ("suggestion", (d.suggestion.map Suggestion.document).getD .null),
    ("render", .str (d.render none))] ++ (source.map d.inSource).getD [])

/-- What there is to know about several diagnostics without looking into them. -/
def listing (found : List Diagnostic) : Json :=
  .object [("len", .int found.length), ("messages", Json.ofStrings (found.map message)),
    ("suggestions", .list ((suggestions found).map Suggestion.document))]

end Diagnostic

namespace Operand

open MonadExcept (ofExcept)

/-- The operand as a document. -/
def document (o : Operand) : Json :=
  .object [("text", .str o.text), ("kind", .str o.shape.name), ("op", Json.ofString? (o.op.map BinOp.code))]

/-- What a document stands for: operands, and notes about the source. -/
abbrev Building (α : Type) : Type := ExceptT Misfit (StateM (List Note)) α

/-- What a value stands for where an operand may be, and where several operands are. -/
structure Reading where
  operand : Building Operand := throw .wrongKind
  operands : List (Building Operand) := []

/-- The shape of a name. -/
def shapeOf (name : Json) : Fitting Shape :=
  Misfit.unknown.orElse (Shape.all.find? fun shape => Json.str shape.name == name)

/-- The operand of a node at a place of a tree. Null is no node. -/
def atPlace (sites : List Site) (source : SourceText) (j place : Json) : Building Operand := do
  let index ← ofExcept (if place == .null then .error .lacking else Misfit.wrongKind.orElse place.whole?)
  let site ← ofExcept (Misfit.outside.orElse (Text.itemAt? sites index))
  modify (· ++ source.notes site.span)
  return ofNode source site.node (j.textAt "default" "..")

/-- The operand of an object whose parts have been read. -/
def assemble (sites : List Site) (source : SourceText) (members : Dict Json) (parts : Dict Reading) :
    Building Operand := do
  let j := Json.object members
  let several (key : String) : List (Building Operand) := ((Dict.get? parts key).map Reading.operands).getD []
  let pair (operands : List (Building Operand)) (combine : Operand → Operand → Operand) : Building Operand := do
    match operands with
    | [a, b] => return combine (← a) (← b)
    | _ => throw .outside
  if j.has "text" then
    let shape ← ofExcept (((j.get? "kind").map shapeOf).getD (.ok .atom))
    let op ← if j.isOn "op" then some <$> ofExcept ((j.member "op").naming BinOp.ofCode?) else pure none
    return ⟨j.textAt "text", shape, op⟩
  else if j.has "ast" then atPlace sites source j (j.member "ast")
  else if j.has "and" then pair (several "and") and
  else if j.has "or" then pair (several "or") or
  else if j.has "bin" then
    let op ← ofExcept (((j.itemsAt "bin").headD .null).naming BinOp.ofCode?)
    pair ((several "bin").drop 1) (combine op)
  else return (← ((Dict.get? parts "par").map Reading.operand).getD (throw .missing)).parenthesised

/-- The operand that a document stands for, and the notes about the source. -/
def ofDocument (sites : List Site) (source : SourceText) (j : Json) : List Note × Fitting Operand :=
  let reading : Reading := j.fold
    { leaf := fun _ => {}
      list := fun _ parts => { operands := parts.map Reading.operand }
      object := fun members parts => { operand := assemble sites source members parts } }
  let (result, notes) := reading.operand.run.run []
  (notes, result)

end Operand

end NestLint
