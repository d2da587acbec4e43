import NestLint.Json.Alike
import NestLint.Lint.Collapsible
import NestLint.Match.Document
import NestLint.Registry.Basic
import NestLint.Report.Document
import NestLint.Text.Search

/-!
# Passes and schemes as documents

A document can declare a pass or a scheme: its patterns, which nodes it looks at, and what it does
with a match. That is enough to see how the engine deals with handlers that fail, that throw matches
away, or that answer with something else than a finding.

* `Pass.ofDocument`, `Scheme.ofDocument`: what a document declares.
-/

namespace NestLint

/-- The occurrence as a document: what it is called, and what it is about. -/
def Occurrence.document (o : Occurrence) : Json :=
  let told (name : String) (about : List Label) : Json := .list (.str name :: about.map Label.document)
  match o with
  | .candidate lint => told "CANDIDATE" [lint]
  | .matched lint => told "MATCH" [lint]
  | .rejected lint guard => told "GUARD_REJECTED" [lint, guard]
  | .reported lint => told "DIAGNOSTIC" [lint]
  | .failed lint => told "FAILED" [lint]

namespace Finding

/-- The finding as a document. -/
def document : Finding → Json
  | .diagnostic d => d.document none
  | .value v => v.tagged

/-- Whether a finding is of a type. -/
def isOf (type : String) : Finding → Bool
  | .diagnostic _ => type == "Diagnostic"
  | .value (.str _) => type == "str"
  | .value (.int _) => type == "int"
  | .value (.list _) => type == "list"
  | .value _ => false

/-- The findings of a type. -/
def wantedOf (type : String) : Wanted Finding := ⟨type, isOf type⟩

end Finding

/-- The patterns that documents may name. -/
def knownPatterns : Dict Pattern :=
  [("PAT_IF_WITHOUT_ELSE", Collapsible.nestedIf), ("PAT_IF_ELSE", Collapsible.nestedElse)]

/-- What is reported for a value that can be no label. -/
def unlabelled (value : Json) : MatchFault := .misfit .wrongKind ("unhashable type: '" ++ value.typeName ++ "'")

/-- Whether a node is of one of the kinds that a value holds: a list or an object by its parts, a
text by any piece of it. -/
def Site.isAmong (kinds : Json) (site : Site) : Except MatchFault Bool :=
  match kinds with
  | .list kinds => .ok (kinds.contains (.str site.kind.name))
  | .object members => .ok (Dict.contains members site.kind.name)
  | .str text => .ok (Text.occursIn site.kind.name.toList text.toList)
  | value => .error (.misfit .wrongKind ("argument of type '" ++ value.typeName ++ "' is not iterable"))

/-- The rating that a value names. -/
def ratingOf (value : Json) : Except MatchFault Applicability :=
  (value.naming Applicability.ofName?).mapError fun
    | .missing => .misfit .missing value.display
    | _ => unlabelled value

namespace Pass

/-- What a declared pass does with a match. -/
def behave (j : Json) (lint : Lint) (site : Site) : Handling :=
  let given (key default : String) : Json := (j.get? key).getD (.str default)
  match j.textAt "behavior" with
  | "raise" => ([], .fault (.raised ("pass " ++ lint.name)))
  | "wrong_type" => ([], .result (.value (.str "wrong")))
  | "reject" =>
    let guard := given "guard" "guard"
    match Label.ofDocument? guard with
    | some guard => reject lint guard site
    | none => ([.note (rejectionNote lint guard.message site)], .fault (unlabelled guard))
  | "report" =>
    match ratingOf (given "applicability" "MaybeIncorrect") with
    | .ok rating =>
      finding lint site.span ("found " ++ site.kind.name) "consider" ("<" ++ lint.name ++ ">") rating
    | .error fault => ([], .fault fault)
  | _ => ([], .nothing)

/-- The name and the key of the pass that a document declares. -/
def namesIn (j : Json) : Fitting (String × String) := do
  let title ← j.needText "class" .wrongKind
  if title.contains '\x00' then throw .unknown
  let key ← Misfit.lacking.orElse ((j.get? "registrant_name").getD (.str title)).str?
  return (title, key)

/-- The pass that a document declares. -/
def ofDocument (j : Json) : List Note × Fitting Pass :=
  let (notes, patterns) := Pattern.ofDocuments knownPatterns (j.itemsAt "patterns")
  (notes, do
    let patterns ← patterns
    let lint ← Lint.ofDocument Collapsible.lint (j.member "lint")
    let (title, key) ← namesIn j
    return {
      title
      key
      lint
      patterns
      isCandidate := (j.get? "candidates").elim (fun _ => .ok true) Site.isAmong
      handle := fun lint _ _ site _ => behave j lint site })

/-- The passes that documents declare, up to the first fault. -/
def ofDocuments : List Json → List Note × Fitting (List Pass)
  | [] => ([], .ok [])
  | j :: rest =>
    match ofDocument j with
    | (notes, .error fault) => (notes, .error fault)
    | (notes, .ok p) =>
      let (more, passes) := ofDocuments rest
      (notes ++ more, passes.map (p :: ·))

/-- Passes in order of registration: one with the key of an earlier one takes its place. -/
def registered (passes : List Pass) : List Pass :=
  (passes.foldl (fun r p => r.register p.key p) ({} : Registry Pass Empty)).all

/-- What there is to know about the passes that run. -/
def listing (passes : List Pass) : Json :=
  .list (passes.map fun p => Json.ofStrings [p.title, p.lint.name, p.lint.level.name])

end Pass

namespace Scheme

/-- Whether a declared scheme fails on an item. -/
def isRefused (j : Json) (item : Option Site) : Bool :=
  (j.itemsAt "raise_on").any ((item.map fun site => Json.int site.index).getD .null).alike

/-- What a declared scheme does with a match. -/
def behave (j : Json) (source : SourceText) (number : Nat) (item : Option Site) (captures : Captures Site) : Handling :=
  let value (v : Json) : Handling := ([], .result (.value v))
  let onNode (property : String) (f : Site → Handling) : Handling := item.elim ([], .fault (.noNode property)) f
  if isRefused j item then
    ([], .fault (.raised ("boom " ++ (item.map fun site => toString site.index).getD "None")))
  else
    match j.textAt "handler" with
    | "kind" => onNode "kind" fun site => value (.str site.kind.name)
    | "index" => item.elim ([], .nothing) fun site => value (.int site.index)
    | "pattern" =>
      let patterns := j.itemsAt "patterns"
      value (.int (match patterns[number]? with
        | some (.str name) => patterns.findIdx (· == .str name)
        | _ => number))
    | "captures" => value captures.document
    | "text" => onNode "span" fun site =>
      Pass.after (Pass.noting (source.notes site.span)) (value (.str (source.snippet site.span "..")))
    | "raise" => ([], .fault (.raised "boom"))
    | _ => ([], .nothing)

/-- A title for a scheme that does not tell when it starts and ends. -/
def quiet (title : String) : String := "\x00" ++ title

/-- Whether a scheme with a title does not tell when it starts and ends. -/
def isQuiet (title : String) : Bool := "\x00".isPrefixOf title

/-- A title as it was given. -/
def givenTitle (title : String) : String := if isQuiet title then String.ofList (title.toList.drop 1) else title

/-- The types of schemes by name, and whether the first result is enough. -/
def schemeTypes : Dict Bool := [("GENERIC", true), ("READONLY", false)]

/-- Which items a declared scheme examines: with no kinds given, all of them. -/
def accepting (kinds : Json) (item : Option Site) : Except MatchFault Bool :=
  match kinds, item with
  | .null, _ => .ok true
  | _, none => .error (.noNode "kind")
  | kinds, some site => site.isAmong kinds

/-- The scheme that a document declares: one of its own, or that of a known pass, which does not
tell when it starts and ends. -/
def ofDocument (known : List Pass) (source : SourceText) (title : String) (j : Json) :
    List Note × Fitting (Scheme Occurrence Finding) :=
  match j.textAt? "lint_pass" with
  | some name =>
    ([], do
      let known := known.find? fun pass => Registry.normalize pass.key == Registry.normalize name
      let pass ← Misfit.missing.orElse known
      let level ← (j.get? "level").mapM (Json.naming Level.ofCode?)
      return { (pass.atLevel level).scheme source with title := quiet title })
  | none =>
    let (notes, patterns) := Pattern.ofDocuments knownPatterns (j.itemsAt "patterns")
    (notes, do
      let patterns ← patterns
      let firstOnly ← ((j.get? "type").getD (.str "READONLY")).naming (Dict.get? schemeTypes)
      return {
        title
        patterns
        firstOnly
        accepts := accepting (j.member "accepts")
        handle := behave j source })

end Scheme

/-- The step as a document, if it is one that a matcher tells about. -/
def Step.document? (failure : MatchFault → Json) : Step Occurrence → Option Json
  | .note _ | .told _ => none
  | .failed title item fault =>
    some (.list [.str "error", .str (Scheme.givenTitle title), (item.map fun site => .int site.index).getD .null,
      failure fault])
  | .started title => if Scheme.isQuiet title then none else some (Json.ofStrings ["start", title])
  | .ended title => if Scheme.isQuiet title then none else some (Json.ofStrings ["end", title])

end NestLint
