import NestLint.Lint.Pass
import NestLint.Report.Operand

/-!
# Collapsible conditionals

The pass finds an `if` whose body is nothing but another `if`, which `&&` can join, and an `else`
whose block is nothing but another conditional, which `else if` can take over. One level of nesting
is collapsed at a time. Nothing is reported when the block that would disappear starts with a
comment, which would be lost, or when the two conditionals come from different macro expansions.

The pass is `CollapsibleIf` with `is_candidate`, `on_matched_item`, `check_collapsible_no_if_let`
and `check_collapsible_else_if`; the first guard is `block_starts_with_comment`.

* `nestedIf`, `nestedElse`: the two forms;
* `startsWithComment`: the first guard;
* `collapsibleIf`: the pass.
-/

namespace NestLint

namespace Collapsible

/-- The lint. -/
def lint : Lint where
  name := "collapsible_if"
  level := .warn
  description := "`if`s that can be collapsed (e.g. `if x \x7b if y \x7b ... \x7d \x7d` and " ++
    "`else \x7b if x \x7b ... \x7d \x7d`)"

/-- An `if` without `else`, to be joined with the one around it. -/
def innerIf : Pattern :=
  .ifThen { name := some "inner" } (.capture "check_inner") (.capture "content") (.absent {})

/-- An `if` without `else` whose body is nothing but an `if` without `else`. -/
def nestedIf : Pattern :=
  .ifThen {} (.capture "check")
    (.block { name := some "then" } [.oneOf {} [.stmt {} false innerIf, .stmt {} true innerIf]]) (.absent {})

/-- Any conditional, to take over from the `else` around it. -/
def innerConditional : Pattern :=
  .oneOf { name := some "else_" }
    [.ifThen {} .wildcard .wildcard (.optional {} .wildcard),
      .ifLet {} .wildcard .wildcard .wildcard (.optional {} .wildcard)]

/-- A block that is nothing but a conditional. -/
def elseBlock : Pattern :=
  .block { name := some "block" }
    [.oneOf { name := some "block_inner" } [.stmt {} false innerConditional, .stmt {} true innerConditional]]

/-- A conditional whose `else` is nothing but a conditional. -/
def nestedElse : Pattern :=
  .oneOf {} [.ifThen {} .wildcard .wildcard elseBlock, .ifLet {} .wildcard .wildcard .wildcard elseBlock]

/-! ## Guards -/

/-- A text without the blanks and opening braces in front. -/
def withoutOpening (text : List Char) : List Char := text.dropWhile fun c => Text.isBlank c || c == '\x7b'

/-- Whether a text starts with a comment, behind blanks and opening braces. -/
def opensWithComment (text : List Char) : Bool :=
  let rest := withoutOpening text
  "//".toList.isPrefixOf rest || "/*".toList.isPrefixOf rest

/-- Whether the first thing inside the block at a span is a comment. -/
def startsWithComment (source : SourceText) (span : Span) : Bool :=
  opensWithComment (source.snippetBlock span "..").toList

/-! ## Replacements -/

/-- What is put in the place of an `if` with an `if` inside. -/
def joined (source : SourceText) (check inner content : Site) : String :=
  let condition := (Operand.ofNode source check.node "..").and (Operand.ofNode source inner.node "..")
  "if " ++ condition.text ++ " " ++ source.snippetBlock content.span ".."

/-- Read the text of a capture, which may be missing, and go on with it. -/
def reading (source : SourceText) (name : String) (item : Option Site) (next : Site → Handling) : Handling :=
  match item with
  | none => Pass.lacking name
  | some site => Pass.after (Pass.noting (source.notes site.span)) (next site)

/-- The handler for an `if` with an `if` inside. -/
def handleNestedIf (lint : Lint) (source : SourceText)
    (site thenBlock inner : Site) (check checkInner content : Option Site) : Handling :=
  Pass.after (Pass.noting (source.notes thenBlock.span)) <|
    if startsWithComment source thenBlock.span then Pass.reject lint (.text "comment") site
    else if !site.span.sameOrigin inner.span then Pass.reject lint (.text "hygiene") site
    else
      reading source "check" check fun check =>
        reading source "check_inner" checkInner fun checkInner =>
          reading source "content" content fun content =>
            Pass.finding lint site.span "this `if` statement can be collapsed" "try"
              (joined source check checkInner content) .machineApplicable

/-- The handler for an `else` with a conditional inside. -/
def handleNestedElse (lint : Lint) (source : SourceText) (site block conditional : Site) : Handling :=
  Pass.after (Pass.noting (source.notes block.span)) <|
    if startsWithComment source block.span then Pass.reject lint (.text "comment") site
    else if conditional.span.fromExpansion then Pass.reject lint (.text "hygiene") site
    else
      let (replacement, rating) := source.ratedSnippetBlock conditional.span ".." .machineApplicable
      Pass.after (Pass.noting (source.notes conditional.span)) <|
        Pass.finding lint block.span "this `else \x7b if .. \x7d` block can be collapsed" "try" replacement rating

/-- The handler of the pass. A match of either form has captured all that is needed, unless a
condition or a body is missing in the tree. -/
def handle (lint : Lint) (source : SourceText) (number : Nat) (site : Site) (captures : Captures Site) : Handling :=
  let item := captures.item?
  Pass.after [.told (.matched (.text lint.name))] <|
    if number = 0 then
      match item "then", item "inner" with
      | none, _ => Pass.lacking "then"
      | _, none => Pass.lacking "inner"
      | some thenBlock, some inner =>
        handleNestedIf lint source site thenBlock inner (item "check") (item "check_inner") (item "content")
    else
      match item "block", item "else_" with
      | none, _ => Pass.lacking "block"
      | _, none => Pass.lacking "else_"
      | some block, some conditional => handleNestedElse lint source site block conditional

end Collapsible

/-- The pass. A conditional that a macro wrote is not looked at. -/
def collapsibleIf : Pass where
  title := "CollapsibleIf"
  lint := Collapsible.lint
  patterns := [Collapsible.nestedIf, Collapsible.nestedElse]
  isCandidate := fun site => .ok ((site.kind == .ifThen || site.kind == .ifLet) && !site.span.fromExpansion)
  handle := Collapsible.handle

end NestLint
