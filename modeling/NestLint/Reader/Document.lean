import NestLint.Reader.Read
import NestLint.Tree.Document

/-!
# Sources as documents

A source is an object with its text, and either a tree or what a parser delivers for the text and
for every body of a macro in it. A node of a concrete tree is a list: its type, its range, its
flags, the field that it fills, and its children.

* `ParsedSource.ofDocument`: the tree and the text, read as a reader reads them where there is no
  tree; a tree may be torn.
-/

namespace NestLint

namespace Concrete

/-- The concrete tree that a document stands for. -/
def ofDocument : Json → Concrete :=
  Json.fold
    { leaf := fun _ => default
      list := fun items parts =>
        match items with
        | type :: start :: stop :: flags :: field :: _ =>
          let flags := (flags.str?.getD "").toList
          .mk (type.str?.getD "") (start.int?.getD 0).toNat (stop.int?.getD 0).toNat (flags.contains 'n')
            (flags.contains 'e') (flags.contains 'm') (flags.contains 'h') field.str? (parts.drop 5)
        | _ => default
      object := fun _ _ => default }

end Concrete

/-- The parser that knows the concrete trees of some snippets. -/
def Parser.ofDocument (j : Json) : Parser := fun snippet => (j.get? snippet).map Concrete.ofDocument

/-- What keeps a document from standing for a source. -/
inductive SourceFault where
  | unreadable (fault : ReadFault)
  /-- A node is not what a node should be. -/
  | misfit (fault : Misfit)
  /-- A node is missing. What stands before it is left, below a node that is no expression. -/
  | torn (rest : ParsedSource)

namespace ParsedSource

/-- The same tree over another text. -/
def overText (parsed : ParsedSource) (text : Option String) : ParsedSource :=
  { parsed with source := { parsed.source with text := text.getD parsed.source.text } }

/-- The source of a tree that a document holds. -/
def ofTree (j tree : Json) : Except SourceFault ParsedSource := do
  let text ← (j.needText "text" .wrongKind).mapError .misfit
  let withRoot (root : Node) : ParsedSource :=
    overText ⟨root, ⟨text, j.textAt "filename" "<input>"⟩⟩ (j.textAt? "map_text")
  match ← (Node.ofDocument tree).mapError .misfit with
  | .error before => throw (.torn (withRoot (.item .dummy "" before)))
  | .ok root => return withRoot root

/-- The macros whose bodies are not read: those that a document names, or the usual ones. What is no
name may stand among them. -/
def macrosIn (j : Json) : Fitting (List String) :=
  ((j.get? "opaque").map Json.needNames).getD (.ok Reader.formattingMacros)

/-- The source that a document stands for. -/
def ofDocument (j : Json) (start : Reader.Progress) : Except SourceFault ParsedSource × Reader.Progress :=
  match j.get? "tree" with
  | some tree => (ofTree j tree, start)
  | none =>
    match (do return (← macrosIn j, ← j.needText "text" .lacking) : Fitting (List String × String)) with
    | .error misfit => (.error (.misfit misfit), start)
    | .ok (macros, text) =>
      let parser := Parser.ofDocument (j.member "parses")
      let (result, progress) := NestLint.read parser macros text (j.textAt "filename" "<fixture>") start
      ((result.map fun parsed => parsed.overText (j.textAt? "map_text")).mapError .unreadable, progress)

end ParsedSource

end NestLint
