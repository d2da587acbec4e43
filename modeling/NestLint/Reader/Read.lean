import NestLint.Log.Note
import NestLint.Reader.Descent
import NestLint.Source.Text
import NestLint.Text.Quoted
import NestLint.Tree.Site

/-!
# Reading a file

The parser is a function from snippets to concrete trees. A file is read by asking it for the tree
of the whole text and putting every construct together by its rule. A macro invocation whose body is
one expression is replaced by that expression: the body is parsed as a snippet of its own, and every
node read from it gets a fresh origin, so it counts as text that nobody wrote there. Any other
invocation stays an opaque node.

The reading is `SourceReader.read` with `_parse`; an invocation is read by `macro` and `expand`, and
`first_expr` is the first expression of what was read.

* `build`: reading ends because a body is shorter than the snippet that holds it, and a rule reads
  smaller things first; for trees where that is not so, patience ends it;
* `read`: the tree of a file, and its source text.
-/

namespace NestLint

/-- What a parser makes of a snippet, if it has an answer. -/
abbrev Parser : Type := String → Option Concrete

namespace Reader

/-- What is known while a file is read: the number of the next expansion, and the notes so far. -/
structure Progress where
  nextOrigin : Int := 1
  notes : List Note := []
  deriving DecidableEq, Repr, Inhabited

/-- A step of reading. A fault ends it and keeps the progress. -/
abbrev Read : Type → Type := ExceptT ReadFault (StateM Progress)

/-- Take a note that may help to find out why a tree looks as it does. -/
def note (text : String) : Read Unit :=
  modify fun p => { p with notes := p.notes ++ [Note.debug Note.treeChannel text] }

/-- A new expansion of the macro `name`. -/
def freshOrigin (name : String) : Read Origin := do
  let p ← get
  set { p with nextOrigin := p.nextOrigin + 1 }
  return ⟨p.nextOrigin, some name⟩

/-- The macros whose bodies are no Rust expressions: formatting and the like. -/
def formattingMacros : List String :=
  ["assert", "assert_eq", "assert_ne", "dbg", "eprintln", "format", "panic", "print", "println",
    "vec", "write", "writeln"]

/-! ## Following a plan -/

/-- Read everything in a list, in order. -/
def readAll : (goals : List Goal) → ((g : Goal) → g ∈ goals → Read Node) → Read (List Node)
  | [], _ => pure []
  | g :: rest, read => do
    let n ← read g (.head _)
    let ns ← readAll rest fun g h => read g (.tail _ h)
    return n :: ns

/-- Read what a plan needs, in order, and put it together. -/
def Plan.run : (p : Plan) → ((g : Goal) → g ∈ p.parts → Read Node) → Read Node
  | .stuck parts fault, read => do
    let _ ← readAll parts read
    throw fault
  | .leaf node, _ => pure node
  | .one a f, read => do
    let a ← read a (by simp [parts])
    return f a
  | .two a b f, read => do
    let a ← read a (by simp [parts])
    let b ← read b (by simp [parts])
    return f a b
  | .three a b c f, read => do
    let a ← read a (by simp [parts])
    let b ← read b (by simp [parts])
    let c ← read c (by simp [parts])
    return f a b c
  | .many parts f, read => do
    let ns ← readAll parts read
    return f ns
  | .manyThen _ last f, read => do
    let ns ← readAll _ fun g h => read g (List.mem_append_left _ h)
    let n ← read last (by simp [Plan.parts])
    return f ns n

/-! ## Snippets -/

/-- The block with the statements of a snippet, in what the parser made of the wrapped snippet. -/
def statementBlock (s : Snippet) (top : Concrete) : Except ReadFault Concrete :=
  if top.hasError then
    let bad := top.firstError?.getD top
    let what := if bad.missing then "missing " ++ Text.quoted bad.type else "syntax error"
    .error (.malformed what (s.errorPosition bad))
  else
    match top.parts with
    | [stmt] =>
      if stmt.type = "block" then .ok stmt
      else
        match stmt.parts with
        | [] => .error .missingPart
        | block :: _ => .ok block
    | _ => .error .unwrapped

/-- The block with the statements of a snippet. -/
def parse (parser : Parser) (s : Snippet) : Except ReadFault Concrete :=
  match parser (String.ofList s.body) with
  | none => .error .unparsed
  | some top => statementBlock s top

/-! ## Macro invocations -/

/-- The name of the macro that an invocation calls, without the blanks inside. -/
def macroName (s : Snippet) (c : Concrete) : Except ReadFault String :=
  match (c.child? "macro").or c.parts.head? with
  | none => .error .missingPart
  | some name =>
    match s.text? name with
    | none => .error .undecodable
    | some text => .ok (Node.pathName (Snippet.pathSegments text))

/-- The body of an invocation that is expanded, with its token tree: there is one, and the macro is
not `opaqueMacros`. -/
def bodyTree? (opaqueMacros : List String) (name : String) (c : Concrete) : Option Concrete :=
  if opaqueMacros.contains name then none else c.childOfType? "token_tree"

/-- The expression that a block of statements consists of. -/
def soleExpr? : Node → Option Node
  | .block _ [.stmt _ .expr node] => some node
  | _ => none

/-- How often, one inside the other, a body may be read that is not shorter than the snippet that
holds it. -/
def endurance : Nat := 200

/-- Read a goal. A body that is not shorter than the snippet that holds it uses up patience. -/
def build (parser : Parser) (opaqueMacros : List String) (patience : Nat) (s : Snippet) (goal : Goal) : Read Node :=
  match goal with
  | .expr c =>
    if c.type = "macro_invocation" then do
      let name ← ofExcept (macroName s c)
      let asIs : Node := .macroCall (s.span c) name
      match bodyTree? opaqueMacros name c with
      | none => return asIs
      | some tree =>
        let origin ← freshOrigin name
        match s.inside? tree with
        | none => throw .undecodable
        | some body =>
          let inner := s.inner tree body origin
          match parse parser inner with
          | .error (.malformed ..) =>
            note ("Body of " ++ name ++ "! is not valid Rust, keeping it opaque")
            return asIs
          | .error fault => throw fault
          | .ok block =>
            let expansion ←
              if _ : body.length < s.body.length then build parser opaqueMacros patience inner (.block block)
              else
                match _ : patience with
                | 0 => throw .endless
                | less + 1 => build parser opaqueMacros less inner (.block block)
            match soleExpr? expansion with
            | some node => return node
            | none =>
              note ("Body of " ++ name ++ "! is not a single expression, keeping it opaque")
              return asIs
    else (plan s (.expr c)).run fun g _ => build parser opaqueMacros patience s g
  | goal => (plan s goal).run fun g _ => build parser opaqueMacros patience s g
termination_by (patience, s.body.length, goal.measure)
decreasing_by
  · exact .right _ (.left _ _ ‹_›)
  · exact .left _ _ (by omega)
  · exact .right _ (.right _ (lt_of_mem_parts ‹_›))
  · exact .right _ (.right _ (lt_of_mem_parts ‹_›))

/-- The tree of a whole file: the block of its statements, which reaches over the whole text. -/
def readTree (parser : Parser) (opaqueMacros : List String) (text : List Char) : Read Node := do
  let s := Snippet.ofFile text
  let block ← ofExcept (parse parser s)
  let root ← build parser opaqueMacros endurance s (.block block)
  return root.withSpan ⟨0, text.length, .root⟩

end Reader

/-- The tree of a file together with its text. -/
structure ParsedSource where
  root : Node
  source : SourceText
  deriving Repr, Inhabited

namespace ParsedSource

/-- What keeps a file from starting with an expression. -/
inductive NoExpr where
  | emptySource | startsWithBinding | startsWithItem
  deriving DecidableEq, Repr, Inhabited

namespace NoExpr

/-- What is reported. -/
def message : NoExpr → String
  | .emptySource => "empty source"
  | .startsWithBinding => "first statement is a `let`"
  | .startsWithItem => "first statement is an item"

end NoExpr

/-- The expression of the first statement. -/
def firstExpr (parsed : ParsedSource) : Except NoExpr Site :=
  match (Site.root parsed.root).children with
  | [] => .error .emptySource
  | stmt :: _ =>
    match stmt.stmtParts? with
    | some (.binding, _) => .error .startsWithBinding
    | some (.item, _) => .error .startsWithItem
    | some (_, node) => .ok node
    | none => .ok stmt

end ParsedSource

/-- Read a file. The progress tells how many macros were expanded, also if reading fails. -/
def read (parser : Parser) (opaqueMacros : List String) (text fileName : String) (start : Reader.Progress) :
    Except ReadFault ParsedSource × Reader.Progress :=
  let (result, progress) := Reader.readTree parser opaqueMacros text.toList |>.run start
  (result.map fun root => ⟨root, ⟨text, fileName⟩⟩, progress)

end NestLint
