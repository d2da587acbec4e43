import NestLint.Reader.Concrete
import NestLint.Text.Blank
import NestLint.Text.Bytes
import NestLint.Tree.Span

/-!
# Snippets and their offsets

A snippet is a list of statements as it is handed to a parser: the body of a file or of a macro
invocation, wrapped into braces so that it parses as one block. Positions in it count bytes from the
opening brace; positions in the file count characters.

The offsets are those of `pos`, `span` and `text`; `path` cuts a path into its segments, and
`expand` takes the body of an invocation out of a snippet.

* `position`: the character of the file that a byte of the wrapped snippet belongs to;
* `span`, `text?`: the span and the text of a concrete node.
-/

namespace NestLint

/-- A list of statements, with its place in a file. `shift` is added to a byte of the wrapped
snippet to get one of the file; `origin` is where its text comes from. -/
structure Snippet where
  body : List Char
  shift : Int
  origin : Origin
  file : List Char
  deriving Repr, Inhabited

namespace Snippet

/-- The whole of a file, written by hand. -/
def ofFile (file : List Char) : Snippet := ⟨file, -1, .root, file⟩

/-- The text that the parser reads: the body between braces, with a newline in case it ends in a
comment. -/
def wrapped (s : Snippet) : List Char := '\x7b' :: s.body ++ ['\n', '\x7d']

/-- The character of the file at a byte of the wrapped snippet. What lies in front of the file
stands for its start. In a file with wider characters, what lies behind stands for its end. -/
def position (s : Snippet) (byte : Nat) : Int :=
  let offset := (byte + s.shift).toNat
  if Text.isSingleByte s.file then offset else Text.charIndex s.file offset

/-- The span of a concrete node. -/
def span (s : Snippet) (c : Concrete) : Span := ⟨s.position c.start, s.position c.stop, s.origin⟩

/-- The text of a concrete node; none if its bytes are no text. -/
def text? (s : Snippet) (c : Concrete) : Option (List Char) := Text.cut? s.wrapped c.start c.stop

/-- A text cut at every pair of colons. -/
def segments : List Char → List (List Char)
  | [] => [[]]
  | ':' :: ':' :: rest => [] :: segments rest
  | c :: rest =>
    match segments rest with
    | [] => [[c]]
    | segment :: more => (c :: segment) :: more

/-- The segments of a path, without the blanks around them. -/
def pathSegments (text : List Char) : List String := (segments text).map fun s => String.ofList (Text.trim s)

/-- What stands between the delimiters of a concrete node, which take one byte each. The byte before
the start of the text is the last one. -/
def inside? (s : Snippet) (c : Concrete) : Option (List Char) :=
  let stop := if c.stop = 0 then Text.byteLength s.wrapped - 1 else c.stop - 1
  Text.cut? s.wrapped (c.start + 1) stop

/-- The snippet between the delimiters of a concrete node, as text of another origin. -/
def inner (s : Snippet) (c : Concrete) (body : List Char) (origin : Origin) : Snippet :=
  ⟨body, c.start + 1 + s.shift - 1, origin, s.file⟩

/-- Where a syntax error is reported: at the concrete node that holds it, but not behind the
body. -/
def errorPosition (s : Snippet) (c : Concrete) : Int :=
  s.position (min c.start (Text.byteLength s.wrapped - 2))

theorem segments_ne_nil (cs : List Char) : segments cs ≠ [] := by
  unfold segments
  split
  · simp
  · simp
  · split <;> simp

end Snippet

end NestLint
