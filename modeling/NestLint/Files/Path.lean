/-!
# Paths of files

A path is what it starts from and the parts that lead on from there. Empty parts and parts that are
a single dot lead nowhere and are left out; a part of two dots is kept, because where it leads
depends on the files.

* `join_of_isAbsolute`: a path that starts from the top leads to the same place from everywhere;
* `length_parts_parent`: going up makes a path shorter.
-/

namespace NestLint

/-- A path: the slashes in front, and the parts. -/
structure FilePath where
  root : String := ""
  parts : List String := []
  deriving DecidableEq, Repr, Inhabited

namespace FilePath

/-- The pieces of a text between slashes. -/
def pieces : List Char → List (List Char)
  | [] => [[]]
  | c :: rest =>
    if c = '/' then [] :: pieces rest
    else match pieces rest with
      | [] => [[c]]
      | piece :: more => (c :: piece) :: more

/-- Whether a piece leads somewhere. -/
def leads (piece : List Char) : Bool := piece != [] && piece != ['.']

/-- What a path with `n` slashes in front starts from: exactly two are kept apart from one. -/
def rootOf (n : Nat) : String := if n = 0 then "" else if n = 2 then "//" else "/"

/-- The path that a text stands for. -/
def ofText (text : String) : FilePath :=
  let cs := text.toList
  ⟨rootOf (cs.takeWhile (· == '/')).length, ((pieces cs).filter leads).map String.ofList⟩

/-- The piece of a text that its path ends in, slashes behind it apart. -/
def lastPiece (text : String) : List Char := ((pieces text.toList).reverse.find? (· != [])).getD []

/-- Whether a text ends like the name of a directory: in a slash, or in a part that is a single
dot. -/
def endsInDirectory (text : String) : Bool := !leads ((pieces text.toList).getLastD [])

/-- The path as text. A path without any part leads to where one is. -/
def text (p : FilePath) : String :=
  if p.root = "" && p.parts.isEmpty then "." else p.root ++ "/".intercalate p.parts

/-- Whether a path starts from the top. -/
def isAbsolute (p : FilePath) : Bool := p.root != ""

/-- The path that leads on with `next`. -/
def join (p next : FilePath) : FilePath := if next.isAbsolute then next else ⟨p.root, p.parts ++ next.parts⟩

/-- The path of something with a name below. -/
def child (p : FilePath) (name : String) : FilePath := p.join (ofText name)

/-- The path without its last part. -/
def parent (p : FilePath) : FilePath := ⟨p.root, p.parts.dropLast⟩

theorem join_of_isAbsolute (p : FilePath) {next : FilePath} (h : next.isAbsolute = true) : p.join next = next := by
  simp [join, h]

theorem join_assoc (a b c : FilePath) : (a.join b).join c = a.join (b.join c) := by
  unfold join
  by_cases hc : c.isAbsolute
  · simp [hc]
  · by_cases hb : b.isAbsolute <;> simp_all [isAbsolute]

theorem length_parts_parent (p : FilePath) : p.parent.parts.length = p.parts.length - 1 := by
  simp [parent]

end FilePath

end NestLint
