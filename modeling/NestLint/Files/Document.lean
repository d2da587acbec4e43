import NestLint.Files.Tree
import NestLint.Json.Member

/-!
# File trees as documents

A document can say which directories and files there are: directories by name under `dirs`, files
with their text under `files`, files with their bytes in hexadecimal digits under `files_hex`.

* `FileTree.ofDocument`: the files and directories, made one after the other inside a directory.
-/

namespace NestLint

namespace Stored

/-- The value of a hexadecimal digit. -/
def digitValue (c : Char) : Nat :=
  if c.isDigit then c.toNat - '0'.toNat else c.toLower.toNat - 'a'.toNat + 10

/-- The bytes that digits spell, two digits each. -/
def bytes : List Char → List UInt8
  | high :: low :: rest => .ofNat (digitValue high * 16 + digitValue low) :: bytes rest
  | _ => []

/-- The file with the bytes that digits spell. -/
def ofDigits (digits : String) : Stored :=
  ((String.fromUTF8? ⟨(bytes digits.toList).toArray⟩).map text).getD binary

end Stored

namespace FileTree

/-- The members of an object as files. -/
def filesAt (j : Json) (key : String) (stored : String → Stored) : List (String × Stored) :=
  (j.member key).members.map fun entry => (entry.1, stored (entry.2.str?.getD ""))

/-- The files and directories that a document asks for inside a directory, which is made first. -/
def ofDocument (top : FilePath) (j : Json) : FileTree :=
  let directories := top :: (j.textsAt "dirs").map top.child
  let files := filesAt j "files" .text ++ filesAt j "files_hex" .ofDigits
  let t := directories.foldl (fun (t : FileTree) p => (t.makeDirectories p).1) { start := top.parts }
  files.foldl (fun t entry => t.establish (top.child entry.1) entry.2) t

end FileTree

end NestLint
