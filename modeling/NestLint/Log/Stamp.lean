import NestLint.Text.Word

/-!
# Time stamps

Lines of logs start with the moment when they were written: a day, a time of day with milliseconds,
and a dash. What is shown of logs has a mark instead, so that it can be compared.

* `hideStamps`: the mark in place of the stamps at the start of lines;
* `hideStamps_nil`: nothing is added to an empty text.
-/

namespace NestLint

namespace Stamp

/-- How a stamp looks: `0` stands for any decimal digit. -/
def form : List Char := "0000-00-00 00:00:00,000 - ".toList

/-- What follows a stamp at the start of a text. -/
def after? : List Char → List Char → Option (List Char)
  | [], rest => some rest
  | f :: form, c :: rest =>
    if (if f = '0' then Text.isDecimal c else c == f) then after? form rest else none
  | _ :: _, [] => none

/-- A text at the start of a line with a mark in place of the stamp. -/
def hideFirst (mark : List Char) (cs : List Char) : List Char :=
  match after? form cs with
  | some rest => mark ++ " - ".toList ++ rest
  | none => cs

/-- The lines of a text, each with a mark in place of its stamp. -/
def hideAll (mark : List Char) : List Char → List Char → List Char
  | line, [] => hideFirst mark line.reverse
  | line, c :: rest =>
    if c = '\n' then hideFirst mark line.reverse ++ c :: hideAll mark [] rest else hideAll mark (c :: line) rest

end Stamp

/-- A text with a mark in place of the stamps at the start of its lines. -/
def hideStamps (mark text : String) : String := String.ofList (Stamp.hideAll mark.toList [] text.toList)

theorem hideStamps_nil (mark : String) : hideStamps mark "" = "" := by
  have h : Stamp.after? Stamp.form [] = none := by decide +kernel
  have h' : hideStamps mark "" = String.ofList (Stamp.hideFirst mark.toList []) := rfl
  simp [h', Stamp.hideFirst, h]

end NestLint
