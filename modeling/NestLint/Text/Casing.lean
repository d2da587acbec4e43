import NestLint.Text.Casing.Table

/-!
# Lower case

Names are compared without regard to case by their lower-case forms. The form of a character is its
simple mapping, with two exceptions: a dotted capital I becomes an i with a dot above, and a capital
sigma at the end of a word becomes a final sigma.

* `lower_ascii`: an ASCII letter has the form that core gives it.
-/

namespace NestLint.Text

open Casing

/-- The lower-case form of a single character by the simple mapping. -/
def lowerChar (c : Char) : Char :=
  if c.toNat < 0x80 then c.toLower
  else match lowerRuns.find? fun (lo, hi, step, _) =>
      lo ≤ c.toNat && c.toNat ≤ hi && (c.toNat - lo) % step == 0 with
    | some (_, _, _, distance) => Char.ofNat (c.toNat + distance).toNat
    | none => c

/-- Whether a character has case. -/
def isCased (c : Char) : Bool := casedRanges.any fun r => r.1 ≤ c.toNat && c.toNat ≤ r.2

/-- Whether a character is skipped when the neighbours of a sigma are looked up. -/
def isSkipped (c : Char) : Bool := skippedRanges.any fun r => r.1 ≤ c.toNat && c.toNat ≤ r.2

/-- Whether the nearest character that counts has case. -/
def meetsCased (cs : List Char) : Bool := (cs.dropWhile isSkipped).head?.any isCased

/-- The lower-case form of a text, of which `before` has been read already, last character first. -/
def lowerFrom (before : List Char) : List Char → List Char
  | [] => []
  | c :: rest =>
    let form :=
      if c = 'İ' then ['i', '\u0307']
      else if c = 'Σ' then [if meetsCased before && !meetsCased rest then 'ς' else 'σ']
      else [lowerChar c]
    form ++ lowerFrom (c :: before) rest

/-- The lower-case form of a text. -/
def lower (text : String) : String := String.ofList (lowerFrom [] text.toList)

theorem lower_ascii {c : Char} (h : c.toNat < 0x80) : lowerChar c = c.toLower := by simp [lowerChar, h]

end NestLint.Text
