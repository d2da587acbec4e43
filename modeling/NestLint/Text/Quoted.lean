import NestLint.Text.Printable

/-!
# Quoted text

How a text is shown inside a message: between quotes, on one line, with escapes for what cannot be
shown. The quote is a single one unless the text holds a single quote and no double one, so that
most texts need no escaped quote.

* `quoteOf_eq`: which quote is chosen.
-/

namespace NestLint.Text

/-- `n` in base 16 with `width` digits. -/
def hexDigits (width n : Nat) : List Char :=
  let digits := Nat.toDigits 16 n
  List.replicate (width - digits.length) '0' ++ digits

/-- How one character is written between quotes of the kind `quote`. -/
def escapeChar (quote c : Char) : List Char :=
  if c = quote || c = '\\' then ['\\', c]
  else if c = '\n' then ['\\', 'n']
  else if c = '\r' then ['\\', 'r']
  else if c = '\t' then ['\\', 't']
  else if isPrintable c then [c]
  else if c.toNat < 0x100 then '\\' :: 'x' :: hexDigits 2 c.toNat
  else if c.toNat < 0x10000 then '\\' :: 'u' :: hexDigits 4 c.toNat
  else '\\' :: 'U' :: hexDigits 8 c.toNat

/-- The quote around a text: a double one exactly if it saves an escape. -/
def quoteOf (cs : List Char) : Char := if cs.contains '\'' && !cs.contains '"' then '"' else '\''

/-- A text between quotes. -/
def quoted (text : String) : String :=
  let cs := text.toList
  let quote := quoteOf cs
  String.ofList (quote :: cs.flatMap (escapeChar quote) ++ [quote])

theorem quoteOf_eq (cs : List Char) : quoteOf cs = '"' ↔ '\'' ∈ cs ∧ '"' ∉ cs := by
  simp [quoteOf]

end NestLint.Text
