import NestLint.Json.Basic

/-!
# Reading documents

A reader for JSON with the usual extensions: the names `NaN`, `Infinity` and `-Infinity` stand for
the special numbers, and of members with the same name the last one wins, at the place of the first.
Control characters must be escaped inside strings, and nothing but blank space may follow the
document. Of several faults the first one in the text is reported.

Every step gives back the text that follows what it read. Recursion is bounded by the length of the
text, which the entry `parse` supplies.

* `parseList_of_trailing`: text behind the document is refused.
-/

namespace NestLint.Json

/-- What keeps a text from being read as a document. -/
inductive ParseFault where
  /-- It is no document. -/
  | malformed
  /-- There is a whole number with too many digits. -/
  | tooLong
  deriving DecidableEq, Repr, Inhabited

/-- Blank space between the parts of a document. -/
def isSpace (c : Char) : Bool := c = ' ' || c = '\t' || c = '\n' || c = '\r'

/-- Without blank space at the start. -/
def skipSpace (cs : List Char) : List Char := cs.dropWhile isSpace

/-- What follows `word` at the start of a text. -/
def after? : List Char → List Char → Option (List Char)
  | [], rest => some rest
  | w :: word, c :: rest => if w = c then after? word rest else none
  | _ :: _, [] => none

/-- The value of a digit in base 16. -/
def hexValue? (c : Char) : Option Nat :=
  if '0' ≤ c && c ≤ '9' then some (c.toNat - '0'.toNat)
  else if 'a' ≤ c && c ≤ 'f' then some (c.toNat - 'a'.toNat + 10)
  else if 'A' ≤ c && c ≤ 'F' then some (c.toNat - 'A'.toNat + 10)
  else none

/-- A 16-bit unit of four digits. -/
def parseUnit : List Char → Option (Nat × List Char)
  | a :: b :: c :: d :: rest => do
    let a ← hexValue? a
    let b ← hexValue? b
    let c ← hexValue? c
    let d ← hexValue? d
    some (((a * 16 + b) * 16 + c) * 16 + d, rest)
  | _ => none

/-- The second unit of a pair of surrogates, if one follows. -/
def parseLowSurrogate : List Char → Option (Nat × List Char)
  | '\\' :: 'u' :: rest => (parseUnit rest).filter fun low => 0xDC00 ≤ low.1 && low.1 ≤ 0xDFFF
  | _ => none

/-- The character of an escape with a number. Two surrogates make one character. A text cannot
hold one that stands alone: it is read as U+FFFD, where other readers keep it. -/
def parseEscapedUnit (cs : List Char) : Option (Char × List Char) := do
  let (high, rest) ← parseUnit cs
  if 0xD800 ≤ high && high ≤ 0xDBFF then
    match parseLowSurrogate rest with
    | some (low, rest) => some (Char.ofNat (0x10000 + (high - 0xD800) * 0x400 + (low - 0xDC00)), rest)
    | none => some (Char.ofNat 0xFFFD, rest)
  else if 0xDC00 ≤ high && high ≤ 0xDFFF then some (Char.ofNat 0xFFFD, rest)
  else some (Char.ofNat high, rest)

/-- The character of an escape, after its backslash. -/
def parseEscape : List Char → Option (Char × List Char)
  | '"' :: rest => some ('"', rest)
  | '\\' :: rest => some ('\\', rest)
  | '/' :: rest => some ('/', rest)
  | 'b' :: rest => some (Char.ofNat 0x08, rest)
  | 'f' :: rest => some (Char.ofNat 0x0C, rest)
  | 'n' :: rest => some ('\n', rest)
  | 'r' :: rest => some ('\r', rest)
  | 't' :: rest => some ('\t', rest)
  | 'u' :: rest => parseEscapedUnit rest
  | _ => none

/-- The characters of a string up to its closing quote, in reverse, before those in `acc`. -/
def parseChars : Nat → List Char → List Char → Option (List Char × List Char)
  | 0, _, _ => none
  | _ + 1, _, [] => none
  | fuel + 1, acc, c :: rest =>
    if c = '"' then some (acc, rest)
    else if c = '\\' then
      match parseEscape rest with
      | some (d, rest) => parseChars fuel (d :: acc) rest
      | none => none
    else if c.toNat < 0x20 then none
    else parseChars fuel (c :: acc) rest

/-- A string, after its opening quote. -/
def parseString (cs : List Char) : Option (String × List Char) :=
  (parseChars (cs.length + 1) [] cs).map fun (acc, rest) => (String.ofList acc.reverse, rest)

/-- The digits at the start of a text, and what follows. -/
def spanDigits (cs : List Char) : List Char × List Char := (cs.takeWhile Char.isDigit, cs.dropWhile Char.isDigit)

/-- The natural number with these digits. -/
def natOfDigits (ds : List Char) : Nat := ds.foldl (fun n d => n * 10 + (d.toNat - '0'.toNat)) 0

/-- The whole part of a number: a zero alone, or digits that do not start with one. -/
def parseWhole : List Char → Option (List Char × List Char)
  | '0' :: rest => some (['0'], rest)
  | cs => let (ds, rest) := spanDigits cs; if ds.isEmpty then none else some (ds, rest)

/-- The digits behind a point; none if no digit follows it. -/
def parseFraction : List Char → Option (List Char × List Char)
  | '.' :: rest => let (ds, rest) := spanDigits rest; if ds.isEmpty then none else some (ds, rest)
  | _ => none

/-- The power of ten behind an `e`; none if it has no digits. -/
def parseExponent : List Char → Option (Int × List Char)
  | e :: rest =>
    if e = 'e' || e = 'E' then
      let (negative, rest) := match rest with
        | '-' :: rest => (true, rest)
        | '+' :: rest => (false, rest)
        | rest => (false, rest)
      let (ds, rest) := spanDigits rest
      if ds.isEmpty then none
      else some (if negative then -(natOfDigits ds : Int) else natOfDigits ds, rest)
    else none
  | [] => none

/-- A number without its sign. One without fraction and exponent is whole. -/
def parseNumber (negative : Bool) (cs : List Char) : Except ParseFault (Json × List Char) := do
  let some (whole, rest) := parseWhole cs | throw .malformed
  let (fraction, rest) := ((parseFraction rest).map fun (ds, rest) => (some ds, rest)).getD (none, rest)
  let (exponent, rest) := ((parseExponent rest).map fun (n, rest) => (some n, rest)).getD (none, rest)
  if fraction.isNone && exponent.isNone then
    if digitLimit < whole.length then throw .tooLong
    let n : Int := natOfDigits whole
    return (.int (if negative then -n else n), rest)
  else
    let ds := whole ++ fraction.getD []
    return (.float (.ofDecimal negative (natOfDigits ds) (exponent.getD 0 - (fraction.getD []).length)), rest)

/-- One of the named values. -/
def parseName (cs : List Char) : Option (Json × List Char) :=
  let ifWord (word : String) (value : Json) := (after? word.toList cs).map fun rest => (value, rest)
  ifWord "null" .null <|> ifWord "true" (.bool true) <|> ifWord "false" (.bool false)
    <|> ifWord "NaN" (.float .notANumber)
    <|> ifWord "Infinity" (.float (.infinite false)) <|> ifWord "-Infinity" (.float (.infinite true))

/-- A value without parts that is no string. -/
def parseAtom (cs : List Char) : Except ParseFault (Json × List Char) :=
  match parseName cs with
  | some found => .ok found
  | none =>
    match cs with
    | '-' :: rest => parseNumber true rest
    | _ => parseNumber false cs

mutual

/-- A value at the start of a text without blank space in front. -/
def parseValue : Nat → List Char → Except ParseFault (Json × List Char)
  | 0, _ => .error .malformed
  | fuel + 1, cs =>
    match cs with
    | '"' :: rest =>
      match parseString rest with
      | some (text, rest) => .ok (.str text, rest)
      | none => .error .malformed
    | '[' :: rest =>
      match skipSpace rest with
      | ']' :: rest => .ok (.list [], rest)
      | rest => (parseItems fuel rest).map fun (items, rest) => (.list items, rest)
    | '\x7b' :: rest =>
      match skipSpace rest with
      | '\x7d' :: rest => .ok (.object [], rest)
      | rest => (parseMembers fuel rest).map fun (members, rest) => (.object (Dict.ofList members), rest)
    | cs => parseAtom cs

/-- The items of a list up to its closing bracket. -/
def parseItems : Nat → List Char → Except ParseFault (List Json × List Char)
  | 0, _ => .error .malformed
  | fuel + 1, cs =>
    match parseValue fuel cs with
    | .error fault => .error fault
    | .ok (item, rest) =>
      match skipSpace rest with
      | ']' :: rest => .ok ([item], rest)
      | ',' :: rest => (parseItems fuel (skipSpace rest)).map fun (items, rest) => (item :: items, rest)
      | _ => .error .malformed

/-- The members of an object up to its closing brace. -/
def parseMembers : Nat → List Char → Except ParseFault (List (String × Json) × List Char)
  | 0, _ => .error .malformed
  | fuel + 1, cs =>
    match cs with
    | '"' :: rest =>
      match parseString rest with
      | none => .error .malformed
      | some (key, rest) =>
        match skipSpace rest with
        | ':' :: rest =>
          match parseValue fuel (skipSpace rest) with
          | .error fault => .error fault
          | .ok (value, rest) =>
            match skipSpace rest with
            | '\x7d' :: rest => .ok ([(key, value)], rest)
            | ',' :: rest =>
              (parseMembers fuel (skipSpace rest)).map fun (more, rest) => ((key, value) :: more, rest)
            | _ => .error .malformed
        | _ => .error .malformed
    | _ => .error .malformed

end

/-- A document and nothing else. -/
def parseList (cs : List Char) : Except ParseFault Json :=
  match parseValue (2 * cs.length + 1) (skipSpace cs) with
  | .ok (value, rest) => if (skipSpace rest).isEmpty then .ok value else .error .malformed
  | .error fault => .error fault

/-- The document in a text. -/
def parse (text : String) : Except ParseFault Json := parseList text.toList

theorem parseList_of_trailing {cs rest : List Char} {value : Json}
    (h : parseValue (2 * cs.length + 1) (skipSpace cs) = .ok (value, rest)) (hr : skipSpace rest ≠ []) :
    parseList cs = .error .malformed := by
  simp [parseList, h, hr]

end NestLint.Json
