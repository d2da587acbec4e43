import NestLint.Json.Display
import NestLint.Number.Places

/-!
# Templates

A template is a text with slots for values. A slot is a percent sign, optionally the name of the
value in parentheses, flags, a width, a precision, and a letter that says how the value is written.
Slots without names take the values in order, and every value has to be taken.

* `parts`: a template as text and slots;
* `fill`: the text with the values in the slots.
-/

namespace NestLint

/-- What keeps a template from being filled. -/
inductive TemplateFault where
  /-- There are fewer values than slots. -/
  | tooFew
  /-- There are more values than slots. -/
  | tooMany
  /-- A slot has a name, but the values have none. -/
  | unnamed
  /-- No value has the name of a slot. -/
  | noValue (name : String)
  /-- A value is of the wrong kind for its slot. -/
  | wrongKind
  /-- A slot is not complete, or has an unknown letter. -/
  | malformed
  /-- A number is out of the range of what its slot can show, or of what a size can be. -/
  | outOfRange
  /-- A slot is wider than any text can be. -/
  | tooWide
  deriving DecidableEq, Repr, Inhabited

namespace Template

/-- A width or a precision. -/
inductive Size where
  | unset
  | fixed (n : Nat)
  /-- The next value tells. -/
  | given
  deriving DecidableEq, Repr, Inhabited

/-- A place for a value. -/
structure Slot where
  name : Option String
  flags : List Char
  width : Size
  precision : Size
  letter : Char
  deriving DecidableEq, Repr, Inhabited

/-- The parts of a template. -/
inductive Part where
  | plain (c : Char)
  | slot (s : Slot)
  /-- A slot whose name the template ends in. -/
  | unclosed
  /-- A slot that the template ends in. -/
  | unfinished (name : Option String) (width precision : Size)
  deriving DecidableEq, Repr, Inhabited

/-! ## Parts of a template -/

/-- The flags. -/
def flagChars : List Char := ['#', '0', '-', ' ', '+']

/-- A width or precision at the start of a text. -/
def readSize (cs : List Char) : Size × List Char :=
  match cs with
  | '*' :: rest => (.given, rest)
  | cs =>
    match cs.takeWhile Char.isDigit with
    | [] => (.unset, cs)
    | digits => (.fixed (Nat.ofDigitChars 10 digits 0), cs.dropWhile Char.isDigit)

/-- A precision at the start of a text. A point alone means no digits at all. -/
def readPrecision (cs : List Char) : Size × List Char :=
  match cs with
  | '.' :: rest =>
    match readSize rest with
    | (.unset, rest) => (.fixed 0, rest)
    | outcome => outcome
  | cs => (.unset, cs)

/-- The text up to the parenthesis that closes the one before it, which is the `depth`-th that is
open. -/
def readName : Nat → List Char → Option (List Char × List Char)
  | _, [] => none
  | depth, c :: rest =>
    if c = ')' && depth = 0 then some ([], rest)
    else
      let depth := if c = '(' then depth + 1 else if c = ')' then depth - 1 else depth
      (readName depth rest).map fun (name, rest) => (c :: name, rest)

/-- The slot behind a percent sign and its name. -/
def readSlot (name : Option String) (cs : List Char) : Part × List Char :=
  let flags := cs.takeWhile flagChars.contains
  let (width, cs) := readSize (cs.dropWhile flagChars.contains)
  let (precision, cs) := readPrecision cs
  let cs := match cs with
    | c :: rest => if c = 'h' || c = 'l' || c = 'L' then rest else cs
    | [] => cs
  match cs with
  | [] => (.unfinished name width precision, [])
  | letter :: rest => (.slot ⟨name, flags, width, precision, letter⟩, rest)

/-- The parts of a template of at most `n` characters. -/
def partsUpTo : Nat → List Char → List Part
  | 0, _ => []
  | _, [] => []
  | n + 1, '%' :: '%' :: rest => .plain '%' :: partsUpTo n rest
  | n + 1, '%' :: '(' :: rest =>
    match readName 0 rest with
    | none => [.unclosed]
    | some (name, rest) =>
      let (part, rest) := readSlot (some (String.ofList name)) rest
      part :: partsUpTo n rest
  | n + 1, '%' :: rest =>
    let (part, rest) := readSlot none rest
    part :: partsUpTo n rest
  | n + 1, c :: rest => .plain c :: partsUpTo n rest

/-- The parts of a template. -/
def parts (template : String) : List Part := partsUpTo template.length template.toList

/-! ## Values in slots -/

/-- Blanks, or zeros for a number, up to a width. -/
def padded (s : Slot) (width : Nat) (isNumber : Bool) (sign body : List Char) : List Char :=
  let missing := width - (sign.length + body.length)
  if s.flags.contains '-' then sign ++ body ++ List.replicate missing ' '
  else if s.flags.contains '0' && isNumber then sign ++ List.replicate missing '0' ++ body
  else List.replicate missing ' ' ++ sign ++ body

/-- What is in front of a number. -/
def signOf (s : Slot) (negative : Bool) : List Char :=
  if negative then ['-'] else if s.flags.contains '+' then ['+'] else if s.flags.contains ' ' then [' '] else []

/-- A text with escapes for all characters outside ASCII. -/
def asciiOnly (cs : List Char) : List Char :=
  cs.flatMap fun c =>
    if c.toNat < 0x80 then [c]
    else if c.toNat < 0x100 then '\\' :: 'x' :: Text.hexDigits 2 c.toNat
    else if c.toNat < 0x10000 then '\\' :: 'u' :: Text.hexDigits 4 c.toNat
    else '\\' :: 'U' :: Text.hexDigits 8 c.toNat

/-- A whole number in a slot, in some base. -/
def wholeNumber (s : Slot) (width : Nat) (precision : Option Nat) (n : Int) : List Char :=
  let digits := match s.letter with
    | 'o' => Nat.toDigits 8 n.natAbs
    | 'x' => Nat.toDigits 16 n.natAbs
    | 'X' => (Nat.toDigits 16 n.natAbs).map Char.toUpper
    | _ => Nat.toDigits 10 n.natAbs
  let mark := if s.flags.contains '#' && (s.letter = 'o' || s.letter = 'x' || s.letter = 'X')
    then ['0', s.letter] else []
  let body := List.replicate (precision.getD 0 - digits.length) '0' ++ digits
  padded s width true (signOf s (n < 0) ++ mark) body

/-- A number with a fraction in a slot. -/
def fraction (s : Slot) (width : Nat) (precision : Option Nat) (x : Binary64) : List Char :=
  let places := precision.getD 6
  let kept := s.flags.contains '#'
  let upper (cs : List Char) := if s.letter.isUpper then cs.map Char.toUpper else cs
  match x with
  | .notANumber => padded s width true (signOf s false) (upper ['n', 'a', 'n'])
  | .infinite negative => padded s width true (signOf s negative) (upper ['i', 'n', 'f'])
  | .finite negative m e =>
    let (num, den) := Binary64.ratio m e
    let body := match s.letter.toLower with
      | 'f' => Binary64.fixed kept places num den
      | 'e' => Binary64.scientific kept places num den
      | _ => Binary64.general kept places num den
    padded s width true (signOf s negative) (upper body)

/-- The whole part of a number. -/
def truncated? : Binary64 → Except TemplateFault Int
  | .notANumber => .error .malformed
  | .infinite _ => .error .outOfRange
  | .finite negative m e =>
    let n : Int := let (num, den) := Binary64.ratio m e; num / den
    .ok (if negative then -n else n)

/-- The number with a fraction nearest to a whole number. -/
def nearest? (n : Int) : Except TemplateFault Binary64 :=
  match Binary64.ofInt n with
  | .infinite _ => .error .outOfRange
  | x => .ok x

/-- A value in a slot that is not too wide. -/
def shown (s : Slot) (width : Nat) (precision : Option Nat) (value : Json) : Except TemplateFault (List Char) :=
  let text (cs : List Char) := padded s width false [] (match precision with | some n => cs.take n | none => cs)
  let value := match value with
    | .bool b => if s.letter = 's' || s.letter = 'r' || s.letter = 'a' then value else .int b.toInt
    | value => value
  match s.letter with
  | 's' => .ok (text value.message.toList)
  | 'r' => .ok (text value.display.toList)
  | 'a' => .ok (text (asciiOnly value.display.toList))
  | 'c' =>
    match value with
    | .int n =>
      if 0 ≤ n ∧ n < 0x110000 then .ok (padded s width false [] [Char.ofNat n.toNat]) else .error .outOfRange
    | .str t => if t.length = 1 then .ok (padded s width false [] t.toList) else .error .wrongKind
    | _ => .error .wrongKind
  | 'd' | 'i' | 'u' =>
    match value with
    | .int n => .ok (wholeNumber s width precision n)
    | .float x => do return wholeNumber s width precision (← truncated? x)
    | _ => .error .wrongKind
  | 'o' | 'x' | 'X' =>
    match value with
    | .int n => .ok (wholeNumber s width precision n)
    | _ => .error .wrongKind
  | 'e' | 'E' | 'f' | 'F' | 'g' | 'G' =>
    match value with
    | .int n => do return fraction s width precision (← nearest? n)
    | .float x => .ok (fraction s width precision x)
    | _ => .error .wrongKind
  | _ => .error .malformed

/-- The size up to which a slot is filled up. -/
def roomLimit : Nat := Nat.pow 10 7

/-- The most digits that a whole number can be asked for. -/
def digitLimit : Nat := Nat.pow 2 31 - 4

/-- Whether a slot is for whole numbers. -/
def isForWhole (s : Slot) : Bool := ['d', 'i', 'u', 'o', 'x', 'X'].contains s.letter

/-- More digits than any number with a fraction has. -/
def fractionDigits : Nat := 1100

/-- The precision that matters. A text is only cut off, and a number that is written without zeros at
its end has no more digits than it has. -/
def effective (s : Slot) (value : Json) (precision : Nat) : Nat :=
  if ['s', 'r', 'a', 'c'].contains s.letter then min precision roomLimit
  else if (s.letter = 'g' || s.letter = 'G') && !s.flags.contains '#' then min precision fractionDigits
  else
    match value with
    | .float (.infinite _) | .float .notANumber => 0
    | _ => precision

/-- A value in a slot, as far as there is room. -/
def written (s : Slot) (width : Nat) (precision : Option Nat) (value : Json) : Except TemplateFault (List Char) := do
  let room := precision.map (effective s value)
  if width ≤ roomLimit && room.all (· ≤ roomLimit) then shown s width room value
  else
    let _ ← shown s 0 none value
    throw (if isForWhole s && precision.any (digitLimit < ·) then .outOfRange else .tooWide)

/-! ## Filling -/

/-- The next value. -/
def next : List Json → Except TemplateFault (Json × List Json)
  | [] => .error .tooFew
  | value :: rest => .ok (value, rest)

/-- The greatest width. -/
def widthLimit : Int := Int.pow 2 63 - 1

/-- The greatest precision. -/
def precisionLimit : Int := Int.pow 2 31 - 1

/-- A width or precision up to a limit, and the values that are left. -/
def sizeOf (limit : Int) (size : Size) (values : List Json) : Except TemplateFault (Option Int × List Json) :=
  let checked (n : Int) (rest : List Json) : Except TemplateFault (Option Int × List Json) :=
    if n < -limit - 1 ∨ limit < n then .error .outOfRange else .ok (some n, rest)
  match size with
  | .unset => .ok (none, values)
  | .fixed n => if limit < n then .error .malformed else .ok (some n, values)
  | .given => do
    let (value, rest) ← next values
    match value with
    | .int n => checked n rest
    | .bool b => return (some b.toInt, rest)
    | _ => throw .wrongKind

/-- The values for a slot: those in order, or the one under its name. -/
def valuesFor (names : Option (Dict Json)) (name : Option String) (values : List Json) :
    Except TemplateFault (List Json) :=
  match name, names with
  | none, _ => .ok values
  | some _, none => .error .unnamed
  | some name, some names =>
    match Dict.get? names name with
    | none => .error (.noValue name)
    | some value => .ok [value]

/-- The width and the precision of a slot, and the values that are left. -/
def sizesOf (width precision : Size) (values : List Json) :
    Except TemplateFault (Option Int × Option Int × List Json) := do
  let (width, values) ← sizeOf widthLimit width values
  let (precision, values) ← sizeOf precisionLimit precision values
  return (width, precision, values)

/-- One slot with its value, and the values that are left. A negative width asks for blanks behind
the value. -/
def fillSlot (names : Option (Dict Json)) (s : Slot) (values : List Json) :
    Except TemplateFault (List Char × List Json) := do
  let values ← valuesFor names s.name values
  let (width, precision, values) ← sizesOf s.width s.precision values
  let s := if width.any (· < 0) then { s with flags := '-' :: s.flags } else s
  let (value, values) ← next values
  return (← written s ((width.map Int.natAbs).getD 0) (precision.map Int.toNat) value, values)

/-- The text of some parts, and the values that are left. -/
def fillParts (names : Option (Dict Json)) : List Part → List Json → Except TemplateFault (List Char × List Json)
  | [], values => .ok ([], values)
  | .plain c :: rest, values => do
    let (text, values) ← fillParts names rest values
    return (c :: text, values)
  | .unclosed :: _, _ => .error (if names.isNone then .unnamed else .malformed)
  | .unfinished name width precision :: _, values => do
    let _ ← sizesOf width precision (← valuesFor names name values)
    throw .malformed
  | .slot s :: rest, values => do
    let (front, values) ← fillSlot names s values
    let (text, values) ← fillParts names rest values
    return (front ++ text, values)

/-- A template with values in order. -/
def fill (template : String) (values : List Json) : Except TemplateFault String := do
  let (text, left) ← fillParts none (parts template) values
  if left.isEmpty then return String.ofList text else throw .tooMany

/-- A template with values under names. A slot without a name shows all of them at once. -/
def fillNamed (template : String) (names : Dict Json) : Except TemplateFault String := do
  return String.ofList (← fillParts (some names) (parts template) [.object names]).1

/-- The text of a message with its arguments. Without arguments it is no template; a single argument
that is an object with members gives the names. -/
def message (template : String) : List Json → Except TemplateFault String
  | [] => .ok template
  | [.object (member :: members)] => fillNamed template (member :: members)
  | arguments => fill template arguments

end Template

end NestLint
