import NestLint.Proofs.Reader.Adequacy
import NestLint.Proofs.Reader.Faults

/-!
# Syntax errors and where they are

A parser marks the places where a text does not fit the grammar, and on every node whether there is such a place
at it or below it. Reading follows the marks to the first place and reports the character that stands there. In
the body of a macro there may be any errors: the invocation is kept as it is.

A text may also close the braces that it is wrapped into and open new ones. Then nothing is marked, and what is
at the top of its tree is not the one block that reading is made for.

The first place is that of `_first_error`; what is at the top is decided by `_parse`, and the body of a macro is read
by `expand`.

* `Concrete.Flagged`, `firstError?_eq_find?`: consistent marks lead to the first place in pre-order;
* `Text.Locates`, `locates_errorPosition`: the character that is reported for a byte;
* `located_of_read`: when a syntax error is reported, and where;
* `Concrete.Wraps`, `read_of_topLevel`: what is read of a tree, whatever is at its top.
-/

namespace NestLint

/-! ## The first place of an error -/

namespace Concrete

/-- The node stands for text that does not fit, or for text that is not there. -/
def isFault (c : Concrete) : Bool := c.isError || c.missing

/-- The marks of all nodes of a tree are right: there is an error below exactly the marked ones. -/
def Flagged (c : Concrete) : Prop := ∀ d ∈ c.subtrees, d.hasError = d.subtrees.any isFault

instance (c : Concrete) : Decidable c.Flagged :=
  inferInstanceAs (Decidable (∀ d ∈ c.subtrees, d.hasError = d.subtrees.any isFault))

theorem find?_isFault_of_not_hasError {c : Concrete} (h : c.hasError = c.subtrees.any isFault)
    (hc : (c.hasError || c.missing) = false) : c.subtrees.find? isFault = none := by
  rw [Bool.or_eq_false_iff, h] at hc
  exact List.find?_eq_none.2 fun d hd => List.any_eq_false.1 hc.1 d hd

mutual

/-- Following right marks finds the first place in pre-order. -/
theorem firstError?_eq_find? : ∀ (c : Concrete), c.Flagged → c.firstError? = c.subtrees.find? isFault
  | mk type start stop named isError missing hasError field cs, h => by
    have hrest := firstErrorIn?_eq_find? cs fun d hd => h d (List.mem_cons_of_mem _ hd)
    rw [firstError?, subtrees, List.find?_cons]
    cases hfault : isError || missing with
    | true =>
      rw [if_pos rfl, show isFault (mk type start stop named isError missing hasError field cs) = true from hfault]
    | false =>
      rw [if_neg Bool.false_ne_true, hrest,
        show isFault (mk type start stop named isError missing hasError field cs) = false from hfault]

theorem firstErrorIn?_eq_find? : ∀ (cs : List Concrete),
    (∀ d ∈ subtreesIn cs, d.hasError = d.subtrees.any isFault) → firstErrorIn? cs = (subtreesIn cs).find? isFault
  | [], _ => rfl
  | c :: rest, h => by
    have hc : c.Flagged := fun d hd => h d (List.mem_append_left _ hd)
    have hrest := firstErrorIn?_eq_find? rest fun d hd => h d (List.mem_append_right _ hd)
    rw [firstErrorIn?, subtreesIn, List.find?_append, ← hrest]
    cases hmark : c.hasError || c.missing with
    | true =>
      rw [if_pos rfl, firstError?_eq_find? c hc]
      cases c.subtrees.find? isFault <;> rfl
    | false =>
      rw [if_neg Bool.false_ne_true, find?_isFault_of_not_hasError (hc c c.mem_subtrees_self) hmark]
      rfl

end

/-- A tree with a mark at its root has a first place. -/
theorem exists_firstError? {c : Concrete} (h : c.Flagged) (hc : c.hasError) :
    ∃ bad, c.subtrees.find? isFault = some bad ∧ c.firstError? = some bad := by
  rw [h c c.mem_subtrees_self, List.any_eq_true] at hc
  obtain ⟨bad, hbad⟩ := Option.isSome_iff_exists.1 (List.find?_isSome.2 hc)
  exact ⟨bad, hbad, (c.firstError?_eq_find? h).trans hbad⟩

/-- What is said of the first place. -/
def complaint (bad : Concrete) : String := if bad.missing then "missing " ++ Text.quoted bad.type else "syntax error"

end Concrete

/-! ## The character at a byte -/

namespace Text

theorem charIndex_of_byteLength_le : ∀ {cs : List Char} {offset : Nat}, byteLength cs ≤ offset →
    charIndex cs offset = cs.length
  | [], _, _ => rfl
  | c :: rest, offset, h => by
    rw [byteLength_cons] at h
    rw [charIndex, if_neg (by omega), charIndex_of_byteLength_le (by omega), List.length_cons]

theorem charIndex_of_mem {front rest : List Char} {c : Char} {offset : Nat} (hlo : byteLength front ≤ offset)
    (hhi : offset < byteLength front + c.utf8Size) : charIndex (front ++ c :: rest) offset = front.length := by
  induction front generalizing offset with
  | nil =>
    rw [show byteLength [] = 0 from rfl, Nat.zero_add] at hhi
    rw [List.nil_append, charIndex, if_pos hhi, List.length_nil]
  | cons d front ih =>
    rw [byteLength_cons] at hlo hhi
    rw [List.cons_append, charIndex, if_neg (by omega), ih (by omega) (by omega), List.length_cons]

/-- Every byte of a text is one of a character. -/
theorem exists_char_of_lt : ∀ {cs : List Char} {offset : Nat}, offset < byteLength cs →
    ∃ front c rest, cs = front ++ c :: rest ∧ byteLength front ≤ offset ∧ offset < byteLength front + c.utf8Size
  | c :: rest, offset, h => by
    by_cases hc : offset < c.utf8Size
    · exact ⟨[], c, rest, rfl, Nat.zero_le _, (Nat.zero_add _).symm ▸ hc⟩
    · rw [byteLength_cons] at h
      have hrest : offset - c.utf8Size < byteLength rest := by omega
      obtain ⟨front, d, back, rfl, hlo, hhi⟩ := exists_char_of_lt hrest
      refine ⟨c :: front, d, back, rfl, ?_, ?_⟩
      all_goals
        rw [byteLength_cons]
        omega

/-- Where all characters take one byte, the character at a byte has the same number. -/
theorem charIndex_of_isSingleByte : ∀ {cs : List Char} {offset : Nat}, isSingleByte cs → offset ≤ cs.length →
    charIndex cs offset = offset
  | [], _, _, h => (Nat.le_zero.1 h).symm
  | c :: rest, 0, _, _ => by rw [charIndex, if_pos c.utf8Size_pos]
  | c :: rest, offset + 1, hsingle, h => by
    rw [isSingleByte, List.all_cons, Bool.and_eq_true, beq_iff_eq] at hsingle
    rw [charIndex, hsingle.1, if_neg (by omega), Nat.add_sub_cancel,
      charIndex_of_isSingleByte hsingle.2 (Nat.le_of_succ_le_succ h)]

/-- The position of a byte, counted from the brace in front of the text: the character that has the byte. What is
in the opening brace is at the start of the text, and what is behind the text is at its end. -/
structure Locates (text : List Char) (byte : Nat) (position : Int) : Prop where
  opening : byte = 0 → position = 0
  closing : byteLength text < byte → position = text.length
  between : 0 < byte → byte ≤ byteLength text → ∃ front c rest, text = front ++ c :: rest ∧
    byteLength front < byte ∧ byte ≤ byteLength front + c.utf8Size ∧ position = front.length

/-- A position is one in the text. -/
theorem Locates.bounds {text : List Char} {byte : Nat} {position : Int} (h : Locates text byte position) :
    0 ≤ position ∧ position ≤ text.length := by
  by_cases hlo : byte = 0
  · rw [h.opening hlo]
    exact ⟨Int.le_refl _, Int.natCast_nonneg _⟩
  by_cases hhi : byteLength text < byte
  · rw [h.closing hhi]
    exact ⟨Int.natCast_nonneg _, Int.le_refl _⟩
  · obtain ⟨front, c, rest, rfl, -, -, rfl⟩ := h.between (by omega) (by omega)
    refine ⟨Int.natCast_nonneg _, Int.ofNat_le.2 ?_⟩
    rw [List.length_append]
    exact Nat.le_add_right _ _

end Text

namespace Snippet

open Text

/-- The table of characters and the count of bytes agree, whichever of them is used. -/
theorem position_ofFile (file : List Char) {byte : Nat} (h : byte ≤ byteLength file + 1) :
    (ofFile file).position byte = charIndex file (byte - 1) := by
  have hoffset : ((byte : Int) + (ofFile file).shift).toNat = byte - 1 := by
    show ((byte : Int) + -1).toNat = _
    omega
  rw [position, hoffset]
  split
  · rename_i hsingle
    have hsingle : isSingleByte file := hsingle
    rw [charIndex_of_isSingleByte hsingle (by rw [← byteLength_eq_length hsingle]; omega)]
  · rfl

/-- The character that is reported for an error is the one that has its first byte. -/
theorem locates_errorPosition (file : List Char) (c : Concrete) :
    Locates file c.start ((ofFile file).errorPosition c) := by
  have hlength : byteLength (ofFile file).wrapped = byteLength file + 3 := by
    show byteLength ('\x7b' :: file ++ ['\n', '\x7d']) = _
    rw [byteLength_append, byteLength_opening]
    rfl
  have hposition : (ofFile file).errorPosition c = charIndex file (min c.start (byteLength file + 1) - 1) := by
    rw [errorPosition, hlength]
    exact position_ofFile file (Nat.min_le_right _ _)
  rw [hposition]
  refine ⟨fun hstart => ?_, fun hstart => ?_, fun hlo hhi => ?_⟩
  · rw [hstart, Nat.zero_min, Nat.zero_sub]
    cases file with
    | nil => rfl
    | cons d rest =>
      rw [charIndex, if_pos d.utf8Size_pos]
      rfl
  · rw [Nat.min_eq_right hstart, Nat.succ_sub_one, charIndex_of_byteLength_le (Nat.le_refl _)]
  · obtain ⟨front, d, rest, rfl, hfront, hd⟩ := exists_char_of_lt (show c.start - 1 < byteLength file by omega)
    rw [Nat.min_eq_left (by omega), charIndex_of_mem hfront hd]
    exact ⟨front, d, rest, rfl, by omega, by omega, rfl⟩

end Snippet

namespace Reader

variable {parser : Parser} {opaqueMacros : List String} {text fileName : String} {start : Progress}

/-! ## Files with errors -/

/-- A marked tree is not taken for a list of statements. -/
theorem parse_of_hasError {s : Snippet} {top : Concrete} (hparse : parser (String.ofList s.body) = some top)
    (htop : top.hasError) : ∃ what position, parse parser s = .error (.malformed what position) := by
  rw [parse, hparse]
  exact ⟨_, _, if_pos htop⟩

/-- A snippet whose tree is not marked is not malformed. -/
theorem parse_ne_malformed {s : Snippet} {top : Concrete} (hparse : parser (String.ofList s.body) = some top)
    (htop : top.hasError = false) (what : String) (position : Int) :
    parse parser s ≠ .error (.malformed what position) := by
  intro h
  simp only [parse, hparse, statementBlock, htop, Bool.false_eq_true, if_false] at h
  split at h
  · split at h
    · cases h
    · split at h <;> cases h
  · cases h

/-- A file whose statements cannot be read fails like them. -/
theorem read_of_fails {block : Concrete} {fault : ReadFault} {after : Progress}
    (hparse : parse parser (Snippet.ofFile text.toList) = .ok block)
    (h : Fails (build parser opaqueMacros endurance (Snippet.ofFile text.toList) (.block block)) start fault after) :
    read parser opaqueMacros text fileName start = (.error fault, after) := by
  have htree : Fails (readTree parser opaqueMacros text.toList) start fault after := by
    rw [readTree]
    exact fails_bind.2 (.inr ⟨block, start, gives_ofExcept.2 ⟨hparse, rfl⟩, fails_bind.2 (.inl h)⟩)
  rw [read, show (readTree parser opaqueMacros text.toList).run start = _ from htree]
  rfl

/-- What is read of a file whose statements were found. -/
theorem read_of_parse {block : Concrete} (hparse : parse parser (Snippet.ofFile text.toList) = .ok block) :
    read parser opaqueMacros text fileName start =
      match (build parser opaqueMacros endurance (Snippet.ofFile text.toList) (.block block)).run start with
      | (.ok n, after) => (.ok ⟨n.withSpan (wholeSpan text), ⟨text, fileName⟩⟩, after)
      | (.error fault, after) => (.error fault, after) := by
  cases hrun : (build parser opaqueMacros endurance (Snippet.ofFile text.toList) (.block block)).run start with
  | mk result after =>
    cases result with
    | ok n => exact read_of_gives fileName hparse hrun
    | error fault => exact read_of_fails hparse hrun

/-- A file whose statements were not found fails at once. -/
theorem read_of_parse_error {fault : ReadFault} (hparse : parse parser (Snippet.ofFile text.toList) = .error fault) :
    read parser opaqueMacros text fileName start = (.error fault, start) := by
  rw [read, readTree, hparse]
  rfl

theorem parser_ofFile {top : Concrete} (hparse : parser text = some top) :
    parser (String.ofList (Snippet.ofFile text.toList).body) = some top := by
  rw [show (Snippet.ofFile text.toList).body = text.toList from rfl, String.ofList_toList, hparse]

/-- A file that is not read was not parsed, or something in it is to blame. -/
theorem blame_of_read {fault : ReadFault} (h : (read parser opaqueMacros text fileName start).1 = .error fault) :
    parse parser (Snippet.ofFile text.toList) = .error fault ∨
      ∃ block, parse parser (Snippet.ofFile text.toList) = .ok block ∧
        Blame parser opaqueMacros endurance (Snippet.ofFile text.toList) (.block block) fault := by
  cases hblock : parse parser (Snippet.ofFile text.toList) with
  | error fault' =>
    rw [read_of_parse_error hblock] at h
    cases h
    exact .inl rfl
  | ok block =>
    rw [read_of_parse hblock] at h
    split at h
    · cases h
    · rename_i hfails
      cases h
      exact .inr ⟨block, rfl, blame_of_build _ _ _ hfails⟩

/-- No file is reported to be malformed unless its own tree is marked, whatever there is in the macros of it. -/
theorem read_ne_malformed {top : Concrete} (hparse : parser text = some top) (htop : top.hasError = false)
    (what : String) (position : Int) (after : Progress) :
    read parser opaqueMacros text fileName start ≠ (.error (.malformed what position), after) := by
  intro h
  obtain hfile | ⟨block, -, hblame⟩ := blame_of_read (congrArg Prod.fst h)
  · exact parse_ne_malformed (parser_ofFile hparse) htop what position hfile
  · exact ne_malformed_of_blame hblame what position rfl

/-- A file whose tree is marked fails at once, with the place that the marks lead to. -/
theorem read_of_hasError {top bad : Concrete} (hparse : parser text = some top) (htop : top.hasError)
    (hbad : top.firstError? = some bad) :
    read parser opaqueMacros text fileName start =
      (.error (.malformed bad.complaint ((Snippet.ofFile text.toList).errorPosition bad)), start) := by
  refine read_of_parse_error ?_
  rw [parse, parser_ofFile hparse]
  simp only [statementBlock, if_pos htop, hbad, Option.getD_some, Concrete.complaint]

/-- A syntax error is reported exactly if the tree of the file is marked: the first one in pre-order, at the
character that has its first byte. An invocation whose body has an error is kept, wherever it stands. -/
theorem located_of_read {top : Concrete} (hparse : parser text = some top) (hflags : top.Flagged) :
    ((∃ what position after, read parser opaqueMacros text fileName start = (.error (.malformed what position), after)) ↔
      top.hasError) ∧
    (top.hasError → ∃ bad, top.subtrees.find? Concrete.isFault = some bad ∧
      let position := (Snippet.ofFile text.toList).errorPosition bad
      read parser opaqueMacros text fileName start = (.error (.malformed bad.complaint position), start) ∧
        Text.Locates text.toList bad.start position ∧ 0 ≤ position ∧ position ≤ text.toList.length) ∧
    ∀ {t : Nat} {s inner : Snippet} {c top' : Concrete} {name : String} {p : Progress},
      c.type = "macro_invocation" → macroName s c = .ok name → Opens opaqueMacros s c name p.nextOrigin inner →
      parser (String.ofList inner.body) = some top' → top'.hasError →
        ∃ q, Gives (build parser opaqueMacros t s (.expr c)) p (.macroCall (s.span c) name) q := by
  refine ⟨⟨?_, fun htop => ?_⟩, fun htop => ?_, fun hc hname ho hbody htop' => ?_⟩
  · rintro ⟨what, position, after, h⟩
    cases htop : top.hasError with
    | true => rfl
    | false => exact absurd h (read_ne_malformed hparse htop what position after)
  · obtain ⟨bad, -, hbad⟩ := Concrete.exists_firstError? hflags htop
    exact ⟨_, _, _, read_of_hasError hparse htop hbad⟩
  · obtain ⟨bad, hfirst, hbad⟩ := Concrete.exists_firstError? hflags htop
    have hlocates := Snippet.locates_errorPosition text.toList bad
    exact ⟨bad, hfirst, read_of_hasError hparse htop hbad, hlocates, hlocates.bounds⟩
  · obtain ⟨what, position, hmalformed⟩ := parse_of_hasError hbody htop'
    obtain ⟨q, -, hq⟩ := gives_broken hc hname ho hmalformed
    exact ⟨q, hq⟩

/-! ### A wide character, and errors inside macros -/

section Broken

open Concrete

/-- A construct that has an error below it. -/
def markedAt (type : String) (start stop : Nat) (children : List Concrete) : Concrete :=
  .mk type start stop true false false true none children

/-- Text that does not fit. -/
def errorAt (start stop : Nat) : Concrete := .mk "ERROR" start stop true true false true none []

/-- What a parser makes of a wrapped text with these nodes between the braces and an error among them. -/
def markedTop (stop : Nat) (nodes : List Concrete) : Concrete :=
  markedAt "source_file" 0 stop
    [markedAt "expression_statement" 0 stop
      [markedAt "block" 0 stop ([token "\x7b" 0 1] ++ nodes ++ [token "\x7d" (stop - 1) stop])]]

/-- The tree of `é @`. The letter takes two bytes. -/
def wideTop : Concrete := markedTop 7 [construct "identifier" 1 3 none [], errorAt 4 5]

/-- The tree of an invocation of a macro with a name of one letter at the start of a snippet. -/
def callUpTo (stop : Nat) : Concrete :=
  construct "macro_invocation" 1 stop none
    [construct "identifier" 1 2 (some "macro") [], token "!" 2 3, construct "token_tree" 3 stop none []]

/-- A parser that knows two files and what is in the macros of the second one. -/
def brokenParser (body : String) : Option Concrete :=
  if body = "é @" then some wideTop
  else if body = "m!(n!(@))" then some (ofWrapping 12 (callUpTo 10))
  else if body = "n!(@)" then some (ofWrapping 8 (callUpTo 6))
  else if body = "@" then some (markedTop 4 [errorAt 1 2])
  else none

/-- In `é @` the second word is an error. In `m!(n!(@))` it is one only inside of `n!`, which is in the body of `m!`
and stays there. -/
theorem located_of_read_nested :
    (brokenParser "é @" = some wideTop ∧ wideTop.Flagged ∧
      read brokenParser [] "é @" "main.rs" {} = (.error (.malformed "syntax error" 2), {})) ∧
    brokenParser "m!(n!(@))" = some (ofWrapping 12 (callUpTo 10)) ∧ (ofWrapping 12 (callUpTo 10)).Flagged ∧
      (∀ what position after, read brokenParser [] "m!(n!(@))" "main.rs" {} ≠ (.error (.malformed what position), after)) ∧
      let outer := (Snippet.ofFile "m!(n!(@))".toList).inner (construct "token_tree" 3 10 none []) "n!(@)".toList
        ⟨1, some "m"⟩
      ∃ q, Gives (build brokenParser [] endurance outer (.expr (callUpTo 6))) { nextOrigin := 2 }
        (.macroCall ⟨3, 8, ⟨1, some "m"⟩⟩ "n") q := by
  have hwide : wideTop.Flagged := by decide +kernel
  have hcalls : (ofWrapping 12 (callUpTo 10)).Flagged := by decide +kernel
  obtain ⟨-, hread, -⟩ := @located_of_read brokenParser [] "é @" "main.rs" {} wideTop rfl hwide
  obtain ⟨hmalformed, -, hkept⟩ :=
    @located_of_read brokenParser [] "m!(n!(@))" "main.rs" {} (ofWrapping 12 (callUpTo 10)) rfl hcalls
  refine ⟨⟨rfl, hwide, ?_⟩, rfl, hcalls, fun what position after h => ?_, ?_⟩
  · obtain ⟨bad, hbad, hread, -⟩ := hread rfl
    cases (show wideTop.subtrees.find? isFault = some (errorAt 4 5) from rfl).symm.trans hbad
    exact hread
  · cases hmalformed.1 ⟨what, position, after, h⟩
  · exact hkept rfl rfl ⟨_, _, rfl, rfl, rfl⟩ rfl rfl

end Broken

end Reader

/-! ## What is at the top of a tree -/

namespace Concrete

/-- The one thing at the top of a tree is a block from the first byte to the end, or a statement with nothing else
in it. -/
structure Wraps (stop : Nat) (top block : Concrete) : Prop where
  alone : top.parts = [block] ∨ ∃ stmt, top.parts = [stmt] ∧ stmt.type ≠ "block" ∧ stmt.parts = [block]
  type : block.type = "block"
  start : block.start = 0
  stop : block.stop = stop

/-- The node that statements are taken from: the one thing at the top if that is a block, or else the first thing
in it, whatever that is. -/
def Leads (top block : Concrete) : Prop :=
  (top.parts = [block] ∧ block.type = "block") ∨
    ∃ stmt rest, top.parts = [stmt] ∧ stmt.type ≠ "block" ∧ stmt.parts = block :: rest

theorem Wraps.leads {stop : Nat} {top block : Concrete} (h : top.Wraps stop block) : top.Leads block := by
  obtain hparts | ⟨stmt, hparts, hstmt, hblock⟩ := h.alone
  · exact .inl ⟨hparts, h.type⟩
  · exact .inr ⟨stmt, [], hparts, hstmt, hblock⟩

end Concrete

namespace Reader

section TopLevel

variable {s : Snippet} {top : Concrete}

theorem statementBlock_of_leads {block : Concrete} (htop : top.hasError = false) (h : top.Leads block) :
    statementBlock s top = .ok block := by
  obtain ⟨hparts, htype⟩ | ⟨stmt, rest, hparts, hstmt, hblock⟩ := h
  · simp only [statementBlock, htop, hparts, htype, Bool.false_eq_true, if_false, if_true]
  · simp only [statementBlock, htop, hparts, hstmt, hblock, Bool.false_eq_true, if_false]

theorem statementBlock_of_bare {stmt : Concrete} (htop : top.hasError = false) (hparts : top.parts = [stmt])
    (htype : stmt.type ≠ "block") (hstmt : stmt.parts = []) : statementBlock s top = .error .missingPart := by
  simp only [statementBlock, htop, hparts, htype, hstmt, Bool.false_eq_true, if_false]

theorem statementBlock_of_stray (htop : top.hasError = false) (hparts : top.parts.length ≠ 1) :
    statementBlock s top = .error .unwrapped := by
  simp only [statementBlock, htop, Bool.false_eq_true, if_false]
  split
  · rename_i stmt hone
    rw [hone] at hparts
    exact absurd rfl hparts
  · rfl

/-- What is at the top of a tree: not one thing, one thing with nothing in it, or something to take statements
from. -/
theorem topLevel_cases (top : Concrete) : top.parts.length ≠ 1 ∨
    (∃ stmt, top.parts = [stmt] ∧ stmt.type ≠ "block" ∧ stmt.parts = []) ∨ ∃ block, top.Leads block := by
  by_cases hone : top.parts.length = 1
  · obtain ⟨stmt, hparts⟩ := List.length_eq_one_iff.1 hone
    by_cases htype : stmt.type = "block"
    · exact .inr (.inr ⟨stmt, .inl ⟨hparts, htype⟩⟩)
    · cases hstmt : stmt.parts with
      | nil => exact .inr (.inl ⟨stmt, hparts, htype, hstmt⟩)
      | cons block rest => exact .inr (.inr ⟨block, .inr ⟨stmt, rest, hparts, htype, hstmt⟩⟩)
  · exact .inl hone

end TopLevel

/-- A file is reported to be malformed exactly if its tree is marked. If it is not, and the file closes the braces
around it so that there is more than one thing at the top, reading fails too, but without a syntax error; and if
there is one thing, statements are taken from what is in it, whether it is the block around the file or not. -/
theorem read_of_topLevel {top : Concrete} (hparse : parser text = some top) :
    ((∃ what position after, read parser opaqueMacros text fileName start = (.error (.malformed what position), after)) ↔
      top.hasError) ∧
    (∀ block, top.Wraps (Text.byteLength text.toList + 3) block → top.Leads block) ∧
    (top.hasError = false →
      (top.parts.length ≠ 1 ∧ read parser opaqueMacros text fileName start = (.error .unwrapped, start)) ∨
      (∃ stmt, top.parts = [stmt] ∧ stmt.type ≠ "block" ∧ stmt.parts = [] ∧
        read parser opaqueMacros text fileName start = (.error .missingPart, start)) ∨
      ∃ block, top.Leads block ∧ read parser opaqueMacros text fileName start =
        match (build parser opaqueMacros endurance (Snippet.ofFile text.toList) (.block block)).run start with
        | (.ok n, after) => (.ok ⟨n.withSpan (wholeSpan text), ⟨text, fileName⟩⟩, after)
        | (.error fault, after) => (.error fault, after)) := by
  have hstatements (result : Except ReadFault Concrete)
      (h : statementBlock (Snippet.ofFile text.toList) top = result) :
      parse parser (Snippet.ofFile text.toList) = result := by
    rw [parse, parser_ofFile hparse]
    exact h
  refine ⟨⟨?_, fun htop => ?_⟩, fun block hblock => hblock.leads, fun htop => ?_⟩
  · rintro ⟨what, position, after, h⟩
    cases htop : top.hasError with
    | true => rfl
    | false => exact absurd h (read_ne_malformed hparse htop what position after)
  · obtain ⟨what, position, hmalformed⟩ := parse_of_hasError (parser_ofFile hparse) htop
    exact ⟨what, position, start, read_of_parse_error hmalformed⟩
  · obtain hparts | ⟨stmt, hparts, htype, hstmt⟩ | ⟨block, hleads⟩ := topLevel_cases top
    · exact .inl ⟨hparts, read_of_parse_error (hstatements _ (statementBlock_of_stray htop hparts))⟩
    · refine .inr (.inl ⟨stmt, hparts, htype, hstmt, ?_⟩)
      exact read_of_parse_error (hstatements _ (statementBlock_of_bare htop hparts htype hstmt))
    · exact .inr (.inr ⟨block, hleads, read_of_parse (hstatements _ (statementBlock_of_leads htop hleads))⟩)

/-! ### Texts that close the braces around them -/

section Stray

open Concrete

/-- A statement that is a block without statements. -/
def bracesAt (start stop : Nat) : Concrete :=
  construct "expression_statement" start stop none
    [construct "block" start stop none [token "\x7b" start (start + 1), token "\x7d" (stop - 1) stop]]

/-- The tree of `} {`, which is two blocks between the braces. -/
def twoBlocks : Concrete := construct "source_file" 0 6 none [bracesAt 0 2, bracesAt 3 6]

/-- The tree of `} {} {`, which is three. -/
def threeBlocks : Concrete := construct "source_file" 0 9 none [bracesAt 0 2, bracesAt 3 5, bracesAt 6 9]

/-- A parser that knows the two texts. -/
def strayParser (body : String) : Option Concrete :=
  if body = "\x7d \x7b" then some twoBlocks else if body = "\x7d \x7b\x7d \x7b" then some threeBlocks else none

theorem read_of_topLevel_threeBlocks :
    strayParser "\x7d \x7b\x7d \x7b" = some threeBlocks ∧ threeBlocks.hasError = false ∧ threeBlocks.parts.length = 3 ∧
      read strayParser [] "\x7d \x7b\x7d \x7b" "main.rs" {} = (.error .unwrapped, {}) := by
  obtain ⟨-, -, hread⟩ := @read_of_topLevel strayParser [] "\x7d \x7b\x7d \x7b" "main.rs" {} threeBlocks rfl
  obtain ⟨-, hread⟩ | ⟨stmt, hparts, -⟩ | ⟨block, hleads, -⟩ := hread rfl
  · exact ⟨rfl, rfl, rfl, hread⟩
  · cases hparts
  · obtain ⟨hparts, -⟩ | ⟨stmt, rest, hparts, -⟩ := hleads
    · cases hparts
    · cases hparts

/-- The text `} {` is no list of statements and no block wraps it, and it is not reported to be malformed. -/
theorem stray_not_malformed :
    strayParser "\x7d \x7b" = some twoBlocks ∧ twoBlocks.Flagged ∧ (∀ block, ¬twoBlocks.Wraps 6 block) ∧
      read strayParser [] "\x7d \x7b" "main.rs" {} = (.error .unwrapped, {}) ∧
      ∀ what position after, read strayParser [] "\x7d \x7b" "main.rs" {} ≠ (.error (.malformed what position), after) := by
  have hread : read strayParser [] "\x7d \x7b" "main.rs" {} = (.error .unwrapped, {}) := read_of_parse_error rfl
  refine ⟨rfl, by decide +kernel, fun block h => ?_, hread, fun what position after h => ?_⟩
  · obtain hparts | ⟨stmt, hparts, -⟩ := h.alone
    · cases hparts
    · cases hparts
  · cases hread.symm.trans h

end Stray

end Reader

end NestLint
