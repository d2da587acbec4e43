import NestLint.Reader.Snippet
import NestLint.Source.Text

/-!
# Bytes that the parser saw and characters of the file

A snippet is a stretch of its file, at whatever depth of macro bodies it was found, and its shift says
how many bytes of the file lie in front of it. So a node of its concrete tree has the same text twice:
in the bytes that the parser saw, and in the file under the span of the node.

The spans are those of `span`, whose ends `pos` looks up in what `_char_offsets` lists.

* `Text.Boundary`, `Concrete.Inside`: ranges of bytes that begin and end between characters;
* `Snippet.Nested`: the snippets that come from a file, one inside the other;
* `Nested.placed`: where such a snippet stands in the file;
* `snippet?_span`: the text under the span of a node is what the parser saw.
-/

namespace NestLint

namespace Text

/-- A character starts at byte `offset`, or the text ends there. -/
def Boundary (cs : List Char) (offset : Nat) : Prop := ∃ front back, cs = front ++ back ∧ byteLength front = offset

theorem boundary_zero (cs : List Char) : Boundary cs 0 := ⟨[], cs, rfl, rfl⟩

theorem boundary_cons {c : Char} {cs : List Char} {offset : Nat} (h : offset ≠ 0) :
    Boundary (c :: cs) offset ↔ c.utf8Size ≤ offset ∧ Boundary cs (offset - c.utf8Size) := by
  constructor
  · rintro ⟨front, back, hcs, rfl⟩
    cases front with
    | nil => exact absurd rfl h
    | cons d front =>
      cases hcs
      rw [byteLength_cons, Nat.add_sub_cancel_left]
      exact ⟨Nat.le_add_right .., front, back, rfl, rfl⟩
  · rintro ⟨hsize, front, back, rfl, hfront⟩
    exact ⟨c :: front, back, rfl, by rw [byteLength_cons]; omega⟩

instance instDecidableBoundary : (cs : List Char) → (offset : Nat) → Decidable (Boundary cs offset)
  | cs, 0 => isTrue (boundary_zero cs)
  | [], offset + 1 => isFalse fun ⟨front, back, hcs, hfront⟩ => by
    rw [(List.append_eq_nil_iff.1 hcs.symm).1] at hfront
    cases hfront
  | c :: cs, offset + 1 =>
    have := instDecidableBoundary cs (offset + 1 - c.utf8Size)
    decidable_of_iff _ (boundary_cons (Nat.succ_ne_zero offset)).symm

theorem eq_nil_of_byteLength_eq_zero {cs : List Char} (h : byteLength cs = 0) : cs = [] := by
  cases cs with
  | nil => rfl
  | cons c cs =>
    have := Char.utf8Size_pos c
    rw [byteLength_cons] at h
    omega

theorem eq_singleton_of_byteLength_eq_one {cs : List Char} (h : byteLength cs = 1) :
    ∃ c, cs = [c] ∧ c.utf8Size = 1 := by
  cases cs with
  | nil => cases h
  | cons c cs =>
    have := Char.utf8Size_pos c
    rw [byteLength_cons] at h
    rw [eq_nil_of_byteLength_eq_zero (show byteLength cs = 0 by omega)]
    exact ⟨c, rfl, by omega⟩

/-- Of two starts of a text, the one with fewer bytes is a start of the other one. -/
theorem exists_of_byteLength_le {front front' back back' : List Char} (h : front ++ back = front' ++ back')
    (hle : byteLength front ≤ byteLength front') : ∃ middle, front' = front ++ middle := by
  obtain ⟨middle, hfront, -⟩ | ⟨middle, hfront, -⟩ := List.append_eq_append_iff.1 h
  · exact ⟨middle, hfront⟩
  · rw [hfront, byteLength_append] at hle
    rw [eq_nil_of_byteLength_eq_zero (show byteLength middle = 0 by omega), List.append_nil] at hfront
    exact ⟨[], by rw [hfront, List.append_nil]⟩

/-- Where every character takes one byte, characters are counted by bytes. -/
theorem byteLength_eq_length {cs : List Char} (h : isSingleByte cs) : byteLength cs = cs.length := by
  induction cs with
  | nil => rfl
  | cons c cs ih =>
    rw [isSingleByte, List.all_cons, Bool.and_eq_true, beq_iff_eq] at h
    rw [byteLength_cons, h.1, ih h.2, List.length_cons, Nat.add_comm]

/-- The number of bytes is that of the UTF-8 form. -/
theorem size_utf8Encode (cs : List Char) : cs.utf8Encode.size = byteLength cs := by
  induction cs with
  | nil => rfl
  | cons c cs ih =>
    rw [List.utf8Encode_cons, ByteArray.size_append, List.utf8Encode_singleton, List.size_toByteArray,
      String.length_utf8EncodeChar, ih, byteLength_cons]

/-- The bytes between two boundaries are the UTF-8 form of the characters between them. -/
theorem extract_utf8Encode (front middle back : List Char) :
    (front ++ middle ++ back).utf8Encode.extract (byteLength front) (byteLength (front ++ middle)) =
      middle.utf8Encode := by
  rw [List.utf8Encode_append, List.utf8Encode_append, ByteArray.append_assoc, byteLength_append,
    ← size_utf8Encode front, ← size_utf8Encode middle]
  have hshift := ByteArray.extract_append_size_add (a := front.utf8Encode) (b := middle.utf8Encode ++ back.utf8Encode)
    (i := 0) (j := middle.utf8Encode.size)
  rw [Nat.add_zero] at hshift
  rw [hshift, ByteArray.extract_append_eq_left rfl]

theorem fromUTF8?_utf8Encode (cs : List Char) : String.fromUTF8? cs.utf8Encode = some (String.ofList cs) := by
  rw [String.fromUTF8?, dif_pos ByteArray.isValidUTF8_utf8Encode]
  rfl

end Text

/-! ## Ranges in a snippet -/

/-- The range of a node lies in a snippet with this body and begins and ends between characters. The brace
in front of the body is the first byte. -/
structure Concrete.Inside (body : List Char) (c : Concrete) : Prop where
  ordered : c.start ≤ c.stop
  start : 1 ≤ c.start ∧ Text.Boundary body (c.start - 1)
  stop : 1 ≤ c.stop ∧ Text.Boundary body (c.stop - 1)

/-- The text `t` stands in the range of a node. -/
def Concrete.Spells (body : List Char) (c : Concrete) (t : List Char) : Prop :=
  ∃ front back, body = front ++ t ++ back ∧ c.start = Text.byteLength front + 1 ∧
    c.stop = Text.byteLength (front ++ t) + 1

/-- The range of a node begins and ends with a character that takes one byte, and these are two. -/
structure Concrete.Delimited (body : List Char) (c : Concrete) : Prop where
  opening : 1 ≤ c.start ∧ Text.Boundary body (c.start - 1) ∧ Text.Boundary body c.start
  closing : c.start + 2 ≤ c.stop ∧ Text.Boundary body (c.stop - 2) ∧ Text.Boundary body (c.stop - 1)

instance (body : List Char) (c : Concrete) : Decidable (c.Inside body) :=
  decidable_of_iff
    (c.start ≤ c.stop ∧ (1 ≤ c.start ∧ Text.Boundary body (c.start - 1)) ∧
      1 ≤ c.stop ∧ Text.Boundary body (c.stop - 1))
    ⟨fun ⟨hordered, hstart, hstop⟩ => ⟨hordered, hstart, hstop⟩, fun h => ⟨h.ordered, h.start, h.stop⟩⟩

instance (body : List Char) (c : Concrete) : Decidable (c.Delimited body) :=
  decidable_of_iff
    ((1 ≤ c.start ∧ Text.Boundary body (c.start - 1) ∧ Text.Boundary body c.start) ∧
      c.start + 2 ≤ c.stop ∧ Text.Boundary body (c.stop - 2) ∧ Text.Boundary body (c.stop - 1))
    ⟨fun ⟨hopening, hclosing⟩ => ⟨hopening, hclosing⟩, fun h => ⟨h.opening, h.closing⟩⟩

theorem Concrete.Inside.spells {body : List Char} {c : Concrete} (h : c.Inside body) : ∃ t, c.Spells body t := by
  obtain ⟨front, rest, hfront, hstart⟩ := h.start.2
  obtain ⟨front', back, hfront', hstop⟩ := h.stop.2
  have hordered := h.ordered
  have := h.start.1
  obtain ⟨t, rfl⟩ := Text.exists_of_byteLength_le (hfront.symm.trans hfront') (by omega)
  exact ⟨t, front, back, hfront', by omega, by have := h.stop.1; omega⟩

theorem Concrete.Delimited.spells {body : List Char} {c : Concrete} (h : c.Delimited body) :
    ∃ opening inside closing, c.Spells body (opening :: inside ++ [closing]) ∧ opening.utf8Size = 1 ∧
      closing.utf8Size = 1 := by
  obtain ⟨hlo, ⟨front, _, hfront, hfrontLength⟩, ⟨opened, _, hopened, hopenedLength⟩⟩ := h.opening
  obtain ⟨hhi, ⟨filled, _, hfilled, hfilledLength⟩, ⟨closed, back, hbody, hclosedLength⟩⟩ := h.closing
  obtain ⟨first, rfl⟩ := Text.exists_of_byteLength_le (hfront.symm.trans hopened) (by omega)
  obtain ⟨inside, rfl⟩ := Text.exists_of_byteLength_le (hopened.symm.trans hfilled) (by omega)
  obtain ⟨last, rfl⟩ := Text.exists_of_byteLength_le (hfilled.symm.trans hbody) (by omega)
  have hfirst : Text.byteLength first = 1 := by
    rw [Text.byteLength_append] at hopenedLength
    omega
  have hlast : Text.byteLength last = 1 := by
    rw [Text.byteLength_append] at hclosedLength
    omega
  obtain ⟨opening, rfl, hopening⟩ := Text.eq_singleton_of_byteLength_eq_one hfirst
  obtain ⟨closing, rfl, hclosing⟩ := Text.eq_singleton_of_byteLength_eq_one hlast
  have hmiddle : front ++ [opening] ++ inside ++ [closing] = front ++ (opening :: inside ++ [closing]) := by
    simp only [List.append_assoc, List.cons_append, List.nil_append]
  rw [hmiddle] at hbody hclosedLength
  exact ⟨opening, inside, closing, ⟨front, back, hbody, by omega, by omega⟩, hopening, hclosing⟩

namespace Snippet

open Text

theorem wrapped_append (s : Snippet) {front t back : List Char} (h : s.body = front ++ t ++ back) :
    s.wrapped = ('\x7b' :: front) ++ t ++ (back ++ ['\n', '\x7d']) := by
  rw [wrapped, h]
  simp only [List.cons_append, List.append_assoc]

theorem byteLength_opening (cs : List Char) : byteLength ('\x7b' :: cs) = byteLength cs + 1 := by
  rw [byteLength_cons, Nat.add_comm]
  rfl

theorem text?_of_spells {s : Snippet} {c : Concrete} {t : List Char} (h : c.Spells s.body t) : s.text? c = some t := by
  obtain ⟨front, back, hbody, hstart, hstop⟩ := h
  rw [text?, s.wrapped_append hbody, hstart, hstop, ← byteLength_opening, ← byteLength_opening, ← List.cons_append]
  exact cut_byteLength ..

/-- The parser saw the UTF-8 form of the text of a node. -/
theorem fromUTF8?_of_spells {s : Snippet} {c : Concrete} {t : List Char} (h : c.Spells s.body t) :
    String.fromUTF8? ((String.ofList s.wrapped).toByteArray.extract c.start c.stop) = some (String.ofList t) := by
  obtain ⟨front, back, hbody, hstart, hstop⟩ := h
  rw [String.toByteArray_ofList, s.wrapped_append hbody, hstart, hstop, ← byteLength_opening, ← byteLength_opening,
    ← List.cons_append, extract_utf8Encode, fromUTF8?_utf8Encode]

theorem inside?_of_spells {s : Snippet} {c : Concrete} {opening closing : Char} {t : List Char}
    (h : c.Spells s.body (opening :: t ++ [closing])) (hopening : opening.utf8Size = 1)
    (hclosing : closing.utf8Size = 1) : s.inside? c = some t := by
  obtain ⟨front, back, hbody, hstart, hstop⟩ := h
  have hinside : s.body = (front ++ [opening]) ++ t ++ closing :: back := by
    rw [hbody]
    simp only [List.append_assoc, List.cons_append, List.nil_append]
  have hlo : c.start + 1 = byteLength ('\x7b' :: (front ++ [opening])) := by
    rw [byteLength_opening, byteLength_append, byteLength_cons, hopening, hstart]
    rfl
  have hhi : c.stop - 1 = byteLength ('\x7b' :: (front ++ [opening]) ++ t) := by
    rw [List.cons_append, byteLength_opening, hstop]
    simp only [byteLength_append, byteLength_cons, hopening, hclosing]
    show _ = byteLength front + (1 + 0) + byteLength t + 1
    rw [show byteLength [] = 0 from rfl]
    omega
  rw [inside?, if_neg (by omega), hlo, hhi, s.wrapped_append hinside]
  exact cut_byteLength ..

/-! ## Snippets of a file -/

/-- The snippets of a file: the file, and what stands between the delimiters of a node of one of them. -/
inductive Nested (file : List Char) : Snippet → Prop where
  | whole : Nested file (.ofFile file)
  | inner {s : Snippet} {c : Concrete} {body : List Char} (origin : Origin) :
    Nested file s → c.Delimited s.body → s.inside? c = some body → Nested file (s.inner c body origin)

/-- The body of the snippet stands in the file, behind as many bytes as the shift says. -/
structure Placed (file : List Char) (s : Snippet) (front : List Char) : Prop where
  whole : s.file = file
  body : ∃ back, file = front ++ s.body ++ back
  shift : s.shift = byteLength front - 1

theorem Nested.placed {file : List Char} {s : Snippet} (h : Nested file s) : ∃ front, Placed file s front := by
  induction h with
  | whole => exact ⟨[], rfl, ⟨[], by rw [List.append_nil]; rfl⟩, rfl⟩
  | @inner s c body origin _ hc hinside ih =>
    obtain ⟨outer, hfile, ⟨back, hback⟩, hshift⟩ := ih
    obtain ⟨opening, t, closing, hspells, hopening, hclosing⟩ := hc.spells
    rw [inside?_of_spells hspells hopening hclosing] at hinside
    cases hinside
    obtain ⟨front, rest, hbody, hstart, -⟩ := hspells
    refine ⟨outer ++ front ++ [opening], hfile, ⟨[closing] ++ rest ++ back, ?_⟩, ?_⟩
    · show file = outer ++ front ++ [opening] ++ body ++ ([closing] ++ rest ++ back)
      rw [hback, hbody]
      simp only [List.append_assoc, List.cons_append, List.nil_append]
    · show (c.start : Int) + 1 + s.shift - 1 = _
      rw [hshift, hstart, byteLength_append, byteLength_append, byteLength_cons, hopening]
      rw [show byteLength [] = 0 from rfl]
      omega

/-- Bytes of a snippet are counted to characters of the file. Where every character takes one byte, and no
table is kept, this is the same. -/
theorem Placed.position_eq {file front t rest : List Char} {s : Snippet} (h : Placed file s front)
    (hbody : s.body = t ++ rest) : s.position (byteLength t + 1) = (front ++ t).length := by
  obtain ⟨hfile, ⟨back, hback⟩, hshift⟩ := h
  have hoffset : (((byteLength t + 1 : Nat) : Int) + s.shift).toNat = byteLength (front ++ t) := by
    rw [hshift, byteLength_append]
    omega
  have hsplit : s.file = (front ++ t) ++ (rest ++ back) := by
    rw [hfile, hback, hbody]
    simp only [List.append_assoc]
  rw [position, hoffset]
  split
  · rename_i hsingle
    have hstart : isSingleByte (front ++ t) := by
      rw [hsplit, isSingleByte, List.all_append, Bool.and_eq_true] at hsingle
      exact hsingle.1
    rw [byteLength_eq_length hstart]
  · rw [hsplit, charIndex_byteLength]

/-- A node that spells a text has a span under which the file has this text. -/
theorem Placed.snippet?_span_of_spells {text : String} {front : List Char} {s : Snippet}
    (h : Placed text.toList s front) {c : Concrete} {t : List Char} (hc : c.Spells s.body t) (fileName : String) :
    SourceText.snippet? ⟨text, fileName⟩ (s.span c) = some (String.ofList t) := by
  obtain ⟨before, rest, hbody, hstart, hstop⟩ := hc
  obtain ⟨back, hback⟩ := h.body
  have hlo : s.position c.start = (front ++ before).length := by
    rw [hstart]
    exact h.position_eq (by rw [hbody, List.append_assoc])
  have hhi : s.position c.stop = (front ++ before ++ t).length := by
    rw [hstop, List.append_assoc front]
    exact h.position_eq hbody
  have hchars : text.toList = (front ++ before ++ t) ++ (rest ++ back) := by
    rw [hback, hbody]
    simp only [List.append_assoc]
  have hreadable : SourceText.readable ⟨text, fileName⟩ (s.span c) := by
    simp only [SourceText.readable, SourceText.chars, span, hlo, hhi, hchars, Bool.and_eq_true, decide_eq_true_eq]
    simp only [List.length_append]
    omega
  rw [SourceText.snippet?, if_pos hreadable]
  simp only [SourceText.chars, span, hlo, hhi, hchars, Int.toNat_natCast]
  rw [List.take_left, List.drop_left]

/-- In every snippet of a file, and for every node in it, the text under the span of the node is its text,
and this is what the bytes of its range say. -/
theorem snippet?_span {text : String} {s : Snippet} (hs : Nested text.toList s) {c : Concrete}
    (hc : c.Inside s.body) (fileName : String) :
    ∃ t, s.text? c = some t ∧
      String.fromUTF8? ((String.ofList s.wrapped).toByteArray.extract c.start c.stop) = some (String.ofList t) ∧
      SourceText.snippet? ⟨text, fileName⟩ (s.span c) = some (String.ofList t) := by
  obtain ⟨t, hspells⟩ := hc.spells
  obtain ⟨front, hplaced⟩ := hs.placed
  exact ⟨t, text?_of_spells hspells, fromUTF8?_of_spells hspells, hplaced.snippet?_span_of_spells hspells fileName⟩

/-- In `é; m!(n!(ü))`, the name in the body of the inner macro. -/
theorem snippet?_span_nestedBody :
    let file := "é; m!(n!(ü))"
    let outer := (ofFile file.toList).inner (.mk "token_tree" 7 15 true false false false none []) "n!(ü)".toList
      ⟨1, some "m"⟩
    let inner := outer.inner (.mk "token_tree" 3 7 true false false false none []) ['ü'] ⟨2, some "n"⟩
    let name : Concrete := .mk "identifier" 1 3 true false false false none []
    Nested file.toList inner ∧ name.Inside inner.body ∧
      ∃ t, inner.text? name = some t ∧
        String.fromUTF8? ((String.ofList inner.wrapped).toByteArray.extract 1 3) = some (String.ofList t) ∧
        SourceText.snippet? ⟨file, "a.rs"⟩ (inner.span name) = some (String.ofList t) := by
  intro file outer inner name
  have houter : Nested file.toList outer := .inner _ .whole (by decide) (by decide)
  have hinner : Nested file.toList inner := .inner _ houter (by decide) (by decide)
  have hname : name.Inside inner.body := by decide
  exact ⟨hinner, hname, snippet?_span hinner hname "a.rs"⟩

end Snippet

end NestLint
