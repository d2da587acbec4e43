/-!
# Byte offsets in a text

A parser counts bytes of the UTF-8 form of a text, while spans count characters. Text stays a list
of characters here, and these functions lead from one to the other.

The characters behind byte offsets are what `_char_offsets` lists.

* `charIndex_byteLength`: the byte offset at the end of a start of the text is the number of its
  characters;
* `cut_byteLength`: cutting at the byte offsets of two boundaries gives the characters in between.
-/

namespace NestLint.Text

/-- The number of bytes of a text. -/
def byteLength (cs : List Char) : Nat := cs.foldr (fun c n => c.utf8Size + n) 0

/-- Whether every character takes one byte, so that byte and character offsets agree. -/
def isSingleByte (cs : List Char) : Bool := cs.all fun c => c.utf8Size == 1

/-- The index of the character that holds the byte at `offset`; the number of characters from the
end of the text on. -/
def charIndex : List Char → Nat → Nat
  | [], _ => 0
  | c :: rest, offset => if offset < c.utf8Size then 0 else charIndex rest (offset - c.utf8Size) + 1

/-- The characters from byte `offset` on; none if the offset falls inside a character. An offset
past the end is the end. -/
def dropBytes? : List Char → Nat → Option (List Char)
  | cs, 0 => some cs
  | [], _ => some []
  | c :: rest, offset => if offset < c.utf8Size then none else dropBytes? rest (offset - c.utf8Size)

/-- The characters before byte `offset`; none if the offset falls inside a character. -/
def takeBytes? : List Char → Nat → Option (List Char)
  | _, 0 => some []
  | [], _ => some []
  | c :: rest, offset =>
    if offset < c.utf8Size then none else (takeBytes? rest (offset - c.utf8Size)).map (c :: ·)

/-- The characters of the bytes from `lo` to `hi`; none if those bytes are no text of their own.
Nothing is cut out if the offsets are the wrong way round. -/
def cut? (cs : List Char) (lo hi : Nat) : Option (List Char) :=
  if hi ≤ lo then some [] else (takeBytes? cs hi).bind fun front => dropBytes? front lo

theorem byteLength_cons (c : Char) (cs : List Char) : byteLength (c :: cs) = c.utf8Size + byteLength cs := rfl

theorem byteLength_append (as bs : List Char) : byteLength (as ++ bs) = byteLength as + byteLength bs := by
  induction as with
  | nil => simp [byteLength]
  | cons a as ih => rw [List.cons_append, byteLength_cons, byteLength_cons, ih, Nat.add_assoc]

theorem charIndex_byteLength (as bs : List Char) : charIndex (as ++ bs) (byteLength as) = as.length := by
  induction as with
  | nil => cases bs with
    | nil => rfl
    | cons b bs => simp [charIndex, byteLength, Char.utf8Size_pos]
  | cons a as ih =>
    simp only [List.cons_append, charIndex, byteLength_cons, List.length_cons]
    rw [if_neg (by omega), Nat.add_sub_cancel_left, ih]

theorem takeBytes?_cons {offset : Nat} (h : offset ≠ 0) (c : Char) (rest : List Char) :
    takeBytes? (c :: rest) offset =
      if offset < c.utf8Size then none else (takeBytes? rest (offset - c.utf8Size)).map (c :: ·) := by
  cases offset with
  | zero => contradiction
  | succ n => rfl

theorem dropBytes?_cons {offset : Nat} (h : offset ≠ 0) (c : Char) (rest : List Char) :
    dropBytes? (c :: rest) offset =
      if offset < c.utf8Size then none else dropBytes? rest (offset - c.utf8Size) := by
  cases offset with
  | zero => contradiction
  | succ n => rfl

theorem takeBytes?_byteLength (as bs : List Char) : takeBytes? (as ++ bs) (byteLength as) = some as := by
  induction as with
  | nil => cases bs <;> simp [takeBytes?, byteLength]
  | cons a as ih =>
    have h := Char.utf8Size_pos a
    rw [List.cons_append, byteLength_cons, takeBytes?_cons (by omega), if_neg (by omega), Nat.add_sub_cancel_left, ih]
    rfl

theorem dropBytes?_byteLength (as bs : List Char) : dropBytes? (as ++ bs) (byteLength as) = some bs := by
  induction as with
  | nil => cases bs <;> simp [dropBytes?, byteLength]
  | cons a as ih =>
    have h := Char.utf8Size_pos a
    rw [List.cons_append, byteLength_cons, dropBytes?_cons (by omega), if_neg (by omega), Nat.add_sub_cancel_left, ih]

theorem cut_byteLength (as bs cs : List Char) :
    cut? (as ++ bs ++ cs) (byteLength as) (byteLength (as ++ bs)) = some bs := by
  unfold cut?
  split
  · rename_i h
    rw [byteLength_append] at h
    cases bs with
    | nil => rfl
    | cons b bs => rw [byteLength_cons] at h; have := Char.utf8Size_pos b; omega
  · rw [takeBytes?_byteLength, Option.bind_some, dropBytes?_byteLength]

end NestLint.Text
