import Mathlib.Data.List.Forall2
import Mathlib.Data.List.TakeWhile
import Mathlib.Order.Bounds.Basic
import NestLint.Proofs.Text.Outdent

/-!
# The law of re-indenting

The lines that are measured are all lines of a text, or all but the first. Re-indenting looks for the least number of
blanks that such a line with something on it starts with, and takes as many characters off each of them. A text without
such a line, or with one that starts at the margin, stays as it is, blank lines included.

Re-indenting is `trim_multiline`.

* `width_eq_some_iff`: what is measured;
* `splitLines_reindentLines`: the lines of a text that is re-indented;
* `visible_reindentLines`: nothing that can be seen is lost;
* `lines_of_reindent`: the law, with what follows from it.
-/

namespace NestLint.Text

/-! ## Lines of a text that is put together -/

theorem not_mem_of_mem_splitLines {text line : List Char} (h : line ∈ splitLines text) : '\n' ∉ line := by
  induction text using lines_induction with
  | line u hu =>
    rw [splitLines_line hu, List.mem_singleton] at h
    rwa [h]
  | break_ u rest hu ih =>
    rw [splitLines_break hu, List.mem_cons] at h
    obtain rfl | h := h
    · exact hu
    · exact ih h

theorem splitLines_joinLines {lines : List (List Char)} (hne : lines ≠ []) (h : ∀ line ∈ lines, '\n' ∉ line) :
    splitLines (joinLines lines) = lines := by
  induction lines with
  | nil => contradiction
  | cons line rest ih =>
    have hline := h line List.mem_cons_self
    by_cases hrest : rest = []
    · rw [hrest]
      exact splitLines_line hline
    · rw [joinLines_cons hrest, splitLines_break hline, ih hrest fun line hmem => h line (List.mem_cons_of_mem _ hmem)]

theorem outdent_sublist (k : Nat) (line : List Char) : (outdent k line).Sublist line := by
  rw [outdent]
  split
  · exact List.nil_sublist _
  · exact List.drop_sublist ..

/-! ## What is measured -/

/-- How far in the lines with something on them start. -/
def indents (lines : List (List Char)) : Set Nat := {k | ∃ line ∈ lines, allBlank line = false ∧ leading line = k}

theorem mem_indents_iff {lines : List (List Char)} {k : Nat} :
    k ∈ indents lines ↔ k ∈ (lines.filter fun line => !allBlank line).map leading := by
  simp [indents, and_assoc]

theorem width_eq_some_iff {lines : List (List Char)} {k : Nat} : width lines = some k ↔ IsLeast (indents lines) k := by
  simp only [width, List.min?_eq_some_iff, IsLeast, lowerBounds, Set.mem_ofPred_eq, mem_indents_iff]

theorem width_eq_none_iff {lines : List (List Char)} : width lines = none ↔ ∀ line ∈ lines, allBlank line := by
  simp [width, List.min?_eq_none_iff]

/-- The least indent is one of the indents, and no line with something on it starts further out. -/
theorem deep_of_isLeast {lines : List (List Char)} {k : Nat} (h : IsLeast (indents lines) k) : Deep k lines :=
  fun line hline hsolid => h.2 ⟨line, hline, hsolid, rfl⟩

/-! ## Lines that are moved -/

/-- What becomes of a line that is moved by `k` characters: with something on it, it loses its first `k` characters, all
of them blank; a blank line becomes empty. -/
inductive Outdented (k : Nat) : List Char → List Char → Prop where
  | solid {front line : List Char} (blank : allBlank front) (length : front.length = k) (solid : allBlank line = false) :
    Outdented k (front ++ line) line
  | blank {line : List Char} (blank : allBlank line) : Outdented k line []

/-- A line that starts with `k` blanks or more, in two parts. -/
theorem exists_front_of_le_leading {k : Nat} {line : List Char} (h : k ≤ leading line) :
    allBlank (line.take k) ∧ (line.take k).length = k := by
  have htake : line.take k = (line.takeWhile isBlank).take k := by
    conv_lhs => rw [← List.takeWhile_append_dropWhile (p := isBlank) (l := line)]
    exact List.take_append_of_le_length h
  constructor
  · rw [htake, allBlank, List.all_eq_true]
    exact fun c hc => List.mem_takeWhile_imp (List.mem_of_mem_take hc)
  · rw [htake, List.length_take]
    exact Nat.min_eq_left h

theorem outdented_outdent {k : Nat} {line : List Char} (h : allBlank line = false → k ≤ leading line) :
    Outdented k line (outdent k line) := by
  rw [outdent]
  split
  · rename_i hblank
    exact .blank hblank
  · rename_i hsolid
    rw [Bool.not_eq_true] at hsolid
    obtain ⟨hfront, hlength⟩ := exists_front_of_le_leading (h hsolid)
    have hline : line.take k ++ line.drop k = line := List.take_append_drop ..
    have hrest : allBlank (line.drop k) = false := by
      rwa [← hline, allBlank_append, hfront, Bool.true_and] at hsolid
    have := Outdented.solid hfront hlength hrest
    rwa [hline] at this

theorem forall₂_outdented {k : Nat} {lines : List (List Char)} (h : Deep k lines) :
    List.Forall₂ (Outdented k) lines (lines.map (outdent k)) := by
  rw [List.forall₂_map_right_iff, List.forall₂_same]
  exact fun line hline => outdented_outdent (h line hline)

theorem leading_append {front : List Char} (h : allBlank front) (line : List Char) :
    leading (front ++ line) = front.length + leading line := by
  rw [leading, List.takeWhile_append_of_pos (List.all_eq_true.1 h), List.length_append, leading]

/-- A line with something on it moves by as many characters as are taken off. -/
theorem Outdented.leading_eq {k : Nat} {line line' : List Char} (h : Outdented k line line')
    (hsolid : allBlank line = false) : allBlank line' = false ∧ leading line = k + leading line' := by
  cases h with
  | solid hfront hlength hline => exact ⟨hline, by rw [leading_append hfront, hlength]⟩
  | blank hblank => exact absurd hblank (by rw [hsolid]; exact Bool.false_ne_true)

/-- Lines that share `k` blanks and no more, moved by `k`, have one that starts at the margin. -/
theorem isLeast_zero_map_outdent {k : Nat} {lines : List (List Char)} (h : IsLeast (indents lines) k) :
    IsLeast (indents (lines.map (outdent k))) 0 := by
  obtain ⟨line, hline, hsolid, hk⟩ := h.1
  obtain ⟨hsolid', hleading⟩ := (outdented_outdent (k := k) fun _ => Nat.le_of_eq hk.symm).leading_eq hsolid
  exact ⟨⟨outdent k line, List.mem_map_of_mem hline, hsolid', by omega⟩, fun _ _ => Nat.zero_le _⟩

/-! ## What can be seen -/

/-- The characters of a text that are not blank. -/
def visible (text : List Char) : List Char := text.filter fun c => !isBlank c

theorem visible_append (u v : List Char) : visible (u ++ v) = visible u ++ visible v := List.filter_append ..

theorem visible_of_allBlank {u : List Char} (h : allBlank u) : visible u = [] := by
  rw [visible, List.filter_eq_nil_iff]
  intro c hc
  rw [List.all_eq_true.1 h c hc]
  exact Bool.false_ne_true

theorem Outdented.visible_eq {k : Nat} {line line' : List Char} (h : Outdented k line line') :
    visible line' = visible line := by
  cases h with
  | solid hfront => rw [visible_append, visible_of_allBlank hfront, List.nil_append]
  | blank hblank => rw [visible_of_allBlank hblank]; rfl

theorem visible_joinLines (lines : List (List Char)) : visible (joinLines lines) = lines.flatMap visible := by
  induction lines with
  | nil => rfl
  | cons line rest ih =>
    by_cases hrest : rest = []
    · subst hrest
      exact (List.flatMap_singleton ..).symm
    · have hbreak : visible ('\n' :: joinLines rest) = visible (joinLines rest) := rfl
      rw [joinLines_cons hrest, visible_append, hbreak, ih, List.flatMap_cons]

theorem visible_map_outdent {k : Nat} (first : List (List Char)) {lines : List (List Char)} (h : Deep k lines) :
    visible (joinLines (first ++ lines.map (outdent k))) = visible (joinLines (first ++ lines)) := by
  rw [visible_joinLines, visible_joinLines, List.flatMap_append, List.flatMap_append, List.flatMap_map]
  congr 1
  exact List.flatMap_congr fun line hline => (outdented_outdent (h line hline)).visible_eq

/-! ## Texts whose first line stays -/

theorem visible_outdentRest {k : Nat} {text : List Char} (h : Deep k ((splitLines text).drop 1)) :
    visible (outdentRest k text) = visible text := by
  conv_rhs => rw [← join_split text]
  rw [outdentRest]
  cases hlines : splitLines text with
  | nil => exact absurd hlines (split_ne_nil text)
  | cons first rest =>
    rw [hlines] at h
    exact visible_map_outdent [first] h

/-! ## Texts that are re-indented -/

/-- The lines that are measured: all of them, or all but the first. -/
def measured (ignoreFirst : Bool) (text : List Char) : List (List Char) := (splitLines text).drop ignoreFirst.toNat

/-- The lines that are not measured: none, or the first. -/
def unmeasured (ignoreFirst : Bool) (text : List Char) : List (List Char) := (splitLines text).take ignoreFirst.toNat

section Law

variable {ignoreFirst : Bool} {text : List Char} {k : Nat}

theorem reindentLines_eq (ignoreFirst : Bool) (text : List Char) :
    reindentLines ignoreFirst text =
      match width (measured ignoreFirst text) with
      | none | some 0 => text
      | some k => joinLines (unmeasured ignoreFirst text ++ (measured ignoreFirst text).map (outdent k)) := by
  cases ignoreFirst with
  | false => rfl
  | true => rfl

/-- Without an indent that all lines share there is nothing to do. -/
theorem reindentLines_eq_self (h : (∀ line ∈ measured ignoreFirst text, allBlank line) ∨
    IsLeast (indents (measured ignoreFirst text)) 0) : reindentLines ignoreFirst text = text := by
  rw [reindentLines_eq]
  obtain h | h := h
  · rw [width_eq_none_iff.2 h]
  · rw [width_eq_some_iff.2 h]
    rfl

theorem reindentLines_of_isLeast (h : IsLeast (indents (measured ignoreFirst text)) k) (hk : k ≠ 0) :
    reindentLines ignoreFirst text =
      joinLines (unmeasured ignoreFirst text ++ (measured ignoreFirst text).map (outdent k)) := by
  rw [reindentLines_eq, width_eq_some_iff.2 h]
  split
  · contradiction
  · rename_i hzero
    exact absurd (Option.some.inj hzero) hk
  · rename_i hsome
    rw [Option.some.inj hsome]

theorem unmeasured_append_measured (ignoreFirst : Bool) (text : List Char) :
    unmeasured ignoreFirst text ++ measured ignoreFirst text = splitLines text := List.take_append_drop ..

theorem splitLines_reindentLines (h : IsLeast (indents (measured ignoreFirst text)) k) (hk : k ≠ 0) :
    splitLines (reindentLines ignoreFirst text) =
      unmeasured ignoreFirst text ++ (measured ignoreFirst text).map (outdent k) := by
  rw [reindentLines_of_isLeast h hk]
  refine splitLines_joinLines ?_ fun line hline => ?_
  · obtain ⟨line, hline, -⟩ := h.1
    exact List.append_ne_nil_of_right_ne_nil _ (List.ne_nil_of_mem (List.mem_map_of_mem hline))
  · obtain hline | hmoved := List.mem_append.1 hline
    · exact not_mem_of_mem_splitLines (List.mem_of_mem_take hline)
    · obtain ⟨old, hold, rfl⟩ := List.mem_map.1 hmoved
      exact fun hmem => not_mem_of_mem_splitLines (List.mem_of_mem_drop hold) ((outdent_sublist k old).subset hmem)

theorem length_unmeasured (ignoreFirst : Bool) (text : List Char) :
    (unmeasured ignoreFirst text).length = ignoreFirst.toNat := by
  have := List.length_pos_iff.2 (split_ne_nil text)
  have := Bool.toNat_le ignoreFirst
  rw [unmeasured, List.length_take]
  omega

theorem unmeasured_reindentLines (h : IsLeast (indents (measured ignoreFirst text)) k) (hk : k ≠ 0) :
    unmeasured ignoreFirst (reindentLines ignoreFirst text) = unmeasured ignoreFirst text := by
  rw [unmeasured, splitLines_reindentLines h hk]
  exact List.take_left' (length_unmeasured ..)

theorem measured_reindentLines (h : IsLeast (indents (measured ignoreFirst text)) k) (hk : k ≠ 0) :
    measured ignoreFirst (reindentLines ignoreFirst text) = (measured ignoreFirst text).map (outdent k) := by
  rw [measured, splitLines_reindentLines h hk]
  exact List.drop_left' (length_unmeasured ..)

/-- A text is moved by some number of characters, or stays as it is. -/
theorem moved_or_eq_self (ignoreFirst : Bool) (text : List Char) :
    (∃ k, IsLeast (indents (measured ignoreFirst text)) k ∧ k ≠ 0) ∨ reindentLines ignoreFirst text = text := by
  cases hwidth : width (measured ignoreFirst text) with
  | none => exact .inr (reindentLines_eq_self (.inl (width_eq_none_iff.1 hwidth)))
  | some k =>
    have hleast := width_eq_some_iff.1 hwidth
    by_cases hk : k = 0
    · exact .inr (reindentLines_eq_self (.inr (hk ▸ hleast)))
    · exact .inl ⟨k, hleast, hk⟩

theorem visible_reindentLines (ignoreFirst : Bool) (text : List Char) :
    visible (reindentLines ignoreFirst text) = visible text := by
  obtain ⟨k, hleast, hk⟩ | hself := moved_or_eq_self ignoreFirst text
  · rw [reindentLines_of_isLeast hleast hk, visible_map_outdent _ (deep_of_isLeast hleast), unmeasured_append_measured,
      join_split]
  · rw [hself]

theorem reindentLines_reindentLines (ignoreFirst : Bool) (text : List Char) :
    reindentLines ignoreFirst (reindentLines ignoreFirst text) = reindentLines ignoreFirst text := by
  obtain ⟨k, hleast, hk⟩ | hself := moved_or_eq_self ignoreFirst text
  · refine reindentLines_eq_self (.inr ?_)
    rw [measured_reindentLines hleast hk]
    exact isLeast_zero_map_outdent hleast
  · rw [hself, hself]

/-- What became of the lines of a text that was moved by `k` characters. -/
structure Reindented (ignoreFirst : Bool) (k : Nat) (text out : List Char) : Prop where
  /-- There are as many lines as before. -/
  length : (splitLines out).length = (splitLines text).length
  /-- A first line that is not measured stays. -/
  first : unmeasured ignoreFirst out = unmeasured ignoreFirst text
  /-- Every line that is measured is moved. -/
  moved : List.Forall₂ (Outdented k) (measured ignoreFirst text) (measured ignoreFirst out)
  /-- One of them has something on it and starts at the margin. -/
  margin : ∃ line ∈ measured ignoreFirst out, allBlank line = false ∧ leading line = 0

theorem reindented_reindentLines (h : IsLeast (indents (measured ignoreFirst text)) k) (hk : k ≠ 0) :
    Reindented ignoreFirst k text (reindentLines ignoreFirst text) where
  length := by
    rw [splitLines_reindentLines h hk, ← unmeasured_append_measured ignoreFirst text, List.length_append,
      List.length_append, List.length_map]
  first := unmeasured_reindentLines h hk
  moved := by
    rw [measured_reindentLines h hk]
    exact forall₂_outdented (deep_of_isLeast h)
  margin := by
    rw [measured_reindentLines h hk]
    exact (isLeast_zero_map_outdent h).1

/-- All lines that are measured move by the same distance. -/
theorem exists_distance (ignoreFirst : Bool) (text : List Char) :
    ∃ d, List.Forall₂ (fun line line' => allBlank line = false → leading line = d + leading line')
      (measured ignoreFirst text) (measured ignoreFirst (reindentLines ignoreFirst text)) := by
  obtain ⟨k, hleast, hk⟩ | hself := moved_or_eq_self ignoreFirst text
  · exact ⟨k, (reindented_reindentLines hleast hk).moved.imp fun _ _ h hsolid => (h.leading_eq hsolid).2⟩
  · rw [hself]
    exact ⟨0, List.forall₂_same.2 fun line _ _ => (Nat.zero_add _).symm⟩

end Law

/-- Re-indenting, for texts of any lines and whether the first line takes part or not. Where no line with something on
it is measured, or one of them starts at the margin, the text stays as it is, and otherwise its lines are moved by the
least indent. Either way nothing that can be seen is lost, indents keep their distances, and there is nothing to do the
second time. -/
theorem lines_of_reindent (text : String) (ignoreFirst : Bool) :
    ((∀ line ∈ measured ignoreFirst text.toList, allBlank line) ∨
        IsLeast (indents (measured ignoreFirst text.toList)) 0 → reindent text ignoreFirst = text) ∧
      (∀ k ≠ 0, IsLeast (indents (measured ignoreFirst text.toList)) k →
        Reindented ignoreFirst k text.toList (reindent text ignoreFirst).toList) ∧
      visible (reindent text ignoreFirst).toList = visible text.toList ∧
      (∃ d, List.Forall₂ (fun line line' => allBlank line = false → leading line = d + leading line')
        (measured ignoreFirst text.toList) (measured ignoreFirst (reindent text ignoreFirst).toList)) ∧
      reindent (reindent text ignoreFirst) ignoreFirst = reindent text ignoreFirst := by
  have hchars : (reindent text ignoreFirst).toList = reindentLines ignoreFirst text.toList := String.toList_ofList
  refine ⟨fun h => ?_, fun k hk h => ?_, ?_, ?_, ?_⟩
  · rw [reindent, reindentLines_eq_self h, String.ofList_toList]
  · rw [hchars]
    exact reindented_reindentLines h hk
  · rw [hchars, visible_reindentLines]
  · rw [hchars]
    exact exists_distance ignoreFirst text.toList
  · rw [reindent, hchars, reindentLines_reindentLines, ← hchars, String.ofList_toList]

/-- The lines of an argument list, with a blank one that is indented less than the rest. -/
theorem lines_of_reindent_arguments :
    IsLeast (indents (measured true "f(\n\t  a,\n \n\t b)".toList)) 2 ∧
      Reindented true 2 "f(\n\t  a,\n \n\t b)".toList (reindent "f(\n\t  a,\n \n\t b)" true).toList := by
  have hleast : IsLeast (indents (measured true "f(\n\t  a,\n \n\t b)".toList)) 2 :=
    width_eq_some_iff.1 (by decide)
  exact ⟨hleast, (lines_of_reindent _ true).2.1 2 (by decide) hleast⟩

example : reindent "f(\n\t  a,\n \n\t b)" = "f(\n a,\n\nb)" := by decide

end NestLint.Text
