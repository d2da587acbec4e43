import Mathlib.Data.List.Basic
import NestLint.Text.Indent

/-!
# Re-indented text, piece by piece

Re-indenting a text takes the same number of characters off every line but the first. What becomes of a piece
of the text can be said without the rest of it, if the piece begins and ends with something to see: its first
line stays, and the lines behind that lose as many characters as those of the whole text.

* `lines_induction`: texts line by line;
* `inset`, `shifted`: how far a text is moved, and a piece that is moved so far;
* `exists_reindentLines_append`: the pieces of a text that is re-indented;
* `shifted_eq_self`: which pieces stay as they are.
-/

namespace NestLint.Text

/-! ## Lines -/

/-- A text is a line, or a line in front of a text. -/
theorem lines_induction {motive : List Char → Prop} (line : ∀ u, '\n' ∉ u → motive u)
    (break_ : ∀ u rest, '\n' ∉ u → motive rest → motive (u ++ '\n' :: rest)) (text : List Char) : motive text := by
  have hfrom (text u : List Char) (hu : '\n' ∉ u) : motive (u ++ text) := by
    induction text generalizing u with
    | nil =>
      rw [List.append_nil]
      exact line u hu
    | cons c rest ih =>
      by_cases hc : c = '\n'
      · subst hc
        exact break_ u rest hu (ih [] List.not_mem_nil)
      · have := ih (u ++ [c]) (by simpa [hu] using fun h => hc h.symm)
        rwa [List.append_assoc, List.singleton_append] at this
  exact hfrom text [] List.not_mem_nil

theorem splitLines_line {u : List Char} (hu : '\n' ∉ u) : splitLines u = [u] := by
  induction u with
  | nil => rfl
  | cons c u ih =>
    rw [List.mem_cons, not_or] at hu
    rw [splitLines, if_neg (Ne.symm hu.1), ih hu.2]

theorem splitLines_break {u : List Char} (hu : '\n' ∉ u) (rest : List Char) :
    splitLines (u ++ '\n' :: rest) = u :: splitLines rest := by
  induction u with
  | nil => rfl
  | cons c u ih =>
    rw [List.mem_cons, not_or] at hu
    rw [List.cons_append, splitLines, if_neg (Ne.symm hu.1), ih hu.2]

theorem mapLines_line (f : List Char → List Char) {u : List Char} (hu : '\n' ∉ u) : mapLines f u = f u := by
  rw [mapLines, splitLines_line hu]
  rfl

theorem mapLines_break (f : List Char → List Char) {u : List Char} (hu : '\n' ∉ u) (rest : List Char) :
    mapLines f (u ++ '\n' :: rest) = f u ++ '\n' :: mapLines f rest := by
  rw [mapLines, splitLines_break hu, List.map_cons, joinLines_cons (by simp [split_ne_nil])]
  rfl

/-! ## Moving lines -/

/-- Every line but the first without its first `k` characters. -/
def outdentRest (k : Nat) (text : List Char) : List Char :=
  match splitLines text with
  | [] => []
  | first :: rest => joinLines (first :: rest.map (outdent k))

theorem outdentRest_line (k : Nat) {u : List Char} (hu : '\n' ∉ u) : outdentRest k u = u := by
  rw [outdentRest, splitLines_line hu]
  rfl

theorem outdentRest_break (k : Nat) {u : List Char} (hu : '\n' ∉ u) (rest : List Char) :
    outdentRest k (u ++ '\n' :: rest) = u ++ '\n' :: mapLines (outdent k) rest := by
  rw [outdentRest, splitLines_break hu]
  exact joinLines_cons (by simp [split_ne_nil])

/-- Every line with something on it starts with `k` blanks or more. -/
def Deep (k : Nat) (lines : List (List Char)) : Prop := ∀ line ∈ lines, allBlank line = false → k ≤ leading line

/-- A text begins with something to see. -/
def startsSolid (text : List Char) : Bool := text.head?.any fun c => !isBlank c

/-- A text ends with something to see. -/
def endsSolid (text : List Char) : Bool := text.getLast?.any fun c => !isBlank c

theorem startsSolid_iff {text : List Char} : startsSolid text ↔ ∃ c rest, text = c :: rest ∧ isBlank c = false := by
  cases text with
  | nil => simp [startsSolid]
  | cons c rest => simp [startsSolid]

theorem endsSolid_iff {text : List Char} : endsSolid text ↔ ∃ init c, text = init ++ [c] ∧ isBlank c = false := by
  constructor
  · intro h
    obtain ⟨c, hc, hblank⟩ := Option.any_eq_true _ _ |>.1 h
    obtain ⟨init, rfl⟩ := List.getLast?_eq_some_iff.1 hc
    exact ⟨init, c, rfl, by simpa using hblank⟩
  · rintro ⟨init, c, rfl, hc⟩
    simp [endsSolid, hc]

theorem allBlank_append (u v : List Char) : allBlank (u ++ v) = (allBlank u && allBlank v) := List.all_append

theorem not_allBlank_of_startsSolid {u : List Char} (h : startsSolid u) : allBlank u = false := by
  obtain ⟨c, rest, rfl, hc⟩ := startsSolid_iff.1 h
  rw [allBlank, List.all_cons, hc]
  rfl

theorem not_allBlank_of_endsSolid {u : List Char} (h : endsSolid u) : allBlank u = false := by
  obtain ⟨init, c, rfl, hc⟩ := endsSolid_iff.1 h
  rw [allBlank_append, allBlank, allBlank, List.all_cons, hc]
  exact Bool.and_false _

/-- The blanks in front of a line end where something to see begins. -/
theorem leading_append_le {u v : List Char} (hv : startsSolid v) : leading (u ++ v) ≤ u.length := by
  obtain ⟨c, rest, rfl, hc⟩ := startsSolid_iff.1 hv
  induction u with
  | nil => simp [leading, hc]
  | cons d u ih =>
    rw [leading, List.cons_append, List.takeWhile_cons]
    split
    · exact Nat.succ_le_succ ih
    · exact Nat.zero_le _

/-- What is taken off a line does not reach into a piece that begins with something to see. -/
theorem outdent_append_of_startsSolid {k : Nat} {u v : List Char} (hv : startsSolid v)
    (hk : allBlank (u ++ v) = false → k ≤ leading (u ++ v)) : outdent k (u ++ v) = u.drop k ++ v := by
  have hsolid : allBlank (u ++ v) = false := by
    rw [allBlank_append, not_allBlank_of_startsSolid hv, Bool.and_false]
  rw [outdent, hsolid, if_neg Bool.false_ne_true,
    List.drop_append_of_le_length (Nat.le_trans (hk hsolid) (leading_append_le hv))]

/-- What is taken off a line does not reach behind a piece that ends with something to see. -/
theorem outdent_append_of_endsSolid {k : Nat} {u v : List Char} (hu : endsSolid u)
    (hk : allBlank (u ++ v) = false → k ≤ leading (u ++ v)) : outdent k (u ++ v) = outdent k u ++ v := by
  have hblank := not_allBlank_of_endsSolid hu
  have hsolid : allBlank (u ++ v) = false := by rw [allBlank_append, hblank, Bool.false_and]
  have hle : k ≤ u.length := by
    obtain ⟨init, c, rfl, hc⟩ := endsSolid_iff.1 hu
    have hv : startsSolid ([c] ++ v) := startsSolid_iff.2 ⟨c, v, rfl, hc⟩
    have := leading_append_le (u := init) hv
    rw [← List.append_assoc] at this
    have := hk hsolid
    simp only [List.length_append, List.length_singleton]
    omega
  rw [outdent, hsolid, if_neg Bool.false_ne_true, outdent, hblank, if_neg Bool.false_ne_true,
    List.drop_append_of_le_length hle]

/-- A text is a line, or goes on behind one. -/
theorem line_or_break (text : List Char) : '\n' ∉ text ∨ ∃ u rest, '\n' ∉ u ∧ text = u ++ '\n' :: rest := by
  induction text using lines_induction with
  | line u hu => exact .inl hu
  | break_ u rest hu _ => exact .inr ⟨u, rest, hu, rfl⟩

/-- The first line of a text that begins with something to see does so. -/
theorem startsSolid_of_break {u rest : List Char} (h : startsSolid (u ++ '\n' :: rest)) : startsSolid u := by
  cases u with
  | nil => exact absurd h (by simp [startsSolid, show isBlank '\n' = true by decide])
  | cons c u => exact h

/-- The last line of a text that ends with something to see does so. -/
theorem endsSolid_of_break {u rest : List Char} (h : endsSolid (u ++ '\n' :: rest)) : endsSolid rest := by
  rw [endsSolid, List.getLast?_append, List.getLast?_cons] at h
  cases hrest : rest.getLast? with
  | none =>
    rw [hrest] at h
    exact absurd h (by simp [show isBlank '\n' = true by decide])
  | some c =>
    rw [hrest] at h
    rw [endsSolid, hrest]
    exact h

/-! ## Pieces in front of and behind others -/

section Pieces

variable {k : Nat} {x y : List Char}

theorem mapLines_line_append (hy : startsSolid y) {u : List Char} (hu : '\n' ∉ u)
    (hdeep : Deep k (splitLines (u ++ y))) : mapLines (outdent k) (u ++ y) = u.drop k ++ outdentRest k y := by
  obtain hline | ⟨v, z, hv, rfl⟩ := line_or_break y
  · have huy : '\n' ∉ u ++ y := by simp [hu, hline]
    rw [splitLines_line huy] at hdeep
    rw [mapLines_line _ huy, outdentRest_line k hline, outdent_append_of_startsSolid hy (hdeep _ (.head _))]
  · have huv : '\n' ∉ u ++ v := by simp [hu, hv]
    rw [← List.append_assoc] at hdeep ⊢
    rw [splitLines_break huv] at hdeep
    rw [mapLines_break _ huv, outdentRest_break k hv,
      outdent_append_of_startsSolid (startsSolid_of_break hy) (hdeep _ (.head _)), List.append_assoc]

theorem exists_mapLines_append (hy : startsSolid y) (hdeep : Deep k (splitLines (x ++ y))) :
    ∃ front, mapLines (outdent k) (x ++ y) = front ++ outdentRest k y := by
  induction x using lines_induction with
  | line u hu => exact ⟨_, mapLines_line_append hy hu hdeep⟩
  | break_ u x hu ih =>
    rw [List.append_assoc, List.cons_append] at hdeep ⊢
    rw [splitLines_break hu] at hdeep
    obtain ⟨front, hfront⟩ := ih fun line hline => hdeep line (.tail _ hline)
    exact ⟨outdent k u ++ '\n' :: front, by rw [mapLines_break _ hu, hfront, List.append_assoc, List.cons_append]⟩

/-- What stands in front of a piece that begins with something to see may change, and the piece is moved as if
nothing stood there. -/
theorem exists_outdentRest_append_left (hy : startsSolid y) (hdeep : Deep k ((splitLines (x ++ y)).drop 1)) :
    ∃ front, outdentRest k (x ++ y) = front ++ outdentRest k y := by
  obtain hline | ⟨u, x, hu, rfl⟩ := line_or_break x
  · obtain hline' | ⟨v, z, hv, rfl⟩ := line_or_break y
    · exact ⟨x, by rw [outdentRest_line k (by simp [hline, hline']), outdentRest_line k hline']⟩
    · refine ⟨x, ?_⟩
      rw [← List.append_assoc, outdentRest_break k (by simp [hline, hv]), outdentRest_break k hv, List.append_assoc]
  · rw [List.append_assoc, List.cons_append] at hdeep ⊢
    rw [splitLines_break hu, List.drop_succ_cons, List.drop_zero] at hdeep
    obtain ⟨front, hfront⟩ := exists_mapLines_append hy hdeep
    exact ⟨u ++ '\n' :: front, by rw [outdentRest_break k hu, hfront, List.append_assoc, List.cons_append]⟩

theorem exists_append_mapLines (hx : endsSolid x) (hdeep : Deep k (splitLines (x ++ y))) :
    ∃ back, mapLines (outdent k) (x ++ y) = mapLines (outdent k) x ++ back := by
  induction x using lines_induction with
  | line u hu =>
    obtain hline | ⟨v, z, hv, rfl⟩ := line_or_break y
    · have huy : '\n' ∉ u ++ y := by simp [hu, hline]
      rw [splitLines_line huy] at hdeep
      exact ⟨y, by rw [mapLines_line _ huy, mapLines_line _ hu, outdent_append_of_endsSolid hx (hdeep _ (.head _))]⟩
    · have huv : '\n' ∉ u ++ v := by simp [hu, hv]
      rw [← List.append_assoc] at hdeep ⊢
      rw [splitLines_break huv] at hdeep
      refine ⟨v ++ '\n' :: mapLines (outdent k) z, ?_⟩
      rw [mapLines_break _ huv, mapLines_line _ hu, outdent_append_of_endsSolid hx (hdeep _ (.head _)),
        List.append_assoc]
  | break_ u x hu ih =>
    rw [List.append_assoc, List.cons_append] at hdeep ⊢
    rw [splitLines_break hu] at hdeep
    obtain ⟨back, hback⟩ := ih (endsSolid_of_break hx) fun line hline => hdeep line (.tail _ hline)
    exact ⟨back, by rw [mapLines_break _ hu, mapLines_break _ hu, hback, List.append_assoc, List.cons_append]⟩

/-- A piece that ends with something to see is moved as if nothing stood behind it. -/
theorem exists_outdentRest_append_right (hx : endsSolid x) (hdeep : Deep k ((splitLines (x ++ y)).drop 1)) :
    ∃ back, outdentRest k (x ++ y) = outdentRest k x ++ back := by
  obtain hline | ⟨u, x, hu, rfl⟩ := line_or_break x
  · obtain hline' | ⟨v, z, hv, rfl⟩ := line_or_break y
    · exact ⟨y, by rw [outdentRest_line k (by simp [hline, hline']), outdentRest_line k hline]⟩
    · refine ⟨v ++ '\n' :: mapLines (outdent k) z, ?_⟩
      rw [← List.append_assoc, outdentRest_break k (by simp [hline, hv]), outdentRest_line k hline, List.append_assoc]
  · rw [List.append_assoc, List.cons_append] at hdeep ⊢
    rw [splitLines_break hu, List.drop_succ_cons, List.drop_zero] at hdeep
    obtain ⟨back, hback⟩ := exists_append_mapLines (endsSolid_of_break hx) hdeep
    exact ⟨back, by rw [outdentRest_break k hu, outdentRest_break k hu, hback, List.append_assoc, List.cons_append]⟩

/-- The lines behind the first one of a piece at the end of a text are lines of the text. -/
theorem mem_drop_splitLines_append {line : List Char} (h : line ∈ (splitLines y).drop 1) :
    line ∈ (splitLines (x ++ y)).drop 1 := by
  have hall (x : List Char) (h : line ∈ (splitLines y).drop 1) : line ∈ (splitLines (x ++ y)).drop 1 := by
    induction x using lines_induction with
    | line u hu =>
      obtain hline | ⟨v, z, hv, rfl⟩ := line_or_break y
      · rw [splitLines_line hline] at h
        cases h
      · rw [← List.append_assoc, splitLines_break (by simp [hu, hv])]
        rwa [splitLines_break hv] at h
    | break_ u x hu ih =>
      rw [List.append_assoc, List.cons_append, splitLines_break hu]
      exact List.mem_of_mem_drop ih
  exact hall x h

end Pieces

/-! ## Re-indenting -/

/-- How far re-indenting moves the lines of a text but the first. -/
def inset (text : List Char) : Nat := (width ((splitLines text).drop 1)).getD 0

/-- A piece of a text that is moved by `k` characters. -/
def shifted (k : Nat) (piece : List Char) : List Char := if k = 0 then piece else outdentRest k piece

theorem deep_inset (text : List Char) : Deep (inset text) ((splitLines text).drop 1) := by
  intro line hline hsolid
  have hmem : leading line ∈ (((splitLines text).drop 1).filter fun line => !allBlank line).map leading :=
    List.mem_map_of_mem (List.mem_filter.2 ⟨hline, by rw [hsolid]; rfl⟩)
  rw [inset, width]
  cases hmin : ((((splitLines text).drop 1).filter fun line => !allBlank line).map leading).min? with
  | none => exact Nat.zero_le _
  | some k => exact (List.min?_eq_some_iff.1 hmin).2 _ hmem

theorem reindentLines_eq_shifted (text : List Char) : reindentLines true text = shifted (inset text) text := by
  cases hlines : splitLines text with
  | nil => exact absurd hlines (split_ne_nil text)
  | cons first rest =>
    simp only [reindentLines, shifted, inset, outdentRest, hlines, if_true, List.drop_succ_cons, List.drop_zero]
    cases width rest with
    | none => rfl
    | some k =>
      cases k with
      | zero => rfl
      | succ k => rfl

/-- A piece of a text that begins and ends with something to see is in the re-indented text, moved as far as
the lines of the whole text. -/
theorem exists_reindentLines_append (front back : List Char) {piece : List Char} (hstart : startsSolid piece)
    (hend : endsSolid piece) :
    ∃ front' back', reindentLines true (front ++ piece ++ back) =
      front' ++ shifted (inset (front ++ piece ++ back)) piece ++ back' := by
  rw [reindentLines_eq_shifted, shifted, shifted]
  split
  · exact ⟨front, back, rfl⟩
  · have hdeep := deep_inset (front ++ piece ++ back)
    rw [List.append_assoc] at hdeep ⊢
    have hpiece : startsSolid (piece ++ back) := by
      obtain ⟨c, rest, rfl, hc⟩ := startsSolid_iff.1 hstart
      exact startsSolid_iff.2 ⟨c, rest ++ back, rfl, hc⟩
    obtain ⟨front', hfront⟩ := exists_outdentRest_append_left hpiece hdeep
    obtain ⟨back', hback⟩ := exists_outdentRest_append_right hend fun line hline =>
      hdeep line (mem_drop_splitLines_append hline)
    exact ⟨front', back', by rw [hfront, hback, List.append_assoc]⟩

/-- What is to be seen is on one line. -/
theorem not_mem_singleton {c : Char} (hc : isBlank c = false) : '\n' ∉ [c] := by
  rw [List.mem_singleton]
  rintro rfl
  exact absurd hc (by decide)

/-- A word without a newline stands at the start of a text exactly if it stands at the start of the first line. -/
theorem prefix_break_iff {word : List Char} (h : '\n' ∉ word) (u rest : List Char) :
    word <+: u ++ '\n' :: rest ↔ word <+: u := by
  refine ⟨fun hword => ?_, fun hword => hword.trans (List.prefix_append ..)⟩
  by_cases hlength : word.length ≤ u.length
  · exact List.prefix_of_prefix_length_le hword (List.prefix_append ..) hlength
  · have hbreak : u ++ ['\n'] <+: u ++ '\n' :: rest := by simp
    have := List.prefix_of_prefix_length_le hbreak hword (by simp; omega)
    exact absurd (this.subset (by simp)) h

theorem prefix_outdentRest_iff {k : Nat} {word : List Char} (h : '\n' ∉ word) (text : List Char) :
    word <+: outdentRest k text ↔ word <+: text := by
  obtain hline | ⟨u, rest, hu, rfl⟩ := line_or_break text
  · rw [outdentRest_line k hline]
  · rw [outdentRest_break k hu, prefix_break_iff h, prefix_break_iff h]

theorem head?_outdentRest {k : Nat} {text : List Char} (h : startsSolid text) :
    (outdentRest k text).head? = text.head? := by
  obtain ⟨c, rest, rfl, hc⟩ := startsSolid_iff.1 h
  obtain ⟨back, hback⟩ : [c] <+: outdentRest k (c :: rest) :=
    (prefix_outdentRest_iff (not_mem_singleton hc) _).2 (by simp)
  rw [← hback]
  rfl

/-- The first character of a text that begins with something to see stays. -/
theorem head?_reindentLines {text : List Char} (h : startsSolid text) :
    (reindentLines true text).head? = text.head? := by
  rw [reindentLines_eq_shifted, shifted]
  split
  · rfl
  · exact head?_outdentRest h

/-- The last character of a text that ends with something to see stays. -/
theorem getLast?_reindentLines {text : List Char} (h : endsSolid text) :
    (reindentLines true text).getLast? = text.getLast? := by
  rw [reindentLines_eq_shifted, shifted]
  split
  · rfl
  · obtain ⟨init, c, rfl, hc⟩ := endsSolid_iff.1 h
    obtain ⟨front, hfront⟩ := exists_outdentRest_append_left (x := init) (y := [c])
      (startsSolid_iff.2 ⟨c, [], rfl, hc⟩) (deep_inset _)
    rw [hfront, outdentRest_line _ (not_mem_singleton hc), List.getLast?_concat, List.getLast?_concat]

/-! ## What stays as it is -/

theorem length_mapLines_outdent_lt {k : Nat} (hk : k ≠ 0) {text : List Char} (hend : endsSolid text) :
    (mapLines (outdent k) text).length < text.length := by
  have hle (u : List Char) : (outdent k u).length ≤ u.length := by
    rw [outdent]
    split
    · exact Nat.zero_le _
    · rw [List.length_drop]
      exact Nat.sub_le _ _
  induction text using lines_induction with
  | line u hu =>
    rw [mapLines_line _ hu, outdent, not_allBlank_of_endsSolid hend, if_neg Bool.false_ne_true, List.length_drop]
    obtain ⟨init, c, rfl, -⟩ := endsSolid_iff.1 hend
    simp only [List.length_append, List.length_singleton]
    omega
  | break_ u rest hu ih =>
    have := ih (endsSolid_of_break hend)
    have := hle u
    rw [mapLines_break _ hu]
    simp only [List.length_append, List.length_cons]
    omega

/-- A piece that ends with something to see stays as it is exactly if it is not moved or has one line only. -/
theorem shifted_eq_self {k : Nat} {piece : List Char} (hend : endsSolid piece) :
    shifted k piece = piece ↔ k = 0 ∨ '\n' ∉ piece := by
  rw [shifted]
  split
  · rename_i hk
    exact ⟨fun _ => .inl hk, fun _ => rfl⟩
  · rename_i hk
    obtain hline | ⟨u, rest, hu, rfl⟩ := line_or_break piece
    · exact ⟨fun _ => .inr hline, fun _ => outdentRest_line k hline⟩
    · rw [outdentRest_break k hu]
      constructor
      · intro h
        have hlength := length_mapLines_outdent_lt hk (endsSolid_of_break hend)
        rw [List.append_cancel_left_eq, List.cons.injEq] at h
        rw [h.2] at hlength
        exact absurd hlength (Nat.lt_irrefl _)
      · exact fun h => h.elim (fun h => absurd h hk) fun h => absurd (by simp) h

end NestLint.Text
