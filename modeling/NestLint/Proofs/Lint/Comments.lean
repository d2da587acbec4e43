import NestLint.Lint.Collapsible
import NestLint.Proofs.Text.Indentation

/-!
# Comments at the start of a block

Nothing is reported where a block starts with a comment. The guard looks at the re-indented text of the block, behind
all blanks and opening braces. Re-indenting takes blanks away that stand in front of something to see, on any number of
lines, but it never brings two characters of one line together or apart, so the answer is that for the text as it
stands in the file.

The guard is `block_starts_with_comment`, and the re-indented text is that of `snippet_block`.

* `opensWithComment_iff`: what is looked for;
* `opensWithComment_reindentLines`: re-indenting does not change what is found;
* `startsWithComment_iff`: the guard, for every text and every span.
-/

namespace NestLint

open Text (isBlank visible outdentRest splitLines Deep)

namespace Collapsible

/-- Blanks and opening braces. -/
def isOpening (c : Char) : Bool := isBlank c || c == '\x7b'

/-- The longest start of a text that holds blanks and opening braces only, and what stands behind it. -/
structure Opening (text front rest : List Char) : Prop where
  split : text = front ++ rest
  all : ∀ c ∈ front, isBlank c ∨ c = '\x7b'
  longest : ∀ c, rest.head? = some c → isBlank c = false ∧ c ≠ '\x7b'

theorem isOpening_iff {c : Char} : isOpening c ↔ isBlank c ∨ c = '\x7b' := by simp [isOpening]

theorem not_isOpening_iff {c : Char} : isOpening c = false ↔ isBlank c = false ∧ c ≠ '\x7b' := by simp [isOpening]

theorem Opening.withoutOpening_eq {text front rest : List Char} (h : Opening text front rest) :
    withoutOpening text = rest := by
  show text.dropWhile isOpening = rest
  rw [h.split, List.dropWhile_append_of_pos fun c hc => isOpening_iff.2 (h.all c hc)]
  cases rest with
  | nil => rfl
  | cons c rest => rw [List.dropWhile_cons_of_neg (by rw [not_isOpening_iff.2 (h.longest c rfl)]; exact Bool.false_ne_true)]

theorem exists_opening (text : List Char) : ∃ front, Opening text front (withoutOpening text) := by
  refine ⟨text.takeWhile isOpening, List.takeWhile_append_dropWhile.symm, fun c hc => ?_, fun c hc => ?_⟩
  · exact isOpening_iff.1 (List.mem_takeWhile_imp hc)
  · have hstops := List.head?_dropWhile_not isOpening text
    rw [show text.dropWhile isOpening = withoutOpening text from rfl, hc] at hstops
    exact not_isOpening_iff.1 hstops

/-- What is found is a comment that stands behind the longest start of blanks and opening braces. -/
theorem opensWithComment_iff {text : List Char} :
    opensWithComment text ↔
      ∃ front rest, Opening text front rest ∧ ("//".toList <+: rest ∨ "/*".toList <+: rest) := by
  have hstart : opensWithComment text ↔
      "//".toList <+: withoutOpening text ∨ "/*".toList <+: withoutOpening text := by
    rw [opensWithComment, Bool.or_eq_true, List.isPrefixOf_iff_prefix, List.isPrefixOf_iff_prefix]
  rw [hstart]
  constructor
  · intro hcomment
    obtain ⟨front, hopening⟩ := exists_opening text
    exact ⟨front, _, hopening, hcomment⟩
  · rintro ⟨front, rest, hopening, hcomment⟩
    rwa [hopening.withoutOpening_eq]

/-! ## Texts that are re-indented -/

/-- What can be seen of blanks and opening braces are opening braces. -/
theorem opening_of_visible {u v : List Char} (h : visible u = visible v) (hv : ∀ c ∈ v, isBlank c ∨ c = '\x7b') :
    ∀ c ∈ u, isBlank c ∨ c = '\x7b' := by
  intro c hc
  by_cases hblank : isBlank c
  · exact .inl hblank
  · have hmem : c ∈ visible v := by
      rw [← h, visible, List.mem_filter]
      exact ⟨hc, by simpa using hblank⟩
    exact hv c (List.mem_of_mem_filter hmem)

/-- What stands behind blanks and opening braces is moved as if nothing stood in front. -/
theorem Opening.moved {k : Nat} {text front rest : List Char} (h : Opening text front rest)
    (hdeep : Deep k ((splitLines text).drop 1)) :
    ∃ front', Opening (outdentRest k text) front' (outdentRest k rest) := by
  obtain ⟨rfl, hall, hlongest⟩ := h
  have hrest : Deep k ((splitLines rest).drop 1) := fun line hline =>
    hdeep line (Text.mem_drop_splitLines_append hline)
  cases hhead : rest.head? with
  | none =>
    obtain rfl := List.head?_eq_none_iff.1 hhead
    refine ⟨outdentRest k (front ++ []), (List.append_nil _).symm, ?_, fun c hc => by cases hc⟩
    exact opening_of_visible (Text.visible_outdentRest hdeep) (by simpa using hall)
  | some c =>
    have hsolid : Text.startsSolid rest := by
      rw [Text.startsSolid, hhead]
      simp [(hlongest c hhead).1]
    obtain ⟨front', hfront⟩ := Text.exists_outdentRest_append_left hsolid hdeep
    have hvisible := Text.visible_outdentRest hdeep
    rw [hfront, Text.visible_append, Text.visible_append, Text.visible_outdentRest hrest,
      List.append_cancel_right_eq] at hvisible
    refine ⟨front', hfront, opening_of_visible hvisible hall, fun d hd => ?_⟩
    rw [Text.head?_outdentRest hsolid] at hd
    exact hlongest d hd

theorem opensWithComment_reindentLines (text : List Char) :
    opensWithComment (Text.reindentLines true text) = opensWithComment text := by
  rw [Text.reindentLines_eq_shifted, Text.shifted]
  split
  · rfl
  · obtain ⟨front, hopening⟩ := exists_opening text
    obtain ⟨front', hopening'⟩ := hopening.moved (Text.deep_inset text)
    rw [opensWithComment, opensWithComment, hopening'.withoutOpening_eq, Bool.eq_iff_iff]
    simp only [Bool.or_eq_true, List.isPrefixOf_iff_prefix]
    rw [Text.prefix_outdentRest_iff (by decide), Text.prefix_outdentRest_iff (by decide)]

/-- The guard finds a comment exactly if the span can be read and its text, as it stands in the file, has one behind the
longest start of blanks and opening braces. Re-indenting a text never changes whether there is one. -/
theorem startsWithComment_iff (source : SourceText) (span : Span) :
    (startsWithComment source span ↔ source.readable span ∧
      ∃ front rest, Opening ((source.chars.take span.hi.toNat).drop span.lo.toNat) front rest ∧
        ("//".toList <+: rest ∨ "/*".toList <+: rest)) ∧
      ∀ text : String, opensWithComment (Text.reindent text).toList = opensWithComment text.toList := by
  have hreindent (text : String) : opensWithComment (Text.reindent text).toList = opensWithComment text.toList := by
    rw [Text.reindent, String.toList_ofList, opensWithComment_reindentLines]
  refine ⟨?_, hreindent⟩
  rw [← opensWithComment_iff, startsWithComment, SourceText.snippetBlock, hreindent, SourceText.snippet,
    SourceText.snippet?]
  split
  · rename_i hreadable
    rw [Option.getD_some, String.toList_ofList]
    exact ⟨fun h => ⟨hreadable, h⟩, fun h => h.2⟩
  · rename_i hreadable
    have hdefault : opensWithComment "..".toList = false := by decide
    rw [Option.getD_none, hdefault]
    exact ⟨fun h => absurd h Bool.false_ne_true, fun h => absurd h.1 hreadable⟩

/- Blanks of any kind and opening braces, over several lines. -/
example : opensWithComment (Text.reindent "\x7b\u3000\x7b\n\n      /* a */ b()\n    \x7d").toList = true := by decide

end Collapsible

end NestLint
