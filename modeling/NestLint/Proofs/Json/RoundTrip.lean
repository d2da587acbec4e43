import Mathlib.Data.List.Forall2
import NestLint.Proofs.Json.Tokens

/-!
# Documents read back

However a document is laid out, what is put between its parts is blank space. A reader passes over that, takes one
part after the other, and gets the document again: its containers with all their parts in order, its strings and its
numbers.

* `ReadsAs`, `Encloses`: a text that is read as a value, and the texts of parts between brackets;
* `Loop`, `Loop.separated`: what the readers of items and of members have in common;
* `Readable`: documents that can be read back at all;
* `Spacing`, `readsAs_of_spacing`: any way of writing that puts nothing but blank space between parts;
* `parse_print`: both layouts.
-/

namespace NestLint.Json

/-! ## Blank space -/

/-- The text is blank space. -/
def Blank (gap : List Char) : Prop := ∀ c ∈ gap, isSpace c

theorem skipSpace_append {gap : List Char} (h : Blank gap) (rest : List Char) :
    skipSpace (gap ++ rest) = skipSpace rest := List.dropWhile_append_of_pos h

theorem skipSpace_cons {c : Char} (h : isSpace c = false) (rest : List Char) : skipSpace (c :: rest) = c :: rest := by
  rw [skipSpace, List.dropWhile_cons, h, if_neg Bool.false_ne_true]

theorem stops_nil : Stops [] := nofun

theorem stops_comma (rest : List Char) : Stops (',' :: rest) := by
  rintro c hc
  obtain rfl : ',' = c := Option.some.inj hc
  decide

theorem stops_append {gap rest : List Char} (h : Blank gap) (hrest : Stops rest) : Stops (gap ++ rest) := by
  cases gap with
  | nil => exact hrest
  | cons c gap =>
    rintro d hd
    obtain rfl : c = d := Option.some.inj hd
    have hc := h c List.mem_cons_self
    simp only [isSpace, Bool.or_eq_true, decide_eq_true_eq] at hc
    obtain ((rfl | rfl) | rfl) | rfl := hc <;> decide

/-! ## Texts that are read as values -/

/-- Nothing else than a part of a container can start with the text, and it is read as `a` if nothing goes on with it
and there is fuel for its length. -/
structure ReadsAs {α : Type} (read : Nat → List Char → α → List Char → Prop) (text : List Char) (a : α) : Prop where
  opens : ∃ c rest, text = c :: rest ∧ isSpace c = false ∧ c ≠ ']' ∧ c ≠ '\x7d'
  read : ∀ {fuel : Nat} {rest : List Char}, 2 * text.length + 1 ≤ fuel → Stops rest → read fuel (text ++ rest) a rest

/-- A value is read, and the rest of the text is left. -/
def ValueRead (fuel : Nat) (cs : List Char) (value : Json) (rest : List Char) : Prop :=
  parseValue fuel cs = .ok (value, rest)

/-- A member is read: its name, a colon and its value. -/
def MemberRead (fuel : Nat) (cs : List Char) (member : String × Json) (rest : List Char) : Prop :=
  ∃ quoted behind value, cs = '"' :: quoted ∧ parseString quoted = some (member.1, behind) ∧
    skipSpace behind = ':' :: value ∧ parseValue fuel (skipSpace value) = .ok (member.2, rest)

/-- A reader that reads one part after the other, with commas between them, up to a bracket. -/
structure Loop {α : Type} (read : Nat → List Char → α → List Char → Prop) (closing : Char)
    (loop : Nat → List Char → Except ParseFault (List α × List Char)) : Prop where
  last {fuel : Nat} {cs rest rest' : List Char} {a : α} : read fuel cs a rest → skipSpace rest = closing :: rest' →
    loop (fuel + 1) cs = .ok ([a], rest')
  more {fuel : Nat} {cs rest rest' rest'' : List Char} {a : α} {as : List α} : read fuel cs a rest →
    skipSpace rest = ',' :: rest' → loop fuel (skipSpace rest') = .ok (as, rest'') →
    loop (fuel + 1) cs = .ok (a :: as, rest'')
  stops (rest : List Char) : Stops (closing :: rest)
  closes : isSpace closing = false

theorem loop_items : Loop ValueRead ']' parseItems where
  last h hrest := by
    rw [ValueRead] at h
    simp only [parseItems, h, hrest]
  more h hrest hloop := by
    rw [ValueRead] at h
    simp only [parseItems, h, hrest, hloop]
    rfl
  stops rest := by
    rintro c hc
    obtain rfl : ']' = c := Option.some.inj hc
    decide
  closes := by decide

theorem loop_members : Loop MemberRead '\x7d' parseMembers where
  last := by
    rintro fuel _ rest rest' ⟨key, value⟩ ⟨quoted, behind, text, rfl, hkey, hcolon, hvalue⟩ hrest
    simp only [parseMembers, hkey, hcolon, hvalue, hrest]
  more := by
    rintro fuel _ rest rest' rest'' ⟨key, value⟩ as ⟨quoted, behind, text, rfl, hkey, hcolon, hvalue⟩ hrest hloop
    simp only [parseMembers, hkey, hcolon, hvalue, hrest, hloop]
    rfl
  stops rest := by
    rintro c hc
    obtain rfl : '\x7d' = c := Option.some.inj hc
    decide
  closes := by decide

section

variable {α : Type} {read : Nat → List Char → α → List Char → Prop} {closing : Char}
  {loop : Nat → List Char → Except ParseFault (List α × List Char)} {between : List Char}

theorem separated_cons_cons (separator text next : List Char) (rest : List (List Char)) :
    separated separator (text :: next :: rest) = text ++ separator ++ separated separator (next :: rest) := rfl

/-- The parts in a row begin like the first of them. -/
theorem opens_separated (between : List Char) {parts : List (List Char)} {as : List α}
    (h : List.Forall₂ (ReadsAs read) parts as) (hne : parts ≠ []) :
    ∃ c rest, separated (',' :: between) parts = c :: rest ∧ isSpace c = false ∧ c ≠ ']' ∧ c ≠ '\x7d' := by
  cases h with
  | nil => exact absurd rfl hne
  | @cons text a parts as hfirst hrest =>
    obtain ⟨c, rest, rfl, hc⟩ := hfirst.opens
    cases parts with
    | nil => exact ⟨c, rest, rfl, hc⟩
    | cons next parts => exact ⟨c, _, by rw [separated_cons_cons, List.cons_append, List.cons_append], hc⟩

/-- The parts are read one after the other. -/
theorem Loop.separated (hloop : Loop read closing loop) (hbetween : Blank between) {behind : List Char}
    (hbehind : Blank behind) {parts : List (List Char)} {as : List α} (h : List.Forall₂ (ReadsAs read) parts as)
    (hne : parts ≠ []) (fuel : Nat) (rest : List Char)
    (hfuel : 2 * ((Json.separated (',' :: between) parts).length + behind.length + 1) ≤ fuel) :
    loop fuel (Json.separated (',' :: between) parts ++ (behind ++ closing :: rest)) = .ok (as, rest) := by
  induction h generalizing fuel with
  | nil => exact absurd rfl hne
  | @cons text a parts as hfirst hrest ih =>
    obtain ⟨fuel, rfl⟩ : ∃ k, fuel = k + 1 := ⟨fuel - 1, by omega⟩
    cases hrest with
    | nil =>
      rw [Json.separated] at hfuel ⊢
      have hlength : 2 * text.length + 1 ≤ fuel := by omega
      have hread := hfirst.read hlength (stops_append hbehind (hloop.stops rest))
      refine hloop.last hread ?_
      rw [skipSpace_append hbehind, skipSpace_cons hloop.closes]
    | @cons next b parts as hnext hmore =>
      have htail : List.Forall₂ (ReadsAs read) (next :: parts) (b :: as) := .cons hnext hmore
      rw [separated_cons_cons, List.length_append, List.length_append, List.length_cons] at hfuel
      rw [separated_cons_cons, List.append_assoc, List.append_assoc, List.cons_append]
      have hlength : 2 * text.length + 1 ≤ fuel := by omega
      have hread := hfirst.read hlength
        (stops_comma (between ++ (Json.separated (',' :: between) (next :: parts) ++ (behind ++ closing :: rest))))
      refine hloop.more hread (skipSpace_cons (by decide) _) ?_
      obtain ⟨c, opening, hopens, hc, -⟩ := opens_separated between htail (List.cons_ne_nil _ _)
      rw [skipSpace_append hbetween, hopens, List.cons_append, skipSpace_cons hc, ← List.cons_append, ← hopens]
      exact ih (List.cons_ne_nil _ _) fuel (by omega)

/-- Behind the opening bracket stands what the loop can begin with, and it reads all parts. -/
theorem Loop.filled (hloop : Loop read closing loop) {first behind : List Char} (hfirst : Blank first)
    (hbetween : Blank between) (hbehind : Blank behind) {parts : List (List Char)} {as : List α}
    (h : List.Forall₂ (ReadsAs read) parts as) (hne : parts ≠ []) {fuel : Nat} (rest : List Char)
    (hfuel : 2 * ((Json.separated (',' :: between) parts).length + behind.length + 1) ≤ fuel) :
    ∃ c next, skipSpace (first ++ (Json.separated (',' :: between) parts ++ (behind ++ closing :: rest))) = c :: next ∧
      c ≠ ']' ∧ c ≠ '\x7d' ∧ loop fuel (c :: next) = .ok (as, rest) := by
  have hread := hloop.separated hbetween hbehind h hne fuel rest hfuel
  obtain ⟨c, opening, hopens, hc, hlist, hobject⟩ := opens_separated between h hne
  rw [hopens, List.cons_append] at hread ⊢
  exact ⟨c, _, by rw [skipSpace_append hfirst, skipSpace_cons hc], hlist, hobject, hread⟩

end

/-! ## Containers -/

/-- The parts stand between brackets, with commas and blank space. -/
inductive Encloses (opening closing : Char) : List (List Char) → List Char → Prop where
  | empty : Encloses opening closing [] [opening, closing]
  | filled {parts : List (List Char)} {first between behind : List Char} : parts ≠ [] → Blank first → Blank between →
    Blank behind →
    Encloses opening closing parts (opening :: first ++ separated (',' :: between) parts ++ behind ++ [closing])

/-- A container whose parts a loop reads is read as the value that is built from them. -/
theorem Loop.readsAs {α : Type} {read : Nat → List Char → α → List Char → Prop} {opening closing : Char}
    {loop : Nat → List Char → Except ParseFault (List α × List Char)} (hloop : Loop read closing loop)
    (build : List α → Json) (hopening : isSpace opening = false ∧ opening ≠ ']' ∧ opening ≠ '\x7d')
    (hempty : ∀ fuel rest, parseValue (fuel + 1) (opening :: closing :: rest) = .ok (build [], rest))
    (hfilled : ∀ {fuel : Nat} {cs next rest : List Char} {c : Char} {as : List α}, skipSpace cs = c :: next → c ≠ ']' →
      c ≠ '\x7d' → loop fuel (c :: next) = .ok (as, rest) → parseValue (fuel + 1) (opening :: cs) = .ok (build as, rest))
    {parts : List (List Char)} {as : List α} {text : List Char} (hparts : List.Forall₂ (ReadsAs read) parts as)
    (htext : Encloses opening closing parts text) : ReadsAs ValueRead text (build as) := by
  cases htext with
  | empty =>
    cases hparts
    refine ⟨⟨_, _, rfl, hopening⟩, fun {fuel rest} hfuel _ => ?_⟩
    obtain ⟨fuel, rfl⟩ : ∃ k, fuel = k + 1 := ⟨fuel - 1, by omega⟩
    exact hempty fuel rest
  | @filled _ first between behind hne hfirst hbetween hbehind =>
    refine ⟨⟨_, _, rfl, hopening⟩, fun {fuel rest} hfuel _ => ?_⟩
    obtain ⟨fuel, rfl⟩ : ∃ k, fuel = k + 1 := ⟨fuel - 1, by omega⟩
    simp only [List.length_append, List.length_cons, List.length_nil] at hfuel
    have hfuel : 2 * ((Json.separated (',' :: between) parts).length + behind.length + 1) ≤ fuel := by omega
    obtain ⟨c, next, hskip, hlist, hobject, hread⟩ := hloop.filled hfirst hbetween hbehind hparts hne rest hfuel
    rw [ValueRead]
    simp only [List.append_assoc, List.cons_append, List.nil_append]
    exact hfilled hskip hlist hobject hread

theorem readsAs_list {parts : List (List Char)} {items : List Json} {text : List Char}
    (hparts : List.Forall₂ (ReadsAs ValueRead) parts items) (htext : Encloses '[' ']' parts text) :
    ReadsAs ValueRead text (.list items) := by
  refine loop_items.readsAs .list (by decide) (fun _ _ => rfl) (fun hskip hclosing _ hread => ?_) hparts htext
  simp only [parseValue, hskip]
  split
  · rename_i heq
    exact absurd (List.cons.inj heq).1 hclosing
  · rw [hread]
    rfl

theorem readsAs_object {parts : List (List Char)} {members : List (String × Json)} {text : List Char}
    (hparts : List.Forall₂ (ReadsAs MemberRead) parts members) (htext : Encloses '\x7b' '\x7d' parts text) :
    ReadsAs ValueRead text (.object (Dict.ofList members)) := by
  refine loop_members.readsAs (fun members => .object (Dict.ofList members)) (by decide) (fun _ _ => rfl)
    (fun hskip _ hclosing hread => ?_) hparts htext
  simp only [parseValue, hskip]
  split
  · rename_i heq
    exact absurd (List.cons.inj heq).1 hclosing
  · rw [hread]
    rfl

theorem readsAs_string (text : String) : ReadsAs ValueRead (printString text) (.str text) := by
  refine ⟨⟨_, _, rfl, by decide⟩, fun {fuel rest} hfuel _ => ?_⟩
  obtain ⟨fuel, rfl⟩ : ∃ k, fuel = k + 1 := ⟨fuel - 1, by omega⟩
  have hstring := parseString_escaped text rest
  show parseValue (fuel + 1) _ = _
  simp only [printString, List.cons_append, List.append_assoc, List.nil_append, parseValue, hstring]

theorem readsAs_member {text : List Char} {value : Json} (h : ReadsAs ValueRead text value) (key : String) :
    ReadsAs MemberRead (printString key ++ ':' :: ' ' :: text) (key, value) := by
  refine ⟨⟨_, _, rfl, by decide⟩, fun {fuel rest} hfuel hrest => ?_⟩
  obtain ⟨c, opening, hopens, hc, -⟩ := h.opens
  have hstring := parseString_escaped key (':' :: ' ' :: text ++ rest)
  have hskip : skipSpace (' ' :: text ++ rest) = text ++ rest := by
    have hblank : Blank [' '] := by
      intro d hd
      rw [List.mem_singleton.1 hd]
      decide
    rw [← List.singleton_append, List.append_assoc, skipSpace_append hblank, hopens, List.cons_append,
      skipSpace_cons hc]
  simp only [List.length_append, List.length_cons] at hfuel
  have hvalue : parseValue fuel (text ++ rest) = .ok (value, rest) := h.read (by omega) hrest
  refine ⟨_, _, _, ?_, hstring, skipSpace_cons (by decide) _, ?_⟩
  · simp [printString]
  · show parseValue fuel (skipSpace (' ' :: text ++ rest)) = _
    rw [hskip, hvalue]

/-- A value without brackets or quotes. -/
theorem readsAs_atom {text : List Char} {value : Json}
    (hopens : ∃ c rest, text = c :: rest ∧ isSpace c = false ∧ c ∉ ['"', '[', ']', '\x7b', '\x7d'])
    (hread : ∀ {rest : List Char}, Stops rest → parseAtom (text ++ rest) = .ok (value, rest)) :
    ReadsAs ValueRead text value := by
  obtain ⟨c, behind, rfl, hc, hspecial⟩ := hopens
  simp only [List.mem_cons, List.not_mem_nil, or_false, not_or] at hspecial
  obtain ⟨hquote, hlist, hlist', hobject, hobject'⟩ := hspecial
  refine ⟨⟨c, behind, rfl, hc, hlist', hobject'⟩, fun {fuel rest} hfuel hrest => ?_⟩
  obtain ⟨fuel, rfl⟩ : ∃ k, fuel = k + 1 := ⟨fuel - 1, by omega⟩
  show parseValue (fuel + 1) _ = _
  rw [← hread hrest, List.cons_append, parseValue]
  · exact fun _ h => hquote (List.cons.inj h).1
  · exact fun _ h => hlist (List.cons.inj h).1
  · exact fun _ h => hobject (List.cons.inj h).1

theorem isSpace_of_isDigit {c : Char} (h : c.isDigit) : isSpace c = false := by
  rw [Bool.eq_false_iff]
  intro hspace
  simp only [isSpace, Bool.or_eq_true, decide_eq_true_eq] at hspace
  obtain ((rfl | rfl) | rfl) | rfl := hspace <;> exact absurd h (by decide)

theorem readsAs_int {n : Int} (h : isTooLong n = false) : ReadsAs ValueRead (printInt n) (.int n) := by
  refine readsAs_atom ?_ (parseAtom_printInt h)
  rw [printInt]
  split
  · exact ⟨'-', _, rfl, by decide⟩
  · obtain ⟨c, rest, hn⟩ := List.exists_cons_of_ne_nil (Nat.toDigits_ne_nil (n := n.natAbs) (b := 10))
    have hc : c.isDigit := isDigit_toDigits c (hn ▸ List.mem_cons_self)
    exact ⟨c, rest, hn, isSpace_of_isDigit hc, not_mem_of_isDigit hc rfl⟩

/-! ## Documents -/

/-- The document can be read back: its whole numbers are not too long, its other numbers are read as what they are,
and no object has a name twice. -/
inductive Readable : Json → Prop where
  | null : Readable .null
  | bool (b : Bool) : Readable (.bool b)
  | int {n : Int} : isTooLong n = false → Readable (.int n)
  | float {x : Binary64} : ReadsAs ValueRead (printFloat x) (.float x) → Readable (.float x)
  | str (text : String) : Readable (.str text)
  | list {items : List Json} : (∀ item ∈ items, Readable item) → Readable (.list items)
  | object {members : List (String × Json)} : (Dict.keys members).Nodup → (∀ member ∈ members, Readable member.2) →
    Readable (.object members)

/-- Whether a value has no parts. -/
def isAtom : Json → Bool
  | .list _ | .object _ => false
  | _ => true

/-- A way of writing documents, by level, that puts brackets, commas and blank space around parts. -/
structure Spacing (write : Nat → Json → List Char) : Prop where
  atom : ∀ level value, value.isAtom → write level value = printAtom value
  list : ∀ level items, Encloses '[' ']' (items.map (write (level + 1))) (write level (.list items))
  object : ∀ level members, Encloses '\x7b' '\x7d'
    (members.map fun member => printString member.1 ++ ':' :: ' ' :: write (level + 1) member.2)
    (write level (.object members))

theorem forall₂_map_left {α β : Type} {R : β → α → Prop} {f : α → β} {as : List α} (h : ∀ a ∈ as, R (f a) a) :
    List.Forall₂ R (as.map f) as := by
  rw [List.forall₂_map_left_iff, List.forall₂_same]
  exact h

/-- Whatever is written in such a way is read as the document, at every level. -/
theorem readsAs_of_spacing {write : Nat → Json → List Char} (hwrite : Spacing write) {value : Json}
    (h : value.Readable) (level : Nat) : ReadsAs ValueRead (write level value) value := by
  induction h generalizing level with
  | null =>
    rw [hwrite.atom _ _ rfl]
    exact readsAs_atom ⟨'n', _, rfl, by decide⟩ fun _ => rfl
  | bool b =>
    rw [hwrite.atom _ _ rfl]
    cases b with
    | false => exact readsAs_atom ⟨'f', _, rfl, by decide⟩ fun _ => rfl
    | true => exact readsAs_atom ⟨'t', _, rfl, by decide⟩ fun _ => rfl
  | int hn =>
    rw [hwrite.atom _ _ rfl]
    exact readsAs_int hn
  | float hx =>
    rw [hwrite.atom _ _ rfl]
    exact hx
  | str text =>
    rw [hwrite.atom _ _ rfl]
    exact readsAs_string text
  | list hitems ih => exact readsAs_list (forall₂_map_left fun item hitem => ih item hitem _) (hwrite.list level _)
  | object hnodup hmembers ih =>
    have hobject := readsAs_object
      (forall₂_map_left fun member hmember => readsAs_member (ih member hmember (level + 1)) member.1)
      (hwrite.object level _)
    rwa [Dict.ofList_of_nodup hnodup] at hobject

/-! ## Both layouts -/

theorem printItems_eq_map (items : List Json) : printItems items = items.map printLine := by
  induction items with
  | nil => rfl
  | cons item rest ih => rw [printItems, ih, List.map_cons]

theorem printMembers_eq_map (members : List (String × Json)) :
    printMembers members = members.map fun member => printString member.1 ++ ':' :: ' ' :: printLine member.2 := by
  induction members with
  | nil => rfl
  | cons member rest ih => rw [printMembers, ih, List.map_cons]

theorem printItemLines_eq_map (unit : List Char) (level : Nat) (items : List Json) :
    printItemLines unit level items = items.map (printLines unit level) := by
  induction items with
  | nil => rfl
  | cons item rest ih => rw [printItemLines, ih, List.map_cons]

theorem printMemberLines_eq_map (unit : List Char) (level : Nat) (members : List (String × Json)) :
    printMemberLines unit level members =
      members.map fun member => printString member.1 ++ ':' :: ' ' :: printLines unit level member.2 := by
  induction members with
  | nil => rfl
  | cons member rest ih => rw [printMemberLines, ih, List.map_cons]

theorem blank_lineStart {unit : List Char} (h : Blank unit) (level : Nat) : Blank (lineStart unit level) := by
  intro c hc
  obtain rfl | hc := List.mem_cons.1 hc
  · decide
  · obtain ⟨piece, hpiece, hc⟩ := List.mem_flatten.1 hc
    exact h c ((List.mem_replicate.1 hpiece).2 ▸ hc)

theorem encloses_oneLine (opening closing : Char) (parts : List (List Char)) :
    Encloses opening closing parts (opening :: separated [',', ' '] parts ++ [closing]) := by
  cases parts with
  | nil => exact .empty
  | cons part parts =>
    have hspace : Blank [' '] := by
      intro c hc
      rw [List.mem_singleton.1 hc]
      decide
    have hnone : Blank [] := nofun
    have hfilled : Encloses opening closing (part :: parts) _ :=
      .filled (List.cons_ne_nil part parts) hnone hspace hnone
    rwa [List.append_nil] at hfilled

theorem encloses_bracketed {unit : List Char} (h : Blank unit) (level : Nat) (opening closing : Char)
    (parts : List (List Char)) : Encloses opening closing parts (bracketed unit level opening closing parts) := by
  cases parts with
  | nil => exact .empty
  | cons part parts =>
    exact .filled (List.cons_ne_nil part parts) (blank_lineStart h (level + 1)) (blank_lineStart h (level + 1))
      (blank_lineStart h level)

theorem spacing_oneLine : Spacing fun _ => printLine where
  atom _ value hvalue := by
    cases value with
    | list items => cases hvalue
    | object members => cases hvalue
    | _ => rfl
  list _ items := by
    rw [printLine, printItems_eq_map]
    exact encloses_oneLine ..
  object _ members := by
    rw [printLine, printMembers_eq_map]
    exact encloses_oneLine ..

theorem spacing_lines {unit : List Char} (h : Blank unit) : Spacing (printLines unit) where
  atom _ value hvalue := by
    cases value with
    | list items => cases hvalue
    | object members => cases hvalue
    | _ => rfl
  list level items := by
    rw [printLines, printItemLines_eq_map]
    exact encloses_bracketed h ..
  object level members := by
    rw [printLines, printMemberLines_eq_map]
    exact encloses_bracketed h ..

/-- The layout puts nothing but blank space between parts: all on one line, or each level further in by any number
of blanks or by other blank space. -/
inductive Layout.Spaced : Layout → Prop where
  | oneLine : Spaced .oneLine
  | blanks (n : Int) : Spaced (.blanks n)
  | indented {unit : String} : Blank unit.toList → Spaced (.indented unit)

theorem parseList_of_readsAs {text : List Char} {value : Json} (h : ReadsAs ValueRead text value) :
    parseList text = .ok value := by
  have hread : parseValue (2 * text.length + 1) (text ++ []) = .ok (value, []) := h.read (Nat.le_refl _) stops_nil
  obtain ⟨c, rest, hopens, hc, -⟩ := h.opens
  have hskip : skipSpace text = text := by rw [hopens, skipSpace_cons hc]
  rw [List.append_nil] at hread
  rw [parseList, hskip, hread]
  rfl

/-- A document that can be read back is read back from any layout. -/
theorem parse_print {layout : Layout} (hlayout : layout.Spaced) {value : Json} (h : value.Readable) :
    parse (print layout value) = .ok value := by
  have hlines {unit : String} (hunit : Blank unit.toList) : parse (print (.indented unit) value) = .ok value := by
    rw [parse, print, String.toList_ofList]
    exact parseList_of_readsAs (readsAs_of_spacing (spacing_lines hunit) h 0)
  cases hlayout with
  | oneLine =>
    rw [parse, print, String.toList_ofList]
    exact parseList_of_readsAs (readsAs_of_spacing spacing_oneLine h 0)
  | blanks n =>
    refine hlines ?_
    intro c hc
    rw [String.toList_ofList] at hc
    rw [(List.mem_replicate.1 hc).2]
    decide
  | indented hunit => exact hlines hunit

end NestLint.Json
