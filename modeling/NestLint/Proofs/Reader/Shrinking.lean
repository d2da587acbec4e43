import NestLint.Proofs.Reader.Errors
import NestLint.Proofs.Reader.Nesting

/-!
# Bodies of macros shrink

Reading a file alternates between going down a concrete tree and parsing the body of a macro anew. Where every
invocation lies in its snippet and has a name, an exclamation mark and delimiters, a body is at least four bytes
shorter than the snippet that holds it. So reading ends, without any patience, and the bodies are not nested deeper
than a quarter of the bytes of the file.

The bodies are those that `expand` takes out and `_parse` parses.

* `Concrete.Invokes`: invocations as they are supposed to be;
* `infix_of_inside?`: what stands between delimiters is a part of the body;
* `Calls`, `Reached`: which goals are read for which, and inside of how many bodies;
* `Shrinks`: the invariant of all goals that are reached;
* `ends_of_invokes`: reading ends.
-/

namespace NestLint

/-- An invocation in a snippet of so many bytes. It lies between the braces and holds a name that is not empty, an
exclamation mark and a token tree, one behind the other, and the tree has room for delimiters of one byte. -/
structure Concrete.Invokes (length : Nat) (c : Concrete) : Prop where
  inside : 1 ≤ c.start ∧ c.stop ≤ length + 1
  held : ∃ name ∈ (c.child? "macro").or c.parts.head?, ∃ bang ∈ c.children, ∃ tree ∈ c.childOfType? "token_tree",
    bang.type = "!" ∧ c.start ≤ name.start ∧ name.start < name.stop ∧ name.stop ≤ bang.start ∧
      bang.start < bang.stop ∧ bang.stop ≤ tree.start ∧ tree.start + 2 ≤ tree.stop ∧ tree.stop ≤ c.stop

instance (length : Nat) (c : Concrete) : Decidable (c.Invokes length) :=
  decidable_of_iff
    ((1 ≤ c.start ∧ c.stop ≤ length + 1) ∧
      ∃ name ∈ (c.child? "macro").or c.parts.head?, ∃ bang ∈ c.children, ∃ tree ∈ c.childOfType? "token_tree",
        bang.type = "!" ∧ c.start ≤ name.start ∧ name.start < name.stop ∧ name.stop ≤ bang.start ∧
          bang.start < bang.stop ∧ bang.stop ≤ tree.start ∧ tree.start + 2 ≤ tree.stop ∧ tree.stop ≤ c.stop)
    ⟨fun ⟨hinside, hheld⟩ => ⟨hinside, hheld⟩, fun h => ⟨h.inside, h.held⟩⟩

/-- Every invocation in what a parser delivers is as it is supposed to be. -/
def Parser.Invokes (parser : Parser) : Prop :=
  ∀ body top, parser body = some top → ∀ c ∈ top.subtrees, c.type = "macro_invocation" →
    c.Invokes (Text.byteLength body.toList)

/-- Three bytes at least stand in front of the token tree, and the delimiters take two more. -/
theorem Concrete.Invokes.room {length : Nat} {c tree : Concrete} (h : c.Invokes length)
    (htree : c.childOfType? "token_tree" = some tree) :
    3 ≤ tree.start ∧ tree.start + 2 ≤ tree.stop ∧ tree.stop ≤ length + 1 := by
  obtain ⟨hstart, hstop⟩ := h.inside
  obtain ⟨name, -, bang, -, tree', htree', -, hname, hname', hbang, hbang', hbefore, hroom, hbehind⟩ := h.held
  obtain rfl : tree' = tree := Option.some.inj (htree'.symm.trans htree)
  omega

/-! ## What is cut out of a text -/

namespace Text

theorem prefix_of_takeBytes? {cs t : List Char} {offset : Nat} (h : takeBytes? cs offset = some t) : t <+: cs := by
  fun_induction takeBytes? cs offset generalizing t with
  | case1 =>
    cases h
    exact List.nil_prefix
  | case2 =>
    cases h
    exact List.nil_prefix
  | case3 => cases h
  | case4 offset c rest _ hsize ih =>
    obtain ⟨t, ht, rfl⟩ := Option.map_eq_some_iff.1 h
    exact List.cons_prefix_cons.2 ⟨rfl, ih ht⟩

theorem suffix_of_dropBytes? {cs t : List Char} {offset : Nat} (h : dropBytes? cs offset = some t) : t <:+ cs := by
  fun_induction dropBytes? cs offset generalizing t with
  | case1 =>
    cases h
    exact List.suffix_refl _
  | case2 =>
    cases h
    exact List.nil_suffix
  | case3 => cases h
  | case4 c rest offset _ hsize ih => exact (ih h).trans (List.suffix_cons c rest)

end Text

namespace Snippet

/-- What stands between the delimiters of a node that ends before the last brace is a part of the body, and takes at
least two bytes less than the node. -/
theorem infix_of_inside? {s : Snippet} {c : Concrete} {body : List Char} (h : s.inside? c = some body)
    (hc : c.start + 2 ≤ c.stop) (hstop : c.stop ≤ Text.byteLength s.body + 1) :
    body <:+: s.body ∧ c.start + Text.byteLength body + 2 ≤ c.stop := by
  rw [inside?, if_neg (by omega), Text.cut?] at h
  split at h
  · cases h
    exact ⟨List.nil_infix, by show c.start + 0 + 2 ≤ c.stop; omega⟩
  · obtain ⟨front, hfront, hbody⟩ := Option.bind_eq_some_iff.1 h
    have hlength := Text.byteLength_dropBytes? hbody
    have hfrontLength := Text.byteLength_takeBytes? hfront
    refine ⟨?_, by omega⟩
    -- what is in front of the closing delimiter is in front of the newline behind the body
    obtain ⟨back, hback⟩ := Text.prefix_of_takeBytes? hfront
    have hopening := byteLength_opening s.body
    obtain ⟨rest, hrest⟩ := Text.exists_of_byteLength_le
      (show front ++ back = ('\x7b' :: s.body) ++ ['\n', '\x7d'] from hback) (by omega)
    have hsuffix := Text.suffix_of_dropBytes? hbody
    cases front with
    | nil =>
      obtain rfl := List.suffix_nil.1 hsuffix
      exact List.nil_infix
    | cons brace front =>
      obtain ⟨-, hfrontOf⟩ := List.cons.inj hrest
      obtain rfl | hsuffix := List.suffix_cons_iff.1 hsuffix
      · have := brace.utf8Size_pos
        rw [Text.byteLength_cons] at hlength
        omega
      · exact hsuffix.isInfix.trans ⟨[], rest, hfrontOf.symm⟩

end Snippet

namespace Reader

variable {parser : Parser} {opaqueMacros : List String} {s : Snippet} {g : Goal}

/-! ## Which goals are read for which -/

section Calls

variable (parser : Parser) (opaqueMacros : List String)

/-- A goal is read for another one: as a part of its rule, or as the block in the body of an invocation. -/
inductive Calls : Snippet × Goal → Snippet × Goal → Prop where
  | part {s : Snippet} {g k : Goal} : g.isMacro = false → k ∈ (plan s g).parts → Calls (s, k) (s, g)
  | body {s inner : Snippet} {c block : Concrete} {name : String} {i : Int} :
    c.type = "macro_invocation" → macroName s c = .ok name → Opens opaqueMacros s c name i inner →
      parse parser inner = .ok block → Calls (inner, .block block) (s, .expr c)

/-- The goals that may be read for a file, with the number of bodies that they are inside of. -/
inductive Reached (file : List Char) : Nat → Snippet → Goal → Prop where
  | file {block : Concrete} : parse parser (Snippet.ofFile file) = .ok block →
    Reached file 0 (Snippet.ofFile file) (.block block)
  | part {n : Nat} {s : Snippet} {g k : Goal} : Reached file n s g → g.isMacro = false → k ∈ (plan s g).parts →
    Reached file n s k
  | body {n : Nat} {s inner : Snippet} {c block : Concrete} {name : String} {i : Int} : Reached file n s (.expr c) →
    c.type = "macro_invocation" → macroName s c = .ok name → Opens opaqueMacros s c name i inner →
      parse parser inner = .ok block → Reached file (n + 1) inner (.block block)

end Calls

/-! ## The invariant -/

/-- Every invocation at a goal or below it is as it is supposed to be in the snippet. -/
def Shrinks (s : Snippet) (g : Goal) : Prop :=
  ∀ c ∈ g.source.subtrees, c.type = "macro_invocation" → c.Invokes (Text.byteLength s.body)

theorem Shrinks.part (h : Shrinks s g) {k : Goal} (hk : k ∈ (plan s g).parts) : Shrinks s k :=
  fun c hc => h c (Concrete.mem_subtrees_trans _ ((within_plan s g).below k hk) hc)

/-- A block of statements is somewhere in the tree. -/
theorem mem_subtrees_of_statementBlock {top block : Concrete} (h : statementBlock s top = .ok block) :
    block ∈ top.subtrees := by
  unfold statementBlock at h
  split at h
  · cases h
  · split at h
    · rename_i stmt htop
      split at h
      · cases h
        exact source_of_parts htop
      · split at h
        · cases h
        · rename_i hstmt
          cases h
          exact Concrete.mem_subtrees_trans _ (source_of_parts htop) (source_of_parts hstmt)
    · cases h

theorem Shrinks.block (hparser : parser.Invokes) {block : Concrete} (h : parse parser s = .ok block) :
    Shrinks s (.block block) := by
  rw [parse] at h
  split at h
  · cases h
  · rename_i top htop
    intro c hc hmacro
    have hinvokes := hparser _ top htop c (Concrete.mem_subtrees_trans _ (mem_subtrees_of_statementBlock h) hc) hmacro
    rwa [String.toList_ofList] at hinvokes

/-- The body of an invocation is shorter than the snippet that holds it, in bytes and in characters. -/
theorem Shrinks.shorter_of_inside? {c tree : Concrete} (h : Shrinks s (.expr c)) (hc : c.type = "macro_invocation")
    {name : String} (htree : bodyTree? opaqueMacros name c = some tree) {body : List Char}
    (hbody : s.inside? tree = some body) :
    Text.byteLength body + 4 ≤ Text.byteLength s.body ∧ body.length < s.body.length := by
  have htree : c.childOfType? "token_tree" = some tree := by
    rw [bodyTree?] at htree
    split at htree
    · cases htree
    · exact htree
  obtain ⟨hstart, hroom, hstop⟩ := (h c c.mem_subtrees_self hc).room htree
  obtain ⟨hpart, hlength⟩ := Snippet.infix_of_inside? hbody hroom hstop
  have hbytes : Text.byteLength body + 4 ≤ Text.byteLength s.body := by omega
  refine ⟨hbytes, Nat.lt_of_le_of_ne hpart.length_le fun heq => ?_⟩
  rw [← hpart.eq_of_length heq] at hbytes
  exact absurd hbytes (by omega)

theorem Shrinks.shorter {c : Concrete} (h : Shrinks s (.expr c)) (hc : c.type = "macro_invocation") {inner : Snippet}
    {name : String} {i : Int} (ho : Opens opaqueMacros s c name i inner) :
    Text.byteLength inner.body + 4 ≤ Text.byteLength s.body ∧ inner.body.length < s.body.length := by
  obtain ⟨tree, body, htree, hbody, rfl⟩ := ho
  exact h.shorter_of_inside? hc htree hbody

/-! ## Reading ends -/

/-- No chain of goals that are read one for the other goes on for ever. -/
theorem Shrinks.acc (hparser : parser.Invokes) (s : Snippet) (g : Goal) (h : Shrinks s g) :
    Acc (Calls parser opaqueMacros) (s, g) := by
  refine .intro _ fun ⟨s', k⟩ hcall => ?_
  -- a part is a smaller goal of the same snippet, and a body is a shorter snippet, whatever its tree
  cases hcall with
  | part hm hk => exact Shrinks.acc hparser s k (h.part hk)
  | body hc hname ho hparse =>
    have hshorter := h.shorter hc ho
    exact Shrinks.acc hparser s' _ (.block hparser hparse)
termination_by (s.body.length, g.measure)
decreasing_by
  · exact .right _ (lt_of_mem_parts hk)
  · exact .left _ _ hshorter.2

/-- It does not matter how much patience there is. -/
theorem Shrinks.build_eq (hparser : parser.Invokes) (t t' : Nat) (s : Snippet) (g : Goal) (h : Shrinks s g) :
    build parser opaqueMacros t s g = build parser opaqueMacros t' s g := by
  have hrule (hm : g.isMacro = false) : build parser opaqueMacros t s g = build parser opaqueMacros t' s g := by
    have hparts : (fun k (_ : k ∈ (plan s g).parts) => build parser opaqueMacros t s k) =
        fun k _ => build parser opaqueMacros t' s k := by
      funext k hk
      exact Shrinks.build_eq hparser t t' s k (h.part hk)
    rw [build_of_not_isMacro hm, build_of_not_isMacro hm, hparts]
  cases g with
  | block c => exact hrule rfl
  | stmt c => exact hrule rfl
  | expr c =>
    by_cases hc : c.type = "macro_invocation"
    · rw [build, build, if_pos hc, if_pos hc]
      refine bind_congr fun name => ?_
      cases htree : bodyTree? opaqueMacros name c with
      | none => rfl
      | some tree =>
        refine bind_congr fun origin => ?_
        cases hbody : s.inside? tree with
        | none => rfl
        | some body =>
          have hshorter := h.shorter_of_inside? hc htree hbody
          cases hparse : parse parser (s.inner tree body origin) with
          | error fault =>
            simp only [hparse]
            cases fault <;> rfl
          | ok block =>
            have hinner := Shrinks.build_eq hparser t t' (s.inner tree body origin) _ (.block hparser hparse)
            simp only [hparse, dif_pos hshorter.2, hinner]
    · exact hrule (beq_eq_false_iff_ne.2 hc)
termination_by (s.body.length, g.measure)
decreasing_by
  · exact .right _ (lt_of_mem_parts hk)
  · exact .left _ _ hshorter.2

theorem parse_ne_endless : parse parser s ≠ .error .endless := by
  intro h
  rw [parse] at h
  split at h
  · cases h
  · unfold statementBlock at h
    repeat' split at h
    all_goals cases h

/-- Patience never runs out. -/
theorem ne_endless_of_blame (hparser : parser.Invokes) {t : Nat} {fault : ReadFault}
    (h : Blame parser opaqueMacros t s g fault) : Shrinks s g → fault ≠ .endless := by
  induction h with
  | rule hfault =>
    rintro - rfl
    cases hfault
  | part _ hk _ ih => exact fun hs => ih (hs.part hk)
  | shut _ _ hparse _ =>
    rintro - rfl
    exact parse_ne_endless hparse
  | long hc ho _ hlong => exact fun hs => absurd (hs.shorter hc ho).2 hlong
  | body _ _ hparse _ _ ih => exact fun _ => ih (.block hparser hparse)

theorem Reached.shrinks (hparser : parser.Invokes) {file : List Char} {n : Nat}
    (h : Reached parser opaqueMacros file n s g) :
    Shrinks s g ∧ 4 * n + Text.byteLength s.body ≤ Text.byteLength file := by
  induction h with
  | file hparse => exact ⟨.block hparser hparse, by show 4 * 0 + Text.byteLength file ≤ _; omega⟩
  | part _ _ hk ih => exact ⟨ih.1.part hk, ih.2⟩
  | body _ hc _ ho hparse ih =>
    have hshorter := (ih.1.shorter hc ho).1
    exact ⟨.block hparser hparse, by omega⟩

/-- Reading a file ends if the parser delivers invocations as they are supposed to be. Every goal that is reached comes
to an end, whatever the patience, and every body is shorter than the snippet that holds it, so there is one inside of
the other at most for every four bytes of the file. -/
theorem ends_of_invokes (hparser : parser.Invokes) (text fileName : String) (start : Progress) :
    (∀ n s g, Reached parser opaqueMacros text.toList n s g →
      Acc (Calls parser opaqueMacros) (s, g) ∧
      (∀ t t', build parser opaqueMacros t s g = build parser opaqueMacros t' s g) ∧
      4 * n + Text.byteLength s.body ≤ Text.byteLength text.toList ∧
      ∀ c name i inner, g = .expr c → c.type = "macro_invocation" → Opens opaqueMacros s c name i inner →
        Text.byteLength inner.body < Text.byteLength s.body ∧ 4 * (n + 1) ≤ Text.byteLength text.toList) ∧
    (read parser opaqueMacros text fileName start).1 ≠ .error .endless := by
  constructor
  · intro n s g hreached
    obtain ⟨hshrinks, hdepth⟩ := hreached.shrinks hparser
    refine ⟨hshrinks.acc hparser, fun t t' => hshrinks.build_eq hparser t t', hdepth, ?_⟩
    rintro c name i inner rfl hc ho
    have hshorter := (hshrinks.shorter hc ho).1
    exact ⟨by omega, by omega⟩
  · intro h
    obtain hfile | ⟨block, hparse, hblame⟩ := blame_of_read h
    · exact parse_ne_endless hfile
    · exact ne_endless_of_blame hparser hblame (.block hparser hparse) rfl

/-! ### A macro inside of a macro -/

section Nested

open Concrete

/-- A parser that knows a file, and what is in the macros of it. -/
def shrinkingParser (body : String) : Option Concrete :=
  if body = "m!(n!(x))" then some (ofWrapping 12 (callUpTo 10))
  else if body = "n!(x)" then some (ofWrapping 8 (callUpTo 6))
  else if body = "x" then some (ofWrapping 4 (construct "identifier" 1 2 none []))
  else none

/-- The body of `m!`. -/
def outerBody : Snippet := ⟨['n', '!', '(', 'x', ')'], 2, ⟨1, some "m"⟩, "m!(n!(x))".toList⟩

/-- The body of `n!` in it. -/
def innerBody : Snippet := ⟨['x'], 5, ⟨2, some "n"⟩, "m!(n!(x))".toList⟩

theorem invokes_shrinkingParser : Parser.Invokes shrinkingParser := by
  intro body top h
  unfold shrinkingParser at h
  split at h
  · rename_i hbody
    cases h
    rw [hbody]
    decide +kernel
  · split at h
    · rename_i hbody
      cases h
      rw [hbody]
      decide +kernel
    · split at h
      · rename_i hbody
        cases h
        rw [hbody]
        decide +kernel
      · cases h

/-- In `m!(n!(x))` there are two bodies one inside of the other. They take four bytes each, and one is left. -/
theorem ends_of_invokes_nested :
    Parser.Invokes shrinkingParser ∧
      Reached shrinkingParser [] "m!(n!(x))".toList 2 innerBody
        (.block (wrapping 4 (construct "identifier" 1 2 none []))) ∧
      4 * 2 + Text.byteLength innerBody.body ≤ Text.byteLength "m!(n!(x))".toList ∧
      (read shrinkingParser [] "m!(n!(x))" "main.rs" {}).1 ≠ .error .endless := by
  have hcall {n stop k : Nat} {s : Snippet} (h : Reached shrinkingParser [] "m!(n!(x))".toList n s
      (.block (wrapping stop (callUpTo k)))) : Reached shrinkingParser [] "m!(n!(x))".toList n s (.expr (callUpTo k)) :=
    .part (.part h rfl (.head _)) rfl (.head _)
  have hfile : Reached shrinkingParser [] "m!(n!(x))".toList 0 _ (.block (wrapping 12 (callUpTo 10))) := .file rfl
  have houter : Opens [] (Snippet.ofFile "m!(n!(x))".toList) (callUpTo 10) "m" 1 outerBody := ⟨_, _, rfl, rfl, rfl⟩
  have hinner : Opens [] outerBody (callUpTo 6) "n" 2 innerBody := ⟨_, _, rfl, rfl, rfl⟩
  have hreached := Reached.body (hcall (.body (hcall hfile) rfl rfl houter rfl)) rfl rfl hinner rfl
  obtain ⟨hends, hread⟩ := @ends_of_invokes shrinkingParser [] invokes_shrinkingParser "m!(n!(x))" "main.rs" {}
  obtain ⟨-, -, hdepth, -⟩ := hends _ _ _ hreached
  exact ⟨invokes_shrinkingParser, hreached, hdepth, hread⟩

end Nested

end Reader

end NestLint
