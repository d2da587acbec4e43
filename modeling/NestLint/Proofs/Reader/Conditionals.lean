import NestLint.Proofs.Reader.Adequacy
import NestLint.Proofs.Reader.Hygiene
import NestLint.Proofs.Reader.Rules

/-!
# Conditionals that are read

The conditionals of a tree that was read were written in the text or were brought by expansions. Those
that were written are, one for one, the conditionals of the concrete tree, but for those in the block
of a `let` with `else`: of such a block nothing is read.

The readings are those of `SourceReader.read`; the `let` with `else` is read by `local`.

* `Account.written`, `Account.brought`: the accounts of the conditionals of a tree;
* `conditionals_of_reads`: the tree holds just these conditionals;
* `written_perm`: what was written is what the rules are meant to read;
* `census_of_read`: every reading that succeeds, and when no conditional is lost;
* `lost_behind_else`: a file that is read without the conditionals it holds.
-/

namespace NestLint

namespace Reader

/-! ## Accounts of conditionals -/

namespace Account

/-- The concrete node that is accounted for. -/
def source : Account → Concrete
  | .rule _ (.block c) _ _ => c
  | .rule _ (.expr c) _ _ => c
  | .rule _ (.stmt c) _ _ => c
  | .kept _ c _ => c
  | .expansion _ c _ _ => c

/-- What a rule made use of. -/
def used : Account → List Account
  | .rule _ g parts _ => g.kept parts
  | _ => []

theorem sizeOf_lt_of_mem_used {a p : Account} (h : p ∈ a.used) : sizeOf p < sizeOf a := by
  cases a with
  | rule s g parts n =>
    have := List.sizeOf_lt_of_mem (mem_of_mem_kept h)
    rw [rule.sizeOf_spec]
    omega
  | kept s c name => cases h
  | expansion s c o e => cases h

/-- The account itself if it is that of a conditional. -/
def own : Account → List Account
  | .rule s g parts n => if g.isConditional then [.rule s g parts n] else []
  | _ => []

/-- The accounts of the conditionals that are written in the text of the snippet. -/
def written (a : Account) : List Account := a.own ++ a.used.attach.flatMap fun p => written p.1
termination_by sizeOf a
decreasing_by exact sizeOf_lt_of_mem_used p.2

theorem written_eq (a : Account) : a.written = a.own ++ a.used.flatMap written := by
  rw [written, List.flatMap_subtype, List.unattach_attach]
  intro p _
  rfl

/-- The accounts of the conditionals that come from the bodies of macros. -/
def brought : Account → List Account
  | .rule s g parts n => (rule s g parts n).used.attach.flatMap fun p => brought p.1
  | .kept .. => []
  | .expansion _ _ _ e => e.written ++ brought e
termination_by a => sizeOf a
decreasing_by
  · exact sizeOf_lt_of_mem_used p.2
  · rw [expansion.sizeOf_spec]
    omega

theorem brought_rule (s : Snippet) (g : Goal) (parts : List Account) (n : Node) :
    (rule s g parts n).brought = (g.kept parts).flatMap brought := by
  rw [brought, List.flatMap_subtype, List.unattach_attach]
  · rfl
  · intro p _
    rfl

/-- All conditionals. -/
def conditionals (a : Account) : List Account := a.written ++ a.brought

theorem conditionals_expansion (s : Snippet) (c : Concrete) (o : Origin) (e : Account) :
    (expansion s c o e).conditionals = e.conditionals := by
  rw [conditionals, written_eq, brought]
  rfl

/-- The conditionals of what a rule made. -/
theorem conditionals_rule_perm (s : Snippet) (g : Goal) (parts : List Account) (n : Node) :
    (rule s g parts n).conditionals.Perm ((rule s g parts n).own ++ (g.kept parts).flatMap conditionals) := by
  rw [conditionals, written_eq, brought_rule, List.append_assoc]
  exact (List.flatMap_append_perm (g.kept parts) written brought).append_left _

end Account

section Reads

variable {parser : Parser} {opaqueMacros : List String} {t : Nat} {s : Snippet} {goals : List Goal}
  {accounts : List Account} {i j : Int}

/-! ## The conditionals of the tree -/

/-- A node holds the conditionals that its account tells of, and no others. -/
theorem conditionals_of_reads (h : Reads parser opaqueMacros t s goals i accounts j) :
    ∀ a ∈ accounts, a.node.conditionals.Perm (a.conditionals.map fun x => x.node.bare) := by
  refine h.forall_of_step
    (motive := fun _ _ a => a.node.conditionals.Perm (a.conditionals.map fun x => x.node.bare)) ?_ ?_ ?_
  · intro t s g i j parts n _ hparts hn ih
    have hown : (if g.isConditional then [n.bare] else []) =
        (Account.rule s g parts n).own.map fun x => x.node.bare := by
      rw [Account.own]
      split <;> rfl
    have hbelow : ((g.kept parts).map Account.node).flatMap Node.conditionals =
        (g.kept parts).flatMap fun p => p.node.conditionals := List.flatMap_map ..
    refine (made_of_reads hparts hn).conditionals.trans ?_
    refine .trans ?_ ((Account.conditionals_rule_perm s g parts n).map _).symm
    rw [kept_map, hown, hbelow, List.map_append, List.map_flatMap]
    exact (List.Perm.flatMap_left _ fun p hp => ih p (mem_of_mem_kept hp)).append_left _
  · intro t s c name
    rw [Account.conditionals, Account.written_eq, Account.brought, Account.node, Node.conditionals_eq]
    exact .refl _
  · intro t t' s inner c name i e _ ih
    rw [Account.conditionals_expansion]
    exact ih

/-- What is accounted for as written in the text is a conditional of the text, read by its rule. -/
theorem reads_of_mem_written (h : Reads parser opaqueMacros t s goals i accounts j) :
    ∀ a ∈ accounts, ∀ x ∈ a.written,
      x.source.isConditional ∧ ∃ i j, Reads parser opaqueMacros t s [.expr x.source] i [x] j := by
  have nothing {a : Account} (hown : a.own = []) (hused : a.used = []) : a.written = [] := by
    rw [Account.written_eq, hown, hused]
    rfl
  refine h.forall_of_step (motive := fun t s a => ∀ x ∈ a.written,
    x.source.isConditional ∧ ∃ i j, Reads parser opaqueMacros t s [.expr x.source] i [x] j) ?_ ?_ ?_
  · intro t s g i j parts n hm hparts hn ih x hx
    rw [Account.written_eq, List.mem_append] at hx
    obtain hx | hx := hx
    · cases g with
      | expr c =>
        rw [Account.own] at hx
        split at hx
        · rw [List.mem_singleton.1 hx]
          exact ⟨‹_›, i, j, .rule hm hparts hn .nil⟩
        · cases hx
      | block c => cases hx
      | stmt c => cases hx
    · obtain ⟨p, hp, hx⟩ := List.mem_flatMap.1 hx
      exact ih p (mem_of_mem_kept hp) x hx
  · intro t s c name x hx
    rw [nothing rfl rfl] at hx
    cases hx
  · intro t t' s inner c name i e _ _ x hx
    rw [nothing rfl rfl] at hx
    cases hx

/-! ## The conditionals of the text -/

/-- Reading goals accounts for each conditional that stands in them, but for those in the block of a
`let` with `else`. -/
theorem written_perm (h : Reads parser opaqueMacros t s goals i accounts j) (hfits : ∀ g ∈ goals, g.Fits) :
    ((accounts.flatMap Account.written).map Account.source).Perm (goals.flatMap Goal.lowered) := by
  have other {c : Concrete} {a : Account} {rest : List Goal} {more : List Account}
      (hc : c.type = "macro_invocation") (hown : a.own = []) (hused : a.used = [])
      (ih : ((more.flatMap Account.written).map Account.source).Perm (rest.flatMap Goal.lowered)) :
      (((a :: more).flatMap Account.written).map Account.source).Perm ((Goal.expr c :: rest).flatMap Goal.lowered) := by
    rw [List.flatMap_cons, List.flatMap_cons, lowered_of_isMacro hc, Account.written_eq, hown, hused]
    exact ih
  have tail {g : Goal} {rest : List Goal} (hfits : ∀ k ∈ g :: rest, k.Fits) : ∀ k ∈ rest, k.Fits :=
    fun k hk => hfits k (.tail _ hk)
  induction h with
  | nil => exact .refl _
  | @rule t s g rest i j k parts more n hm hparts hn _ ihparts ihrest =>
    -- What the rule reads holds the conditionals below the goal, and all of it is made use of.
    obtain ⟨cs, hcovers, hlowered⟩ := covers_of_assemble (hfits g (.head _)) hm hn
    have hkept : (g.kept parts).Perm parts := kept_perm (hfits g (.head _)) (length_of_reads hparts)
    have hown : (Account.rule s g parts n).own.map Account.source = g.own := by
      cases g with
      | expr c =>
        rw [Account.own, Goal.own, Concrete.own]
        show List.map _ (if c.isConditional then _ else _) = _
        split <;> rfl
      | block c => rfl
      | stmt c => rfl
    have hbelow := ((hkept.flatMap_right Account.written).map Account.source).trans
      ((ihparts hcovers.fits).trans hcovers.perm)
    rw [List.flatMap_cons, List.map_append, List.flatMap_cons, Account.written_eq, List.map_append, hown, hlowered]
    exact (hbelow.append_left _).append (ihrest (tail hfits))
  | whole hc _ _ _ ih => exact other hc rfl rfl (ih (tail hfits))
  | broken hc _ _ _ _ ih => exact other hc rfl rfl (ih (tail hfits))
  | apart hc _ _ _ _ _ _ _ _ ih => exact other hc rfl rfl (ih (tail hfits))
  | expansion hc _ _ _ _ _ _ _ _ ih => exact other hc rfl rfl (ih (tail hfits))

end Reads

/-! ## Files -/

/-- What became of the conditionals of a file with the statements `block`, which was read as the tree
`root` with the account `a`. -/
structure Census (parser : Parser) (opaqueMacros : List String) (text : String) (block : Concrete) (root : Node)
    (a : Account) : Prop where
  whole : root = a.node.withSpan (wholeSpan text)
  /-- Every conditional that is accounted for has a place of its own in the tree, and no other place holds
  a conditional. -/
  places : ∃ places, List.Forall₂ (fun x p => p.node.bare = x.node.bare) a.conditionals places ∧
    places.Perm (root.sites.filter fun p => p.node.isConditional) ∧ (places.map Site.index).Nodup
  /-- What is accounted for as written is a conditional of the text, read by its rule. -/
  lowered : ∀ x ∈ a.written, x.source.isConditional ∧
    ∃ i j, Reads parser opaqueMacros endurance (Snippet.ofFile text.toList) [.expr x.source] i [x] j
  /-- Together with those in blocks of `let` with `else` these are the conditionals of the text. -/
  accounted : (a.written.map Account.source ++ block.hidden).Perm block.conditionalsBelow
  /-- None is lost exactly if there is none in such a block. -/
  complete : (a.written.map Account.source).Perm block.conditionalsBelow ↔ block.hidden = []

theorem complete_iff {a : Account} {block : Concrete}
    (h : (a.written.map Account.source ++ block.hidden).Perm block.conditionalsBelow) :
    (a.written.map Account.source).Perm block.conditionalsBelow ↔ block.hidden = [] := by
  constructor
  · intro hall
    have hlength := (hall.trans h.symm).length_eq
    rw [List.length_append] at hlength
    exact List.eq_nil_of_length_eq_zero (by omega)
  · intro hnone
    rwa [hnone, List.append_nil] at h

/-- Conditionals in any order have places in that order. -/
theorem exists_places {root : Node} {accounts : List Account}
    (h : root.conditionals.Perm (accounts.map fun x => x.node.bare)) :
    ∃ places, List.Forall₂ (fun x p => p.node.bare = x.node.bare) accounts places ∧
      places.Perm (root.sites.filter fun p => p.node.isConditional) ∧ (places.map Site.index).Nodup := by
  rw [Node.conditionals_eq_map_sites] at h
  have hsites : List.Forall₂ (fun n p => Node.bare (Site.node p) = n)
      ((root.sites.filter fun p => p.node.isConditional).map fun p => p.node.bare)
      (root.sites.filter fun p => p.node.isConditional) :=
    List.forall₂_map_left_iff.2 (List.forall₂_same.2 fun _ _ => rfl)
  obtain ⟨places, hplaces, hperm⟩ := List.perm_comp_forall₂ h.symm hsites
  refine ⟨places, List.forall₂_map_left_iff.1 hplaces, hperm, ?_⟩
  have hindices : (root.sites.map Site.index).Nodup := by
    rw [Node.map_index_sites]
    exact List.nodup_range
  rw [(hperm.map _).nodup_iff]
  exact (List.filter_sublist.map _).nodup hindices

/-- Whenever a file is read, its account tells what became of every conditional in it: all have a place of
their own in the tree, but for those in the block of a `let` with `else`, which have none. -/
theorem census_of_read {parser : Parser} {opaqueMacros : List String} {text fileName : String}
    {start after : Progress} {parsed : ParsedSource} {block : Concrete}
    (hparse : parse parser (Snippet.ofFile text.toList) = .ok block) (hgrammar : block.Grammatical)
    (htype : block.type = "block") (hread : read parser opaqueMacros text fileName start = (.ok parsed, after)) :
    ∃ a, Reads parser opaqueMacros endurance (Snippet.ofFile text.toList) [.block block] start.nextOrigin [a]
        after.nextOrigin ∧ Census parser opaqueMacros text block parsed.root a := by
  obtain ⟨block', a, hparse', hreads, rfl⟩ := reads_of_read hread
  cases hparse.symm.trans hparse'
  have hfits : ∀ g ∈ [Goal.block block], g.Fits := by
    intro g hg
    rw [List.mem_singleton.1 hg]
    exact ⟨hgrammar, htype⟩
  have hwritten := written_perm hreads hfits
  rw [List.flatMap_singleton, List.flatMap_singleton] at hwritten
  have haccounted := (hwritten.append_right block.hidden).trans block.conditionalsBelow_perm.symm
  refine ⟨a, hreads, ?_⟩
  exact {
    whole := rfl
    places := exists_places (by
      rw [Node.conditionals_withSpan]
      exact conditionals_of_reads hreads a (.head _))
    lowered := reads_of_mem_written hreads a (.head _)
    accounted := haccounted
    complete := complete_iff haccounted }

/-! ## A conditional as a statement -/

section Statement

open Concrete

/-- The statement `if a {}`. -/
def emptyIfStmt : Concrete := construct "expression_statement" 1 8 none [emptyIf 1]

/-- A parser that knows this statement. -/
def emptyIfParser : Parser
  | "if a \x7b\x7d" => some (ofWrapping 10 emptyIfStmt)
  | _ => none

theorem reads_emptyIf : ∃ a, Reads emptyIfParser [] endurance (Snippet.ofFile "if a \x7b\x7d".toList)
    [.block (wrapping 10 emptyIfStmt)] 1 [a] 1 := by
  let s := Snippet.ofFile "if a \x7b\x7d".toList
  have hbody : Reads emptyIfParser [] endurance s [.block (emptyBody 6)] 1 [_] 1 := .step rfl rfl .nil rfl
  have hcond : Reads emptyIfParser [] endurance s [.expr (letterAt 4)] 1 [_] 1 := .step rfl rfl .nil rfl
  have hif : Reads emptyIfParser [] endurance s [.expr (emptyIf 1)] 1 [_] 1 := .step rfl rfl (hbody.cons hcond) rfl
  exact ⟨_, .step rfl rfl (.step rfl rfl hif rfl) rfl⟩

theorem census_of_read_emptyIf : ∃ parsed after,
    parse emptyIfParser (Snippet.ofFile "if a \x7b\x7d".toList) = .ok (wrapping 10 emptyIfStmt) ∧
      (wrapping 10 emptyIfStmt).Grammatical ∧ (wrapping 10 emptyIfStmt).type = "block" ∧
      read emptyIfParser [] "if a \x7b\x7d" "main.rs" {} = (.ok parsed, after) ∧
      ∃ a, Reads emptyIfParser [] endurance (Snippet.ofFile "if a \x7b\x7d".toList) [.block (wrapping 10 emptyIfStmt)]
          1 [a] after.nextOrigin ∧
        Census emptyIfParser [] "if a \x7b\x7d" (wrapping 10 emptyIfStmt) parsed.root a := by
  obtain ⟨a, ha⟩ := reads_emptyIf
  obtain ⟨after, -, hread⟩ := read_of_reads "main.rs" {} rfl ha
  have hgrammar : (wrapping 10 emptyIfStmt).Grammatical := by decide +kernel
  exact ⟨_, after, rfl, hgrammar, rfl, hread, census_of_read rfl hgrammar rfl hread⟩

end Statement

/-! ## Conditionals behind `let` and `else` -/

section Otherwise

open Concrete

/-- Conditionals that could be collapsed, in the block of a `let` with `else`. -/
def otherwiseText : String := "let Some(x) = y else \x7b if a \x7b if b \x7b\x7d \x7d return \x7d;"

/-- The tree of `Some(x)`. -/
def otherwisePattern : Concrete :=
  construct "tuple_struct_pattern" 5 12 (some "pattern")
    [construct "identifier" 5 9 (some "type") [], token "(" 9 10, construct "identifier" 10 11 none [],
      token ")" 11 12]

/-- The tree of `y`. -/
def otherwiseValue : Concrete := construct "identifier" 15 16 (some "value") []

/-- The tree of the outer `if`. -/
def otherwiseIf : Concrete :=
  construct "if_expression" 24 40 none
    [token "if" 24 26, letterAt 27,
      construct "block" 29 40 (some "consequence") [token "\x7b" 29 30, emptyIf 31, token "\x7d" 39 40]]

/-- The tree of the block behind `else`. -/
def otherwiseBlock : Concrete :=
  construct "block" 22 49 (some "alternative")
    [token "\x7b" 22 23, construct "expression_statement" 24 40 none [otherwiseIf],
      construct "return_expression" 41 47 none [token "return" 41 47], token "\x7d" 48 49]

/-- The tree of the binding. -/
def otherwiseLet : Concrete :=
  construct "let_declaration" 1 50 none
    [token "let" 1 4, otherwisePattern, token "=" 13 14, otherwiseValue, token "else" 17 21, otherwiseBlock,
      token ";" 49 50]

/-- A parser that knows the text. -/
def otherwiseParser (body : String) : Option Concrete :=
  if body = otherwiseText then some (ofWrapping 52 otherwiseLet) else none

/-- The tree that is read. -/
def otherwiseRoot : Node :=
  .block ⟨0, 49, .root⟩
    [.stmt ⟨0, 49, .root⟩ .binding
      (.binding ⟨0, 49, .root⟩ (some (.pat ⟨4, 11, .root⟩)) (some (.path ⟨14, 15, .root⟩ ["y"])))]

theorem reads_otherwise : ∃ a, Reads otherwiseParser [] endurance (Snippet.ofFile otherwiseText.toList)
    [.block (wrapping 52 otherwiseLet)] 1 [a] 1 ∧ a.node.withSpan (wholeSpan otherwiseText) = otherwiseRoot := by
  have hvalue : Reads otherwiseParser [] endurance (Snippet.ofFile otherwiseText.toList) [.expr otherwiseValue] 1 [_]
      1 := .step rfl rfl .nil rfl
  exact ⟨_, .step rfl rfl (.step rfl rfl hvalue rfl) rfl, rfl⟩

/-- The text holds two conditionals, one in the other, and the tree that is read of it holds none. -/
theorem lost_behind_else :
    parse otherwiseParser (Snippet.ofFile otherwiseText.toList) = .ok (wrapping 52 otherwiseLet) ∧
      (wrapping 52 otherwiseLet).hasError = false ∧ (wrapping 52 otherwiseLet).Grammatical ∧
      (wrapping 52 otherwiseLet).conditionalsBelow.map Concrete.start = [24, 31] ∧
      (wrapping 52 otherwiseLet).hidden.map Concrete.start = [24, 31] ∧
      (∃ after, read otherwiseParser [] otherwiseText "main.rs" {} =
        (.ok ⟨otherwiseRoot, ⟨otherwiseText, "main.rs"⟩⟩, after)) ∧
      (otherwiseRoot.sites.filter fun p => p.node.isConditional) = [] := by
  refine ⟨rfl, rfl, by decide +kernel, by decide +kernel, by decide +kernel, ?_, by decide +kernel⟩
  obtain ⟨a, ha, hroot⟩ := reads_otherwise
  obtain ⟨after, -, hread⟩ := read_of_reads "main.rs" {} rfl ha
  rw [hroot] at hread
  exact ⟨after, hread⟩

end Otherwise

end Reader

end NestLint
