import NestLint.Proofs.Reader.Nesting
import NestLint.Proofs.Text.Outdent
import NestLint.Text.Word

/-!
# What the text of a node looks like

A conditional, a block or a literal that is read stands where a node of the parser stood, and looks as the
grammar wants it: a block ends with its brace, a conditional starts with its keyword, and none starts in the
middle of a word. Only a conditional that a macro wrote may look different, if `?` or type arguments put their
span over it, and then all that is inside it is from the macro.

* `Lexed`: how the text of a node begins and ends;
* `Node.Sourced`: a node that stands where one of the parser stood;
* `placed_of_reads`, `sourced_of_read`: conditionals, blocks and literals do;
* `Sourced.exists_text`, `Sourced.closesWord_before`: what their texts look like, and what stands in front.
-/

namespace NestLint

namespace Text

/-- Two texts would become one word, or parts of it, if one were put behind the other. -/
def fuses (front back : List Char) : Bool := front.getLast?.any isWordChar && back.head?.any isWordChar

/-- A text ends with no character of a word. -/
def closesWord (text : List Char) : Bool := text.getLast?.all fun c => !isWordChar c

theorem not_fuses_of_closesWord {front : List Char} (h : closesWord front) (back : List Char) :
    fuses front back = false := by
  rw [closesWord] at h
  rw [fuses]
  cases hlast : front.getLast? with
  | none => rfl
  | some c =>
    rw [hlast, Option.all_some, Bool.not_eq_true'] at h
    rw [Option.any_some, h, Bool.false_and]

/-- What a text that starts with a character of a word may stand behind. -/
theorem closesWord_of_not_fuses {front back : List Char} {c : Char} (hc : isWordChar c)
    (h : fuses front (c :: back) = false) : closesWord front := by
  rw [fuses, List.head?_cons, Option.any_some, hc, Bool.and_true] at h
  rw [closesWord]
  cases hlast : front.getLast? with
  | none => rfl
  | some d =>
    rw [hlast, Option.any_some] at h
    rw [Option.all_some, h]
    rfl

end Text

namespace Concrete

/-- The text of a node. -/
def textIn (body : List Char) (c : Concrete) : List Char := (Text.cut? body (c.start - 1) (c.stop - 1)).getD []

/-- The text in front of a node. -/
def before (body : List Char) (c : Concrete) : List Char := (Text.cut? body 0 (c.start - 1)).getD []

theorem Spells.textIn_eq {body t : List Char} {c : Concrete} (h : c.Spells body t) : c.textIn body = t := by
  obtain ⟨front, back, rfl, hstart, hstop⟩ := h
  rw [textIn, hstart, hstop, Nat.add_sub_cancel, Nat.add_sub_cancel, Text.cut_byteLength]
  rfl

theorem before_eq {front back : List Char} {c : Concrete} (h : c.start = Text.byteLength front + 1) :
    c.before (front ++ back) = front := by
  have hcut := Text.cut_byteLength [] front back
  rw [List.nil_append, show Text.byteLength [] = 0 from rfl] at hcut
  rw [before, h, Nat.add_sub_cancel, hcut]
  rfl

/-- What ends with a closing delimiter or an operator. -/
def closedTypes : List String := ["block", "if_expression", "if_let_expression", "try_expression", "generic_function"]

/-- How the text of a node begins and ends, and where that of an operand begins. -/
structure Lexed (body : List Char) (c : Concrete) : Prop where
  solid : c.type ∈ closedTypes ++ literalTypes → Text.startsSolid (c.textIn body) ∧ Text.endsSolid (c.textIn body)
  /-- None of these starts in the middle of a word. -/
  apart : c.type ∈ closedTypes → Text.fuses (c.before body) (c.textIn body) = false
  keyword : c.isConditional → "if".toList.isPrefixOf (c.textIn body)
  closed : c.type ∈ closedTypes → Text.closesWord (c.textIn body)
  /-- `?` and type arguments stand behind their operand. -/
  operand : ∀ d ∈ c.operand?, d.start = c.start
  consequence : c.isConditional → ∀ d ∈ c.children, d.field = some "consequence" → d.type = "block"

/-- The statements of a block lie in a snippet, one after the other, and look as the grammar wants it. -/
structure Legible (body : List Char) (block : Concrete) : Prop extends Lies body block where
  lexed : ∀ part ∈ block.parts, ∀ d ∈ part.subtrees, d.Lexed body

instance (body : List Char) (c : Concrete) : Decidable (c.Lexed body) :=
  decidable_of_iff
    ((c.type ∈ closedTypes ++ literalTypes → Text.startsSolid (c.textIn body) ∧ Text.endsSolid (c.textIn body)) ∧
      (c.type ∈ closedTypes → Text.fuses (c.before body) (c.textIn body) = false) ∧
      (c.isConditional → "if".toList.isPrefixOf (c.textIn body)) ∧
      (c.type ∈ closedTypes → Text.closesWord (c.textIn body)) ∧
      (∀ d ∈ c.operand?, d.start = c.start) ∧
      (c.isConditional → ∀ d ∈ c.children, d.field = some "consequence" → d.type = "block"))
    ⟨fun ⟨h₁, h₂, h₃, h₄, h₅, h₆⟩ => ⟨h₁, h₂, h₃, h₄, h₅, h₆⟩,
      fun ⟨h₁, h₂, h₃, h₄, h₅, h₆⟩ => ⟨h₁, h₂, h₃, h₄, h₅, h₆⟩⟩

instance (body : List Char) (block : Concrete) : Decidable (block.Legible body) :=
  decidable_of_iff (block.Lies body ∧ ∀ part ∈ block.parts, ∀ d ∈ part.subtrees, d.Lexed body)
    ⟨fun ⟨hlies, hlexed⟩ => ⟨hlies, hlexed⟩, fun h => ⟨h.toLies, h.lexed⟩⟩

/-- A prefix of the text of an operand is one of the whole. -/
theorem prefix_of_start_eq {body t : List Char} {c d : Concrete} (hc : c.Inside body) (hd : d.Inside body)
    (hstart : d.start = c.start) (hstop : d.stop ≤ c.stop) (h : t <+: d.textIn body) : t <+: c.textIn body := by
  obtain ⟨u, hu⟩ := hc.spells
  obtain ⟨v, hv⟩ := hd.spells
  rw [hu.textIn_eq]
  rw [hv.textIn_eq] at h
  obtain ⟨front, back, hbody, hlo, hhi⟩ := hu
  obtain ⟨front', back', hbody', hlo', hhi'⟩ := hv
  have hfront : front' = front := by
    have hsame : front' ++ (v ++ back') = front ++ (u ++ back) := by
      rw [← List.append_assoc, ← List.append_assoc, ← hbody, ← hbody']
    obtain ⟨middle, rfl⟩ := Text.exists_of_byteLength_le hsame (by omega)
    rw [Text.byteLength_append] at hlo
    rw [Text.eq_nil_of_byteLength_eq_zero (show Text.byteLength middle = 0 by omega), List.append_nil]
  subst hfront
  obtain ⟨middle, hmiddle⟩ := Text.exists_of_byteLength_le (hbody'.symm.trans hbody) (by omega)
  rw [List.append_assoc, List.append_cancel_left_eq] at hmiddle
  rw [hmiddle]
  exact h.trans (List.prefix_append v middle)

end Concrete

/-- A snippet of a file, of which only the file itself is text that is written by hand. -/
structure Snippet.Rooted (file : List Char) (s : Snippet) : Prop where
  nested : s.Nested file
  number : 0 ≤ s.origin.id
  root : s.origin.id = 0 → s = .ofFile file

namespace Node

/-- The kinds of nodes that suggestions copy or replace, and literals. -/
def isPlaced (n : Node) : Bool := n.isConditional || n.kind == .block || n.kind == .lit

/-- The body of a conditional. -/
def body? : Node → Option Node
  | .ifThen _ _ body _ | .ifLet _ _ _ body _ => body
  | _ => none

theorem body?_withSpan (span : Span) (n : Node) : (n.withSpan span).body? = n.body? := by cases n <;> rfl

theorem isConditional_of_mem_body? {n b : Node} (h : b ∈ n.body?) : n.isConditional := by
  cases n <;> first | rfl | cases h

theorem isPlaced_of_isConditional {n : Node} (h : n.isConditional) : n.isPlaced := by
  rw [isPlaced, h]
  rfl

/-- A conditional starts with its keyword, or all that is inside it is of another origin. -/
def Leads (s : Snippet) (c : Concrete) (n : Node) : Prop :=
  "if".toList <+: c.textIn s.body ∨ ∀ l ∈ n.children.flatMap nodes, l.span.origin.id ≠ s.origin.id

/-- A node stands where `c` stood. -/
structure StandsAt (s : Snippet) (c : Concrete) (n : Node) : Prop where
  span : n.span = s.span c
  shows : (Reader.Goal.expr c).respans ∨ c.Shows n.kind
  leads : n.isConditional → n.Leads s c
  body : ∀ b ∈ n.body?, b.kind = .block

/-- How the text of a conditional, a block or a literal begins and ends. -/
structure Looks (n : Node) (t : List Char) : Prop where
  starts : Text.startsSolid t
  ends : Text.endsSolid t
  closed : n.isConditional ∨ n.kind = .block → Text.closesWord t
  /-- A conditional starts with its keyword, or all that is inside it is of another origin. -/
  leads : n.isConditional → "if".toList <+: t ∨ ∀ l ∈ n.children.flatMap nodes, l.span.origin.id ≠ n.span.origin.id

/-- A node stands where one of the parser stood, in a snippet of the file. -/
def Sourced (file : List Char) (n : Node) : Prop :=
  ∃ s c, Snippet.Rooted file s ∧ (∀ d ∈ c.subtrees, d.Laid s.body ∧ d.Lexed s.body) ∧ n.StandsAt s c

end Node

namespace Reader

/-- All nodes of the tree of a goal are laid over the body and look as the grammar wants it. What is read as a
block is one. -/
structure Goal.Legible (body : List Char) (g : Goal) : Prop where
  nodes : ∀ d ∈ g.source.subtrees, d.Laid body ∧ d.Lexed body
  block : ∀ c, g = .block c → c.type = "block"

section Steps

variable {parser : Parser} {opaqueMacros : List String} {t : Nat} {s : Snippet} {goals : List Goal}
  {accounts : List Account} {i j : Int}

theorem Goal.Legible.arranged {g : Goal} (h : g.Legible s.body) : ∀ d ∈ g.source.subtrees, d.Arranged :=
  fun d hd => (h.nodes d hd).1.arranged

theorem Goal.From.legible {g k : Goal} (h : k.From g.source) (hg : g.Legible s.body) : k.Legible s.body := by
  refine ⟨fun d hd => hg.nodes d (g.source.mem_subtrees_trans h.1 hd), fun b hb => ?_⟩
  obtain hblock | ⟨hcond, hmem, hfield⟩ := h.2 b hb
  · exact hblock
  · exact (hg.nodes _ g.source.mem_subtrees_self).2.consequence hcond b hmem hfield

/-- What hangs below the node of a rule is below a part, or it is not placed. -/
theorem Hung.of_mem_nodes {c : Concrete} {ms : List Node} {n k : Node} (h : Hung s c ms n) (hk : k ∈ n.nodes) :
    (∃ m ∈ ms, k ∈ m.nodes) ∨ k.isPlaced = false := by
  induction h with
  | part hm => exact .inl ⟨_, hm, hk⟩
  | pattern =>
    obtain rfl | hk := Node.mem_nodes_iff.1 hk
    · exact .inr rfl
    · cases hk
  | @frame n hkind _ _ ih =>
    obtain rfl | ⟨l, hl, hk⟩ := Node.eq_or_mem_child_nodes hk
    · right
      obtain hkind | hkind := hkind <;> rw [Node.isPlaced, Node.isConditional, hkind] <;> rfl
    · exact ih l hl hk

theorem Frames.leads {c : Concrete} {ms : List Node} {n : Node} (h : Frames s c ms n) (hc : c.Lexed s.body)
    (hcond : n.isConditional) : n.Leads s c := by
  left
  have hshows := h.shows
  rw [Node.isConditional, Bool.or_eq_true, beq_iff_eq, beq_iff_eq] at hcond
  refine List.isPrefixOf_iff_prefix.1 (hc.keyword ?_)
  obtain hkind | hkind := hcond
  · rwa [hkind] at hshows
  · rwa [hkind] at hshows

/-- The body of an `if` is what was read as a block for it. -/
theorem body_of_ifPlan {c : Concrete} {ms : List Node} {n : Node} (h : (ifPlan s c).assemble ms = some n) :
    ∀ k ∈ n.body?, ∃ b, (Goal.block b, k) ∈ List.zip (ifPlan s c).parts ms := by
  simp only [ifPlan] at h ⊢
  repeat' split at h
  any_goals cases h
  · obtain ⟨b, v, rfl, rfl⟩ := of_assemble_two h
    simp [*, ifLetWhole, Node.body?, Plan.parts]
  · obtain ⟨b, e, v, rfl, rfl⟩ := of_assemble_three h
    simp [*, ifLetWhole, Node.body?, Plan.parts, exists_or]
  · obtain ⟨b, t, rfl, rfl⟩ := of_assemble_two h
    simp [*, ifWhole, Node.body?, Plan.parts]
  · obtain ⟨b, e, t, rfl, rfl⟩ := of_assemble_three h
    simp [*, ifWhole, Node.body?, Plan.parts, exists_or]

/-- The body of an `if let` is what was read as a block for it. -/
theorem body_of_ifLetPlan {c : Concrete} {ms : List Node} {n : Node} (h : (ifLetPlan s c).assemble ms = some n) :
    ∀ k ∈ n.body?, ∃ b, (Goal.block b, k) ∈ List.zip (ifLetPlan s c).parts ms := by
  simp only [ifLetPlan] at h ⊢
  repeat' split at h
  any_goals cases h
  · obtain ⟨v, b, rfl, rfl⟩ := of_assemble_two h
    simp [*, ifLetWhole, Node.body?, Plan.parts]
  · obtain ⟨v, b, e, rfl, rfl⟩ := of_assemble_three h
    simp [*, ifLetWhole, Node.body?, Plan.parts, exists_or]

/-- The body of a conditional is what was read as a block for it, unless the conditional was taken over. -/
theorem body_of_assemble {g : Goal} {ms : List Node} {n : Node} (hn : (plan s g).assemble ms = some n)
    (hlength : ms.length = (plan s g).parts.length) (hrespans : g.respans = false) :
    ∀ k ∈ n.body?, ∃ b, (Goal.block b, k) ∈ List.zip (plan s g).parts ms := by
  intro k hk
  have hcond := Node.isConditional_of_mem_body? hk
  cases made_of_assemble hn hlength with
  | around _ h =>
    rw [h.conditional] at hcond
    cases g with
    | expr c =>
      rw [Goal.isConditional, Concrete.isConditional, Bool.or_eq_true, beq_iff_eq, beq_iff_eq] at hcond
      obtain hc | hc := hcond
      · have hplan : plan s (.expr c) = ifPlan s c := by
          rw [plan, exprPlan, hc]
          rfl
        rw [hplan] at hn ⊢
        exact body_of_ifPlan hn k hk
      · have hplan : plan s (.expr c) = ifLetPlan s c := by
          rw [plan, exprPlan, hc]
          rfl
        rw [hplan] at hn ⊢
        exact body_of_ifLetPlan hn k hk
    | block c => cases hcond
    | stmt c => cases hcond
  | respanned h =>
    rw [h] at hrespans
    cases hrespans
  | block _ => cases hcond

theorem respans_of_operand? {c d : Concrete} (h : c.operand? = some d) : (Goal.expr c).respans := by
  rw [Goal.respans, Bool.or_eq_true, beq_iff_eq, beq_iff_eq]
  rw [Concrete.operand?] at h
  split at h
  · exact .inl ‹_›
  · split at h
    · exact .inr ‹_›
    · cases h

/-- With the span of a construct behind it, an operand leads the construct. -/
theorem leads_withSpan {c d : Concrete} {m : Node} {span : Span} (hc : ∀ e ∈ c.subtrees, e.Laid s.body ∧ e.Lexed s.body)
    (hd : d ∈ c.subtrees) (hoperand : c.operand? = some d) (h : m.Leads s d) : (m.withSpan span).Leads s c := by
  have hself := hc c c.mem_subtrees_self
  obtain ⟨-, hstop⟩ := c.range_of_mem_subtrees (fun e he => (hc e he).1.arranged) hd
  refine h.imp (fun h => ?_) fun h => ?_
  · exact Concrete.prefix_of_start_eq hself.1.inside (hc d hd).1.inside (hself.2.operand d hoperand) hstop h
  · rwa [Node.children_withSpan]

theorem kind_closeBy (semicolon : Option Nat) (n : Node) : (closeBy s semicolon n).kind = n.kind := by
  unfold closeBy
  split <;> rfl

/-- Closing statements moves nothing that is placed. -/
theorem closeBy_of_isPlaced {semicolon : Option Nat} {n : Node} (h : (closeBy s semicolon n).isPlaced) :
    closeBy s semicolon n = n := by
  rw [Node.isPlaced, Node.isConditional, kind_closeBy] at h
  unfold closeBy
  split
  · cases h
  · rfl

/-- What is placed below a block is below one of its statements. -/
theorem of_mem_closed {slots : List (Concrete × Option Nat)} {ms : List Node} {k n : Node}
    (hn : n ∈ List.zipWith (fun slot n => closeBy s slot.2 n) slots ms) (hk : k ∈ n.nodes) (hplaced : k.isPlaced) :
    ∃ m ∈ ms, k ∈ m.nodes := by
  obtain ⟨i, hi, rfl⟩ := List.mem_iff_getElem.1 hn
  rw [List.getElem_zipWith] at hk
  rw [List.length_zipWith, Nat.lt_min] at hi
  refine ⟨ms[i], List.getElem_mem hi.2, Node.mem_nodes_iff.2 ?_⟩
  rw [Node.mem_nodes_iff, children_closeBy] at hk
  refine hk.imp_left ?_
  rintro rfl
  exact closeBy_of_isPlaced hplaced

/-- What is known of an account of a goal: all that is placed stands somewhere, and a conditional leads. -/
structure Placed (file : List Char) (s : Snippet) (g : Goal) (a : Account) : Prop where
  sourced : ∀ k ∈ a.node.nodes, k.isPlaced → k.Sourced file
  leads : ∀ c, g = .expr c → a.node.isConditional → a.node.Leads s c
  block : ∀ c, g = .block c → a.node.kind = .block

section Rule

variable {file : List Char} {g : Goal} {parts : List Account} {n : Node}

/-- The body of a conditional that a rule sets up is a block. -/
theorem kind_of_body (hrespans : g.respans = false) (hn : (plan s g).assemble (parts.map Account.node) = some n)
    (hparts : List.Forall₂ (Placed file s) (plan s g).parts parts) : ∀ b ∈ n.body?, b.kind = .block := by
  have hkinds : List.Forall₂ (fun k m => ∀ c, k = Goal.block c → m.kind = .block) (plan s g).parts
      (parts.map Account.node) := by
    rw [List.forall₂_map_right_iff]
    exact hparts.imp fun k p h => h.block
  intro b hb
  obtain ⟨c, hc⟩ := body_of_assemble hn (by rw [List.length_map, hparts.length_eq]) hrespans b hb
  exact (List.forall₂_iff_zip.1 hkinds).2 hc c rfl

theorem Frames.standsAt {c : Concrete} {ms : List Node} (h : Frames s c ms n) (hc : c.Lexed s.body)
    (hbody : ∀ b ∈ n.body?, b.kind = .block) : n.StandsAt s c :=
  ⟨h.span, .inr h.shows, h.leads hc, hbody⟩

theorem placed_of_rule (hs : s.Rooted file) (hg : g.Legible s.body)
    (hn : (plan s g).assemble (parts.map Account.node) = some n)
    (hparts : List.Forall₂ (fun k p => k.Legible s.body → Placed file s k p) (plan s g).parts parts) :
    Placed file s g (.rule s g parts n) := by
  obtain ⟨hframed, hfrom⟩ := framed_of_assemble hg.arranged hn
  have hplaced : List.Forall₂ (Placed file s) (plan s g).parts parts :=
    ((List.forall₂_and_left _ _).2 ⟨hfrom, hparts⟩).imp fun k p h => h.2 (h.1.legible hg)
  have hms : ∀ m ∈ parts.map Account.node, ∀ k ∈ m.nodes, k.isPlaced → k.Sourced file := by
    intro m hm
    obtain ⟨p, hp, rfl⟩ := List.mem_map.1 hm
    obtain ⟨k, -, hk⟩ := (exists_of_forall₂ hplaced).2 p hp
    exact hk.sourced
  have hblock : ∀ c, g = .block c → n.kind = .block := by
    rintro c rfl
    rw [of_assemble_many hn]
    rfl
  have hbody (hrespans : g.respans = false) := kind_of_body hrespans hn hplaced
  have hself := hg.nodes _ g.source.mem_subtrees_self
  generalize hnodes : parts.map Account.node = ms at hframed hms
  cases hframed with
  | around hrespans h =>
    have hstands := h.standsAt hself.2 (hbody hrespans)
    refine ⟨fun k hk hkplaced => ?_, ?_, hblock⟩
    · obtain rfl | ⟨l, hl, hk⟩ := Node.eq_or_mem_child_nodes hk
      · exact ⟨s, g.source, hs, hg.nodes, hstands⟩
      · obtain ⟨m, hm, hk⟩ | hk := (h.hung l hl).of_mem_nodes hk
        · exact hms m hm k hk hkplaced
        · rw [hkplaced] at hk
          cases hk
    · rintro c rfl
      exact hstands.leads
  | @respanned c d m hoperand hplan =>
    obtain ⟨p, rfl, rfl⟩ := List.map_eq_singleton_iff.1 hnodes
    rw [hplan] at hplaced hfrom
    cases hplaced with
    | cons hp _ =>
      have hd := (hfrom _ (.head _)).1
      have hleads (hcond : (p.node.withSpan (s.span c)).isConditional) : (p.node.withSpan (s.span c)).Leads s c := by
        rw [Node.isConditional_withSpan] at hcond
        exact leads_withSpan hg.nodes hd hoperand (hp.leads d rfl hcond)
      have hbody (b : Node) (hb : b ∈ (p.node.withSpan (s.span c)).body?) : b.kind = .block := by
        rw [Node.body?_withSpan] at hb
        have hplaced := Node.isPlaced_of_isConditional (Node.isConditional_of_mem_body? hb)
        obtain ⟨_, _, -, -, hstands⟩ := hp.sourced _ (Node.mem_nodes_self _) hplaced
        exact hstands.body b hb
      refine ⟨fun k hk hkplaced => ?_, ?_, hblock⟩
      · obtain rfl | hk := Node.mem_nodes_iff.1 hk
        · exact ⟨s, c, hs, hg.nodes, p.node.span_withSpan _, .inl (respans_of_operand? hoperand), hleads, hbody⟩
        · rw [Account.node, Node.children_withSpan] at hk
          exact hp.sourced k (Node.mem_nodes_iff.2 (.inr hk)) hkplaced
      · rintro c' hc'
        cases hc'
        exact hleads
  | @whole c m _ =>
    refine ⟨fun k hk hkplaced => ?_, fun _ _ h => (by cases h), hblock⟩
    obtain rfl | ⟨l, hl, hk⟩ := Node.eq_or_mem_child_nodes hk
    · cases hkplaced
    · exact hms l hl k hk hkplaced
  | @block c ms =>
    refine ⟨fun k hk hkplaced => ?_, fun _ h => (by cases h), hblock⟩
    obtain rfl | ⟨l, hl, hk⟩ := Node.eq_or_mem_child_nodes hk
    · exact ⟨s, c, hs, hg.nodes, rfl, .inr (hg.block c rfl), fun h => (by cases h),
        fun _ h => (by cases h)⟩
    · obtain ⟨m, hm, hk⟩ := of_mem_closed hl hk hkplaced
      exact hms m hm k hk hkplaced

end Rule

theorem Opens.rooted {file : List Char} {inner : Snippet} {c : Concrete} {name : String} (hs : s.Rooted file)
    (hi : s.origin.id < i) (hc : ∀ d ∈ c.subtrees, d.Laid s.body) (ho : Opens opaqueMacros s c name i inner) :
    inner.Rooted file ∧ inner.origin.id = i := by
  obtain ⟨tree, htree, body, htype, hbody, rfl⟩ := ho.exists_tree
  have hnumber := hs.number
  have hdelimited := (hc tree (Concrete.mem_subtrees_child htree tree.mem_subtrees_self)).delimited htype
  refine ⟨⟨.inner _ hs.nested hdelimited hbody, ?_, fun h => ?_⟩, rfl⟩
  · show 0 ≤ i
    omega
  · have h : i = 0 := h
    omega

/-- In a reading with numbers above that of its snippet, all that is placed stands somewhere. -/
theorem placed_of_reads {file : List Char}
    (hparser : ∀ s block, parse parser s = .ok block → block.Legible s.body)
    (h : Reads parser opaqueMacros t s goals i accounts j) (hs : s.Rooted file) (hi : s.origin.id < i) :
    List.Forall₂ (fun g a => g.Legible s.body → Placed file s g a) goals accounts := by
  have hall := h.induction
    (motive := fun s g i a => s.Rooted file → s.origin.id < i → g.Legible s.body → Placed file s g a) ?_ ?_ ?_
  · refine hall.imp fun g a ⟨i', hi', h⟩ => h hs (by omega)
  · intro t s g i j parts n _ _ hn ih hs hi hg
    exact placed_of_rule hs hg hn (ih.imp fun k p ⟨i', hi', h⟩ => h hs (by omega))
  · intro s c name i _ _ _
    refine ⟨fun k hk hplaced => ?_, fun _ _ h => (by cases h), nofun⟩
    obtain rfl | hk := Node.mem_nodes_iff.1 hk
    · cases hplaced
    · cases hk
  · intro t s inner c block d name i j e ho hparse hsole he ih hs hi hg
    obtain ⟨hinner, horigin⟩ := ho.rooted hs hi fun d hd => (hg.nodes d hd).1
    obtain ⟨i', hi', ih⟩ := ih
    obtain ⟨part, hpart, hd⟩ := hsole.exists_part
    have hlegible := hparser inner block hparse
    have hgoal : (Goal.expr d).Legible inner.body :=
      ⟨fun f hf => ⟨hlegible.laid part hpart f (hd f hf), hlegible.lexed part hpart f (hd f hf)⟩, nofun⟩
    refine ⟨(ih hinner (by omega) hgoal).sourced, fun _ _ _ => .inr fun l hl => ?_, nofun⟩
    -- All nodes of the expansion are from its body or from one inside it, with a number that is new.
    have hmem : l ∈ e.node.nodes := Node.mem_nodes_iff.2 (.inr hl)
    obtain ho | ho := origin_of_reads he e (.head _) l hmem
    · rw [ho]
      omega
    · have := ((numbers_of_reads he).2 e (.head _) _ ho).1
      omega

end Steps

/-! ## Files -/

variable {parser : Parser} {opaqueMacros : List String} {text fileName : String} {start after : Progress}
  {parsed : ParsedSource}

theorem source_of_read (h : read parser opaqueMacros text fileName start = (.ok parsed, after)) :
    parsed.source = ⟨text, fileName⟩ := by
  obtain ⟨_, _, -, -, rfl⟩ := reads_of_read h
  rfl

/-- The root of a file is a block. -/
theorem kind_of_read (h : read parser opaqueMacros text fileName start = (.ok parsed, after)) :
    parsed.root.kind = .block := by
  obtain ⟨block, a, -, hreads, rfl⟩ := reads_of_read h
  cases hreads with
  | rule _ _ hmade hnil =>
    cases hnil
    obtain rfl := of_assemble_many hmade
    rfl

/-- All that is placed below the root of a file stands where a node of the parser stood. -/
theorem sourced_of_read (hparser : ∀ s block, parse parser s = .ok block → block.Legible s.body)
    (hstart : 1 ≤ start.nextOrigin) (h : read parser opaqueMacros text fileName start = (.ok parsed, after))
    {n k : Node} (hn : n ∈ parsed.root.children) (hk : k ∈ n.nodes) (hplaced : k.isPlaced) : k.Sourced text.toList := by
  obtain ⟨block, a, hparse, hreads, rfl⟩ := reads_of_read h
  have hlegible := hparser _ block hparse
  rw [Node.children_withSpan] at hn
  cases hreads with
  | @rule _ _ _ _ _ j _ parts _ n' _ hparts hmade hnil =>
    cases hnil
    obtain rfl := of_assemble_many hmade
    obtain ⟨m, hm, hk⟩ := of_mem_closed hn hk hplaced
    obtain ⟨p, hp, rfl⟩ := List.mem_map.1 hm
    have hrooted : (Snippet.ofFile text.toList).Rooted text.toList := ⟨.whole, Int.le_refl _, fun _ => rfl⟩
    have hnumber : (Snippet.ofFile text.toList).origin.id < start.nextOrigin := by
      show 0 < start.nextOrigin
      omega
    obtain ⟨g, hg, hgp⟩ := (exists_of_forall₂ (placed_of_reads hparser hparts hrooted hnumber)).2 p hp
    obtain ⟨slot, hslot, rfl⟩ := List.mem_map.1 hg
    have hpart := mem_of_mem_stmtSlots hslot
    exact (hgp ⟨fun d hd => ⟨hlegible.laid _ hpart d hd, hlegible.lexed _ hpart d hd⟩, nofun⟩).sourced k hk hplaced

end Reader

/-! ## Texts -/

namespace Node

section StandsAt

variable {s : Snippet} {c : Concrete} {n : Node}

/-- What closes a conditional or a block closes a word. -/
theorem StandsAt.mem_closedTypes (h : n.StandsAt s c) (hn : n.isConditional ∨ n.kind = .block) :
    c.type ∈ Concrete.closedTypes := by
  obtain hrespans | hshows := h.shows
  · rw [Reader.Goal.respans, Bool.or_eq_true, beq_iff_eq, beq_iff_eq] at hrespans
    obtain hc | hc := hrespans <;> rw [hc] <;> decide
  · have hcond (hc : c.isConditional) : c.type ∈ Concrete.closedTypes := by
      rw [Concrete.isConditional, Bool.or_eq_true, beq_iff_eq, beq_iff_eq] at hc
      obtain hc | hc := hc <;> rw [hc] <;> decide
    rw [isConditional, Bool.or_eq_true, beq_iff_eq, beq_iff_eq] at hn
    obtain (hkind | hkind) | hkind := hn
    · rw [hkind] at hshows
      exact hcond hshows
    · rw [hkind] at hshows
      exact hcond hshows
    · rw [hkind] at hshows
      rw [show c.type = "block" from hshows]
      decide

/-- What is placed stands where a literal stood, or something that closes a word. -/
theorem StandsAt.mem_types (h : n.StandsAt s c) (hn : n.isPlaced) :
    c.type ∈ Concrete.closedTypes ++ Concrete.literalTypes := by
  rw [List.mem_append]
  rw [isPlaced, Bool.or_eq_true, Bool.or_eq_true, beq_iff_eq, beq_iff_eq] at hn
  obtain hn | hkind := hn
  · exact .inl (h.mem_closedTypes hn)
  · have hshows := h.shows
    rw [hkind] at hshows
    obtain hrespans | hlit := hshows
    · rw [Reader.Goal.respans, Bool.or_eq_true, beq_iff_eq, beq_iff_eq] at hrespans
      left
      obtain hc | hc := hrespans <;> rw [hc] <;> decide
    · exact .inr hlit

end StandsAt

namespace Sourced

variable {text : String} {n : Node}

/-- What is placed has a text, which looks as it should. -/
theorem exists_text (h : n.Sourced text.toList) (hn : n.isPlaced) (fileName : String) :
    ∃ t, SourceText.snippet? ⟨text, fileName⟩ n.span = some (String.ofList t) ∧ n.Looks t := by
  obtain ⟨s, c, hs, hc, hstands⟩ := h
  obtain ⟨hlaid, hlexed⟩ := hc c c.mem_subtrees_self
  obtain ⟨t, ht⟩ := hlaid.inside.spells
  obtain ⟨front, hplaced⟩ := hs.nested.placed
  have hsolid := hlexed.solid (hstands.mem_types hn)
  rw [ht.textIn_eq] at hsolid
  refine ⟨t, ?_, hsolid.1, hsolid.2, fun hn => ?_, fun hn => ?_⟩
  · rw [hstands.span]
    exact hplaced.snippet?_span_of_spells ht fileName
  · have hclosed := hlexed.closed (hstands.mem_closedTypes hn)
    rwa [ht.textIn_eq] at hclosed
  · have hleads := hstands.leads hn
    rwa [Node.Leads, ht.textIn_eq, show s.origin = (s.span c).origin from rfl, ← hstands.span] at hleads

/-- In front of a conditional that is written by hand, with something inside that is, stands no character of a
word. -/
theorem closesWord_before (h : n.Sourced text.toList) (hn : n.isConditional) (hroot : n.span.origin.id = 0)
    {l : Node} (hl : l ∈ n.children.flatMap nodes) (hlroot : l.span.origin.id = 0) :
    Text.closesWord (Text.upTo text.toList n.span.lo) := by
  obtain ⟨s, c, hs, hc, hstands⟩ := h
  obtain ⟨hlaid, hlexed⟩ := hc c c.mem_subtrees_self
  have hstart := hstands.span ▸ hroot
  have hfile := hs.root hstart
  subst hfile
  obtain ⟨t, ht⟩ := hlaid.inside.spells
  have happart := hlexed.apart (hstands.mem_closedTypes (.inl hn))
  -- The text starts with the keyword, because something inside has the origin of the snippet.
  have hleads : "if".toList <+: t := by
    obtain hleads | hleads := hstands.leads hn
    · rwa [ht.textIn_eq] at hleads
    · exact absurd hlroot (hleads l hl)
  obtain ⟨rest, rfl⟩ := hleads
  rw [ht.textIn_eq] at happart
  obtain ⟨front, back, hbody, hlo, -⟩ := ht
  have hbody : text.toList = front ++ ("if".toList ++ rest ++ back) := by
    rw [← List.append_assoc]
    exact hbody
  have hposition : n.span.lo = front.length := by
    rw [hstands.span]
    show (Snippet.ofFile text.toList).position c.start = _
    rw [hlo]
    exact (Snippet.Placed.mk rfl ⟨[], by rw [List.append_nil]; rfl⟩ rfl :
      Snippet.Placed text.toList (.ofFile text.toList) []).position_eq hbody
  have hupTo : Text.upTo text.toList n.span.lo = front := by
    have hle : (front.length : Int) ≤ text.toList.length := by
      rw [hbody, List.length_append]
      omega
    rw [hposition, Text.upTo, Text.bound_of_nonneg (by omega) hle, hbody]
    exact List.take_left
  have hbefore : c.before text.toList = front := by
    rw [hbody]
    exact Concrete.before_eq hlo
  rw [hupTo]
  rw [show (Snippet.ofFile text.toList).body = text.toList from rfl, hbefore] at happart
  exact Text.closesWord_of_not_fuses (c := 'i') (by decide) happart

end Sourced

end Node

end NestLint
