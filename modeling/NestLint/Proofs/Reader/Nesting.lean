import NestLint.Proofs.Reader.Frames
import NestLint.Proofs.Reader.Hygiene

/-!
# Spans nest

The span of every node that is read lies inside the span of its parent, also where a macro body was opened,
where `?` put its own span over a node, and where a semicolon behind a statement was counted to it. It rests
on ranges that nest in the trees of the parser.

* `Node.Fits`: a tree whose spans nest within bounds;
* `Concrete.Stays`, `Meets`: blocks that stay within their snippets, and the snippets that a reading meets;
* `Reads.induction`: what holds of every account of a reading;
* `fitsAt_of_reads`, `fits_of_read`: what is read for a node lies in its range, and files lie in their text.
-/

namespace NestLint

/-! ## Trees whose spans nest -/

/-- The spans of a tree nest within `lo` and `hi`, and none has its bounds the wrong way round. -/
inductive Node.Fits : Int → Int → Node → Prop where
  | mk {lo hi : Int} {n : Node} : lo ≤ n.span.lo → n.span.lo ≤ n.span.hi → n.span.hi ≤ hi →
    (∀ k ∈ n.children, Fits n.span.lo n.span.hi k) → Fits lo hi n

namespace Node.Fits

variable {lo hi lo' hi' : Int} {n k : Node}

theorem mono (h : n.Fits lo hi) (hlo : lo' ≤ lo) (hhi : hi ≤ hi') : n.Fits lo' hi' := by
  cases h with
  | mk hstart hordered hend hchildren => exact .mk (by omega) hordered (by omega) hchildren

/-- A node fits its own span. -/
theorem span (h : n.Fits lo hi) : n.Fits n.span.lo n.span.hi := by
  cases h with
  | mk _ hordered _ hchildren => exact .mk (Int.le_refl _) hordered (Int.le_refl _) hchildren

theorem bounds (h : n.Fits lo hi) : lo ≤ n.span.lo ∧ n.span.lo ≤ n.span.hi ∧ n.span.hi ≤ hi := by
  cases h with
  | mk hstart hordered hend _ => exact ⟨hstart, hordered, hend⟩

theorem of_mem_children (h : n.Fits lo hi) (hk : k ∈ n.children) : k.Fits n.span.lo n.span.hi := by
  cases h with
  | mk _ _ _ hchildren => exact hchildren k hk

theorem of_mem_nodes (h : n.Fits lo hi) (hk : k ∈ n.nodes) : k.Fits lo hi := by
  induction h with
  | @mk lo hi n hstart hordered hend hchildren ih =>
    obtain rfl | ⟨m, hm, hk⟩ := Node.eq_or_mem_child_nodes hk
    · exact .mk hstart hordered hend hchildren
    · exact (ih m hm hk).mono hstart hend

theorem withSpan (h : n.Fits lo hi) {span : Span} (hlo : lo' ≤ span.lo) (hstart : span.lo ≤ lo) (hend : hi ≤ span.hi)
    (hhi : span.hi ≤ hi') : (n.withSpan span).Fits lo' hi' := by
  have hbounds := h.bounds
  refine .mk ?_ ?_ ?_ fun k hk => ?_
  · rw [Node.span_withSpan]
    exact hlo
  · rw [Node.span_withSpan]
    omega
  · rw [Node.span_withSpan]
    exact hhi
  · rw [Node.children_withSpan] at hk
    rw [Node.span_withSpan]
    exact (h.of_mem_children hk).mono (by omega) (by omega)

end Node.Fits

/-! ## Positions -/

namespace Text

theorem charIndex_mono : ∀ (cs : List Char) {a b : Nat}, a ≤ b → charIndex cs a ≤ charIndex cs b
  | [], _, _, _ => Nat.le_refl _
  | c :: rest, a, b, h => by
    rw [charIndex, charIndex]
    split
    · exact Nat.zero_le _
    · rw [if_neg (by omega)]
      exact Nat.succ_le_succ (charIndex_mono rest (by omega))

theorem charIndex_le_length : ∀ (cs : List Char) (offset : Nat), charIndex cs offset ≤ cs.length
  | [], _ => Nat.le_refl _
  | c :: rest, offset => by
    rw [charIndex]
    split
    · exact Nat.zero_le _
    · exact Nat.succ_le_succ (charIndex_le_length rest _)

theorem byteLength_takeBytes? {cs t : List Char} {offset : Nat} (h : takeBytes? cs offset = some t) :
    byteLength t ≤ offset := by
  fun_induction takeBytes? cs offset generalizing t with
  | case1 =>
    cases h
    exact Nat.zero_le _
  | case2 =>
    cases h
    exact Nat.zero_le _
  | case3 => cases h
  | case4 offset c rest _ hsize ih =>
    obtain ⟨t, ht, rfl⟩ := Option.map_eq_some_iff.1 h
    have := ih ht
    rw [byteLength_cons]
    omega

theorem byteLength_dropBytes? {cs t : List Char} {offset : Nat} (h : dropBytes? cs offset = some t) :
    byteLength t ≤ byteLength cs - offset := by
  fun_induction dropBytes? cs offset generalizing t with
  | case1 =>
    cases h
    exact Nat.le_refl _
  | case2 =>
    cases h
    exact Nat.zero_le _
  | case3 => cases h
  | case4 offset c rest _ hsize ih =>
    have := ih h
    rw [byteLength_cons]
    omega

/-- What is cut out is not longer than the range. -/
theorem byteLength_cut? {cs t : List Char} {lo hi : Nat} (h : cut? cs lo hi = some t) : byteLength t ≤ hi - lo := by
  rw [cut?] at h
  split at h
  · cases h
    exact Nat.zero_le _
  · obtain ⟨front, hfront, ht⟩ := Option.bind_eq_some_iff.1 h
    exact Nat.le_trans (byteLength_dropBytes? ht) (Nat.sub_le_sub_right (byteLength_takeBytes? hfront) lo)

end Text

namespace Snippet

theorem position_mono (s : Snippet) {a b : Nat} (h : a ≤ b) : s.position a ≤ s.position b := by
  have hoffset : ((a : Int) + s.shift).toNat ≤ ((b : Int) + s.shift).toNat := by omega
  simp only [position]
  split
  · exact Int.ofNat_le.2 hoffset
  · exact Int.ofNat_le.2 (Text.charIndex_mono _ hoffset)

theorem position_nonneg (s : Snippet) (byte : Nat) : 0 ≤ s.position byte := by
  simp only [position]
  split <;> exact Int.natCast_nonneg _

/-- A byte of a macro body is one of the snippet around it, behind those in front of the delimiter. -/
theorem position_inner (s : Snippet) (c : Concrete) (body : List Char) (origin : Origin) (byte : Nat) :
    (s.inner c body origin).position byte = s.position (byte + c.start) := by
  have hoffset : (byte : Int) + (s.inner c body origin).shift = ((byte + c.start : Nat) : Int) + s.shift := by
    show (byte : Int) + (c.start + 1 + s.shift - 1) = _
    omega
  rw [position, position, hoffset]
  rfl

/-- What does not end behind a file ends before its last character does. -/
theorem position_ofFile_le (file : List Char) {byte : Nat} (h : byte ≤ Text.byteLength file + 1) :
    (Snippet.ofFile file).position byte ≤ file.length := by
  have hoffset : ((byte : Int) + (Snippet.ofFile file).shift).toNat ≤ Text.byteLength file := by
    show ((byte : Int) + -1).toNat ≤ _
    omega
  rw [position]
  split
  · rename_i hsingle
    exact Int.ofNat_le.2 (Text.byteLength_eq_length hsingle ▸ hoffset)
  · exact Int.ofNat_le.2 (Text.charIndex_le_length file _)

/-- Between the delimiters of a node there is room for what stands there. -/
theorem byteLength_inside? {s : Snippet} {c : Concrete} {body : List Char} (h : s.inside? c = some body)
    (hc : c.start < c.stop) : c.start + Text.byteLength body < c.stop := by
  rw [inside?, if_neg (by omega)] at h
  have := Text.byteLength_cut? h
  omega

end Snippet

namespace Concrete

/-- The statements of a block lie in a snippet, one after the other. -/
structure Lies (body : List Char) (block : Concrete) : Prop where
  ordered : block.parts.Pairwise fun d e => d.stop ≤ e.start
  laid : ∀ part ∈ block.parts, ∀ d ∈ part.subtrees, d.Laid body

instance (body : List Char) (block : Concrete) : Decidable (block.Lies body) :=
  decidable_of_iff
    (block.parts.Pairwise (fun d e => d.stop ≤ e.start) ∧ ∀ part ∈ block.parts, ∀ d ∈ part.subtrees, d.Laid body)
    ⟨fun ⟨hordered, hlaid⟩ => ⟨hordered, hlaid⟩, fun h => ⟨h.ordered, h.laid⟩⟩

/-- The statements of a block stand one after the other and do not end behind the snippet, and their trees are
arranged. -/
structure Stays (body : List Char) (block : Concrete) : Prop where
  ordered : block.parts.Pairwise fun d e => d.stop ≤ e.start
  arranged : ∀ part ∈ block.parts, ∀ d ∈ part.subtrees, d.Arranged
  ends : ∀ part ∈ block.parts, part.stop ≤ Text.byteLength body + 1

instance (body : List Char) (block : Concrete) : Decidable (block.Stays body) :=
  decidable_of_iff
    (block.parts.Pairwise (fun d e => d.stop ≤ e.start) ∧ (∀ part ∈ block.parts, ∀ d ∈ part.subtrees, d.Arranged) ∧
      ∀ part ∈ block.parts, part.stop ≤ Text.byteLength body + 1)
    ⟨fun ⟨hordered, harranged, hends⟩ => ⟨hordered, harranged, hends⟩,
      fun ⟨hordered, harranged, hends⟩ => ⟨hordered, harranged, hends⟩⟩

/-- A range ends before the snippet does. -/
theorem Inside.stop_le {body : List Char} {c : Concrete} (h : c.Inside body) : c.stop ≤ Text.byteLength body + 1 := by
  obtain ⟨hstop, front, back, rfl, hfront⟩ := h.stop
  rw [Text.byteLength_append]
  omega

theorem Lies.stays {body : List Char} {block : Concrete} (h : block.Lies body) : block.Stays body where
  ordered := h.ordered
  arranged part hpart d hd := (h.laid part hpart d hd).arranged
  ends part hpart := (h.laid part hpart part part.mem_subtrees_self).inside.stop_le

end Concrete

namespace Reader

section Steps

variable {parser : Parser} {opaqueMacros : List String} {t : Nat} {s : Snippet} {goals : List Goal}
  {accounts : List Account} {i j : Int}

/-- What holds of an account if it holds of the accounts of its parts, and of an expansion if it holds of what
was read for the body, holds of all accounts of a reading. The numbers of the parts are not below that of the
whole. -/
theorem Reads.induction {motive : Snippet → Goal → Int → Account → Prop}
    (rule : ∀ {t s g i j parts n}, g.isMacro = false → Reads parser opaqueMacros t s (plan s g).parts i parts j →
      (plan s g).assemble (parts.map Account.node) = some n →
      List.Forall₂ (fun g' p => ∃ i', i ≤ i' ∧ motive s g' i' p) (plan s g).parts parts →
      motive s g i (.rule s g parts n))
    (kept : ∀ {s c name i}, motive s (.expr c) i (.kept s c name))
    (expansion : ∀ {t s inner c block d name i j e}, Opens opaqueMacros s c name i inner →
      parse parser inner = .ok block → Sole block d → Reads parser opaqueMacros t inner [.expr d] (i + 1) [e] j →
      (∃ i', i + 1 ≤ i' ∧ motive inner (.expr d) i' e) → motive s (.expr c) i (.expansion s c ⟨i, some name⟩ e))
    (h : Reads parser opaqueMacros t s goals i accounts j) :
    List.Forall₂ (fun g a => ∃ i', i ≤ i' ∧ motive s g i' a) goals accounts := by
  have later {s : Snippet} {goals : List Goal} {accounts : List Account} {i j : Int} (hij : i ≤ j)
      (h : List.Forall₂ (fun g a => ∃ i', j ≤ i' ∧ motive s g i' a) goals accounts) :
      List.Forall₂ (fun g a => ∃ i', i ≤ i' ∧ motive s g i' a) goals accounts :=
    h.imp fun _ _ ⟨i', hi', ha⟩ => ⟨i', Int.le_trans hij hi', ha⟩
  induction h with
  | nil => exact .nil
  | @rule t s g rest i j k parts more n hm hparts hn _ ihparts ih =>
    exact .cons ⟨i, Int.le_refl _, rule hm hparts hn ihparts⟩ (later (numbers_of_reads hparts).1 ih)
  | whole _ _ _ _ ih => exact .cons ⟨_, Int.le_refl _, kept⟩ ih
  | broken _ _ _ _ _ ih => exact .cons ⟨_, Int.le_refl _, kept⟩ (later (by omega) ih)
  | apart _ _ _ _ _ hbody _ _ _ ih =>
    have := (numbers_of_reads hbody).1
    exact .cons ⟨_, Int.le_refl _, kept⟩ (later (by omega) ih)
  | expansion _ _ ho hparse _ hsole he _ ihe ih =>
    have := (numbers_of_reads he).1
    cases ihe with
    | cons hfirst _ => exact .cons ⟨_, Int.le_refl _, expansion ho hparse hsole he hfirst⟩ (later (by omega) ih)

/-! ## Snippets that are met -/

/-- The snippets that are parsed on account of a file, each with the block of its statements: the file, and the
bodies that are opened for the invocations in them. -/
inductive Meets (parser : Parser) (opaqueMacros : List String) (file : List Char) : Snippet → Concrete → Prop where
  | whole {block : Concrete} : parse parser (.ofFile file) = .ok block →
    Meets parser opaqueMacros file (.ofFile file) block
  | body {s inner : Snippet} {block c block' : Concrete} {name : String} {i : Int} :
    Meets parser opaqueMacros file s block → c ∈ block.subtrees → Opens opaqueMacros s c name i inner →
      parse parser inner = .ok block' → Meets parser opaqueMacros file inner block'

theorem Meets.parse_eq {file : List Char} {block : Concrete} (h : Meets parser opaqueMacros file s block) :
    parse parser s = .ok block := by
  cases h with
  | whole hparse => exact hparse
  | body _ _ _ hparse => exact hparse

/-- The goal is asked for below a statement of a snippet that is met. -/
def Goal.Met (parser : Parser) (opaqueMacros : List String) (file : List Char) (s : Snippet) (g : Goal) : Prop :=
  ∃ block part, Meets parser opaqueMacros file s block ∧ part ∈ block.parts ∧ g.source ∈ part.subtrees

theorem Goal.From.met {file : List Char} {g k : Goal} (h : k.From g.source) (hg : g.Met parser opaqueMacros file s) :
    k.Met parser opaqueMacros file s := by
  obtain ⟨block, part, hmeets, hpart, hmem⟩ := hg
  exact ⟨block, part, hmeets, hpart, part.mem_subtrees_trans hmem h.1⟩

theorem Goal.Met.arranged {file : List Char} {g : Goal} (h : g.Met parser opaqueMacros file s)
    (hstays : ∀ s block, Meets parser opaqueMacros file s block → block.Stays s.body) :
    ∀ d ∈ g.source.subtrees, d.Arranged := by
  obtain ⟨block, part, hmeets, hpart, hmem⟩ := h
  exact fun d hd => (hstays s block hmeets).arranged part hpart d (part.mem_subtrees_trans hmem hd)

/-! ## Rules -/

/-- The range of a concrete node, as characters of the file. -/
def FitsAt (s : Snippet) (c : Concrete) (n : Node) : Prop := n.Fits (s.position c.start) (s.position c.stop)

theorem FitsAt.of_mem_subtrees {c d : Concrete} {n : Node} (harranged : ∀ e ∈ c.subtrees, e.Arranged)
    (hd : d ∈ c.subtrees) (h : FitsAt s d n) : FitsAt s c n := by
  obtain ⟨hlo, hhi⟩ := c.range_of_mem_subtrees harranged hd
  exact Node.Fits.mono h (s.position_mono hlo) (s.position_mono hhi)

theorem Hung.fitsAt {c : Concrete} {ms : List Node} {k : Node} (h : Hung s c ms k) (hc : c.start ≤ c.stop)
    (hms : ∀ m ∈ ms, FitsAt s c m) : FitsAt s c k := by
  induction h with
  | part hm => exact hms _ hm
  | pattern hlo hordered hhi =>
    exact .mk (s.position_mono hlo) (s.position_mono hordered) (s.position_mono hhi) nofun
  | @frame k _ hspan _ ih =>
    refine .mk ?_ ?_ ?_ ?_
    all_goals rw [hspan]
    · exact Int.le_refl _
    · exact s.position_mono hc
    · exact Int.le_refl _
    · exact ih

theorem Frames.fitsAt {c : Concrete} {ms : List Node} {n : Node} (h : Frames s c ms n) (hc : c.start ≤ c.stop)
    (hms : ∀ m ∈ ms, FitsAt s c m) : FitsAt s c n := by
  refine .mk ?_ ?_ ?_ fun k hk => ?_
  all_goals rw [h.span]
  · exact Int.le_refl _
  · exact s.position_mono hc
  · exact Int.le_refl _
  · exact (h.hung k hk).fitsAt hc hms

theorem fits_closeBy {m : Node} {lo hi : Int} {semicolon : Option Nat} (h : m.Fits lo hi)
    (hstop : ∀ stop ∈ semicolon, hi ≤ s.position stop) :
    (closeBy s semicolon m).Fits lo (semicolon.elim hi s.position) := by
  cases semicolon with
  | none => exact h
  | some stop =>
    have hstop := hstop stop rfl
    unfold closeBy
    split
    · rename_i stop' span node heq
      cases heq
      obtain ⟨hlo, hordered, hhi⟩ := h.bounds
      refine .mk hlo (Int.le_trans hordered (Int.le_trans hhi hstop)) (Int.le_refl _) fun k hk => ?_
      exact (h.of_mem_children hk).mono (Int.le_refl _) (Int.le_trans hhi hstop)
    · exact h.mono (Int.le_refl _) hstop

theorem mem_of_semicolonAfter {cs : List Concrete} {stop : Nat} (h : semicolonAfter cs = some stop) :
    ∃ d ∈ cs, d.stop = stop := by
  induction cs with
  | nil => cases h
  | cons c rest ih =>
    unfold semicolonAfter at h
    split at h
    · obtain ⟨d, hd, hstop⟩ := ih h
      exact ⟨d, .tail _ hd, hstop⟩
    · split at h
      · cases h
        exact ⟨c, .head _, rfl⟩
      · cases h

/-- The semicolon that a statement is closed by stands behind it. -/
theorem semicolon_of_mem_stmtSlots {cs : List Concrete} (hordered : cs.Pairwise fun d e => d.stop ≤ e.start)
    {slot : Concrete × Option Nat} (hslot : slot ∈ stmtSlots cs) {stop : Nat} (hstop : slot.2 = some stop) :
    ∃ d ∈ cs, d.stop = stop ∧ slot.1.stop ≤ d.start := by
  induction cs with
  | nil => cases hslot
  | cons c rest ih =>
    obtain ⟨hfirst, hrest⟩ := List.pairwise_cons.1 hordered
    unfold stmtSlots at hslot
    split at hslot
    · obtain ⟨d, hd, h⟩ := ih hrest hslot
      exact ⟨d, .tail _ hd, h⟩
    · obtain rfl | hslot := List.mem_cons.1 hslot
      · obtain ⟨d, hd, hstop⟩ := mem_of_semicolonAfter hstop
        exact ⟨d, .tail _ hd, hstop, hfirst d hd⟩
      · obtain ⟨d, hd, h⟩ := ih hrest hslot
        exact ⟨d, .tail _ hd, h⟩

/-- Closed by the semicolons behind them, the statements of a block stay within bounds that all its parts lie
within. -/
theorem fits_of_mem_closed {cs : List Concrete} {ms : List Node} {lo hi : Int}
    (hordered : cs.Pairwise fun d e => d.stop ≤ e.start)
    (hcs : ∀ d ∈ cs, lo ≤ s.position d.start ∧ d.start ≤ d.stop ∧ s.position d.stop ≤ hi)
    (hms : List.Forall₂ (fun slot m => FitsAt s slot.1 m) (stmtSlots cs) ms) {k : Node}
    (hk : k ∈ List.zipWith (fun slot n => closeBy s slot.2 n) (stmtSlots cs) ms) : k.Fits lo hi := by
  obtain ⟨i, hi', rfl⟩ := List.mem_iff_getElem.1 hk
  rw [List.getElem_zipWith]
  rw [List.length_zipWith, Nat.lt_min] at hi'
  have hm := hms.get hi'.1 hi'.2
  have hslot := List.getElem_mem hi'.1
  obtain ⟨hlo, -, hhi⟩ := hcs _ (mem_of_mem_stmtSlots hslot)
  have hstops : ∀ stop ∈ (stmtSlots cs)[i].2, s.position (stmtSlots cs)[i].1.stop ≤ s.position stop := by
    intro stop hstop
    obtain ⟨d, hd, rfl, hle⟩ := semicolon_of_mem_stmtSlots hordered hslot hstop
    exact s.position_mono (Nat.le_trans hle (hcs d hd).2.1)
  refine (fits_closeBy hm hstops).mono hlo ?_
  cases hsemi : (stmtSlots cs)[i].2 with
  | none => exact hhi
  | some stop =>
    obtain ⟨d, hd, rfl, -⟩ := semicolon_of_mem_stmtSlots hordered hslot hsemi
    exact (hcs d hd).2.2

/-! ## Readings -/

/-- An expression that a block consists of is below one of its statements. -/
theorem Sole.exists_part {block d : Concrete} (h : Sole block d) :
    ∃ part ∈ block.parts, ∀ e ∈ d.subtrees, e ∈ part.subtrees := by
  obtain ⟨stmt, hslots, -, hstmt⟩ := h
  have hmem : (stmt, none) ∈ stmtSlots block.parts := by
    rw [hslots]
    exact .head _
  refine ⟨stmt, mem_of_mem_stmtSlots hmem, ?_⟩
  obtain ⟨-, -, rest, hparts⟩ | ⟨-, -, rfl⟩ := hstmt
  · have hd : d ∈ stmt.parts := by
      rw [hparts]
      exact .head _
    exact fun e he => Concrete.mem_subtrees_of_mem_parts hd he
  · exact fun e he => he

/-- What is opened for an invocation stands between the delimiters of a token tree in it. -/
theorem Opens.exists_tree {inner : Snippet} {c : Concrete} {name : String} (h : Opens opaqueMacros s c name i inner) :
    ∃ tree ∈ c.children, ∃ body, tree.type = "token_tree" ∧ s.inside? tree = some body ∧
      inner = s.inner tree body ⟨i, some name⟩ := by
  obtain ⟨tree, body, htree, hbody, rfl⟩ := h
  rw [bodyTree?] at htree
  split at htree
  · cases htree
  · have htype := List.find?_some (show (c.children.find? fun d => d.type == "token_tree") = some tree from htree)
    exact ⟨tree, List.mem_of_find?_eq_some htree, body, eq_of_beq htype, hbody, rfl⟩

/-- What lies in the body of an invocation lies in the invocation. -/
theorem fitsAt_of_inner {inner : Snippet} {c d : Concrete} {name : String} {n : Node}
    (harranged : ∀ d ∈ c.subtrees, d.Arranged) (ho : Opens opaqueMacros s c name i inner)
    (hd : d.stop ≤ Text.byteLength inner.body + 1) (h : FitsAt inner d n) : FitsAt s c n := by
  obtain ⟨tree, htree, body, htype, hbody, rfl⟩ := ho.exists_tree
  have hmem := Concrete.mem_subtrees_child htree tree.mem_subtrees_self
  have hroom := Snippet.byteLength_inside? hbody ((harranged tree hmem).delimited htype)
  have hstop : d.stop ≤ Text.byteLength body + 1 := hd
  refine FitsAt.of_mem_subtrees harranged hmem (Node.Fits.mono h ?_ ?_)
  · rw [Snippet.position_inner]
    exact s.position_mono (Nat.le_add_left _ _)
  · rw [Snippet.position_inner]
    exact s.position_mono (by omega)

theorem fitsAt_of_rule {g : Goal} {parts : List Account} {n : Node} (harranged : ∀ d ∈ g.source.subtrees, d.Arranged)
    (hn : (plan s g).assemble (parts.map Account.node) = some n)
    (hparts : List.Forall₂ (fun g' p => g'.From g.source → FitsAt s g'.source p.node) (plan s g).parts parts) :
    FitsAt s g.source n := by
  obtain ⟨hframed, hfrom⟩ := framed_of_assemble harranged hn
  have hnodes : List.Forall₂ (fun g' m => FitsAt s g'.source m) (plan s g).parts (parts.map Account.node) := by
    rw [List.forall₂_map_right_iff]
    exact ((List.forall₂_and_left _ _).2 ⟨hfrom, hparts⟩).imp fun g' p ⟨hg', h⟩ => h hg'
  have hms : ∀ m ∈ parts.map Account.node, FitsAt s g.source m := by
    intro m hm
    obtain ⟨g', hg', h⟩ := (exists_of_forall₂ hnodes).2 m hm
    exact h.of_mem_subtrees harranged (hfrom g' hg').1
  have hc := (harranged _ g.source.mem_subtrees_self).range
  generalize parts.map Account.node = ms at hframed hms hnodes
  cases hframed with
  | around _ h => exact h.fitsAt hc hms
  | @respanned c d m _ _ =>
    exact (hms m (.head _)).withSpan (Int.le_refl _) (Int.le_refl _) (Int.le_refl _) (Int.le_refl _)
  | @whole c m _ =>
    have hm := hms m (.head _)
    obtain ⟨hlo, hordered, hhi⟩ := hm.bounds
    exact .mk hlo hordered hhi (List.forall_mem_singleton.2 hm.span)
  | @block c ms =>
    refine .mk (Int.le_refl _) (s.position_mono hc) (Int.le_refl _) fun k hk => ?_
    have hslots : List.Forall₂ (fun slot m => FitsAt s slot.1 m) (stmtSlots c.parts) ms := by
      have hplan : (plan s (.block c)).parts = (stmtSlots c.parts).map fun slot => Goal.stmt slot.1 := rfl
      rw [hplan, List.forall₂_map_left_iff] at hnodes
      exact hnodes
    refine fits_of_mem_closed ?_ (fun d hd => ?_) hslots hk
    · exact (harranged c c.mem_subtrees_self).ordered.filter _
    · have hmem := Concrete.mem_subtrees_of_mem_parts hd d.mem_subtrees_self
      obtain ⟨hlo, hhi⟩ := c.range_of_mem_subtrees harranged hmem
      exact ⟨s.position_mono hlo, (harranged d hmem).range, s.position_mono hhi⟩

/-- Every node that is read lies in the range of what it was read for, with the spans below it nested. -/
theorem fitsAt_of_reads {file : List Char}
    (hstays : ∀ s block, Meets parser opaqueMacros file s block → block.Stays s.body)
    (h : Reads parser opaqueMacros t s goals i accounts j) :
    List.Forall₂ (fun g a => g.Met parser opaqueMacros file s → FitsAt s g.source a.node) goals accounts := by
  refine (h.induction (motive := fun s g _ a => g.Met parser opaqueMacros file s → FitsAt s g.source a.node)
    ?_ ?_ ?_).imp fun _ _ ⟨_, _, ha⟩ => ha
  · intro t s g i j parts n _ _ hn ih hmet
    exact fitsAt_of_rule (hmet.arranged hstays) hn (ih.imp fun _ _ ⟨_, _, hp⟩ hfrom => hp (hfrom.met hmet))
  · intro s c name i hmet
    have hc := (hmet.arranged hstays c c.mem_subtrees_self).range
    exact .mk (Int.le_refl _) (s.position_mono hc) (Int.le_refl _) nofun
  · intro t s inner c block d name i j e ho hparse hsole _ ih hmet
    obtain ⟨_, -, ih⟩ := ih
    obtain ⟨outer, stmt, hmeets, hstmt, hc⟩ := hmet
    have hinner : Meets parser opaqueMacros file inner block :=
      .body hmeets (Concrete.mem_subtrees_of_mem_parts hstmt hc) ho hparse
    obtain ⟨part, hpart, hd⟩ := hsole.exists_part
    have hmem := hd d d.mem_subtrees_self
    have hstop := Nat.le_trans (part.range_of_mem_subtrees ((hstays inner block hinner).arranged part hpart) hmem).2
      ((hstays inner block hinner).ends part hpart)
    exact fitsAt_of_inner (Goal.Met.arranged ⟨outer, stmt, hmeets, hstmt, hc⟩ hstays) ho hstop
      (ih ⟨block, part, hinner, hpart, hmem⟩)

end Steps

/-! ## Files -/

variable {parser : Parser} {opaqueMacros : List String} {text fileName : String} {start after : Progress}
  {parsed : ParsedSource}

/-- The spans of a file nest within its text. -/
theorem fits_of_read (hstays : ∀ s block, Meets parser opaqueMacros text.toList s block → block.Stays s.body)
    (h : read parser opaqueMacros text fileName start = (.ok parsed, after)) :
    parsed.root.Fits 0 text.toList.length := by
  obtain ⟨block, a, hparse, hreads, rfl⟩ := reads_of_read h
  have hmeets : Meets parser opaqueMacros text.toList (.ofFile text.toList) block := .whole hparse
  have hblock := hstays _ block hmeets
  cases hreads with
  | @rule _ _ _ _ _ j _ parts _ n _ hparts hn hnil =>
    cases hnil
    obtain rfl := of_assemble_many hn
    have hslots := fitsAt_of_reads hstays hparts
    have hplan : (plan (.ofFile text.toList) (.block block)).parts =
      (stmtSlots block.parts).map fun slot => Goal.stmt slot.1 := rfl
    rw [hplan, List.forall₂_map_left_iff] at hslots
    have hmet : ∀ slot ∈ stmtSlots block.parts,
        (Goal.stmt slot.1).Met parser opaqueMacros text.toList (.ofFile text.toList) :=
      fun slot hslot => ⟨block, slot.1, hmeets, mem_of_mem_stmtSlots hslot, slot.1.mem_subtrees_self⟩
    have hms : List.Forall₂ (fun slot m => FitsAt (.ofFile text.toList) slot.1 m) (stmtSlots block.parts)
        (parts.map Account.node) := by
      rw [List.forall₂_map_right_iff]
      exact ((List.forall₂_and_left _ _).2 ⟨hmet, hslots⟩).imp fun _ _ ⟨hslot, h⟩ => h hslot
    refine .mk (Int.le_refl _) (Int.natCast_nonneg _) (Int.le_refl _) fun k hk => ?_
    rw [Node.children_withSpan] at hk
    refine fits_of_mem_closed hblock.ordered (fun d hd => ?_) hms hk
    have hrange := (hblock.arranged d hd d d.mem_subtrees_self).range
    exact ⟨Snippet.position_nonneg _ _, hrange, Snippet.position_ofFile_le _ (hblock.ends d hd)⟩

end Reader

end NestLint
