import NestLint.Proofs.Reader.Account

/-!
# Accounts tell exactly what is read

Every reading that succeeds has an account. Here is the other direction: whatever has an account is
read, with the node and the numbers that the account tells. So an account is all that has to be
given to know what a file is read as.

* `gives_run`: a plan is followed once its parts are read;
* `gives_of_reads`, `read_of_reads`: what has an account is read.
-/

namespace NestLint

namespace Concrete

/-- A construct that is free of errors. -/
def construct (type : String) (start stop : Nat) (field : Option String) (children : List Concrete) : Concrete :=
  .mk type start stop true false false false field children

/-- A token. -/
def token (type : String) (start stop : Nat) : Concrete := .mk type start stop false false false false none []

/-- The block that a snippet of one statement is wrapped into. -/
def wrapping (stop : Nat) (stmt : Concrete) : Concrete :=
  construct "block" 0 stop none [token "\x7b" 0 1, stmt, token "\x7d" (stop - 1) stop]

/-- What a parser makes of such a block. -/
def ofWrapping (stop : Nat) (stmt : Concrete) : Concrete :=
  construct "source_file" 0 stop none [construct "expression_statement" 0 stop none [wrapping stop stmt]]

/-- A condition of one letter. -/
def letterAt (start : Nat) : Concrete := construct "identifier" start (start + 1) (some "condition") []

/-- A body without statements. -/
def emptyBody (start : Nat) : Concrete :=
  construct "block" start (start + 2) (some "consequence")
    [token "\x7b" start (start + 1), token "\x7d" (start + 1) (start + 2)]

/-- A conditional with such a condition and such a body. -/
def emptyIf (start : Nat) : Concrete :=
  construct "if_expression" start (start + 7) none
    [token "if" start (start + 2), letterAt (start + 3), emptyBody (start + 5)]

end Concrete

namespace Reader

variable {parser : Parser} {opaqueMacros : List String} {t : Nat} {s : Snippet} {i j : Int}

/-! ## Plans -/

/-- Reading a longer list is reading the list and then the rest. -/
theorem of_readAll_append : ∀ {goals : List Goal} {last : Goal} {f : (k : Goal) → k ∈ goals ++ [last] → Read Node}
    {p q : Progress} {ns : List Node}, Gives (readAll (goals ++ [last]) f) p ns q →
      ∃ ms n r, Gives (readAll goals fun k h => f k (List.mem_append_left _ h)) p ms r ∧
        Gives (f last (by simp)) r n q ∧ ns = ms ++ [n]
  | [], last, f, p, q, ns, h => by
    obtain ⟨n, r, ms, hn, hms, rfl⟩ := readAll_cons_gives.1 h
    obtain ⟨rfl, rfl⟩ := readAll_nil_gives.1 hms
    exact ⟨[], n, p, readAll_nil_gives.2 ⟨rfl, rfl⟩, hn, rfl⟩
  | g :: rest, last, f, p, q, ns, h => by
    obtain ⟨m, r, ms, hm, hms, rfl⟩ := readAll_cons_gives.1 h
    obtain ⟨ms', n, r', hrest, hn, rfl⟩ := of_readAll_append hms
    exact ⟨m :: ms', n, r', readAll_cons_gives.2 ⟨m, r, ms', hm, hrest, rfl⟩, hn, rfl⟩

/-- A plan whose parts are read and can be put together is followed. -/
theorem gives_run {plan : Plan} {f : (k : Goal) → k ∈ plan.parts → Read Node} {p q : Progress} {ns : List Node}
    {n : Node} (h : Gives (readAll plan.parts f) p ns q) (hn : plan.assemble ns = some n) :
    Gives (plan.run f) p n q := by
  cases plan with
  | stuck parts fault => cases hn
  | leaf node =>
    obtain ⟨rfl, rfl⟩ := readAll_nil_gives.1 h
    cases hn
    exact gives_pure.2 ⟨rfl, rfl⟩
  | one a g =>
    obtain ⟨m, r, _, hm, hnil, rfl⟩ := readAll_cons_gives.1 h
    obtain ⟨rfl, rfl⟩ := readAll_nil_gives.1 hnil
    cases hn
    exact gives_bind.2 ⟨m, _, hm, gives_pure.2 ⟨rfl, rfl⟩⟩
  | two a b g =>
    obtain ⟨m, r, _, hm, h₁, rfl⟩ := readAll_cons_gives.1 h
    obtain ⟨m', r', _, hm', hnil, rfl⟩ := readAll_cons_gives.1 h₁
    obtain ⟨rfl, rfl⟩ := readAll_nil_gives.1 hnil
    cases hn
    exact gives_bind.2 ⟨m, r, hm, gives_bind.2 ⟨m', _, hm', gives_pure.2 ⟨rfl, rfl⟩⟩⟩
  | three a b c g =>
    obtain ⟨m, r, _, hm, h₁, rfl⟩ := readAll_cons_gives.1 h
    obtain ⟨m', r', _, hm', h₂, rfl⟩ := readAll_cons_gives.1 h₁
    obtain ⟨m'', r'', _, hm'', hnil, rfl⟩ := readAll_cons_gives.1 h₂
    obtain ⟨rfl, rfl⟩ := readAll_nil_gives.1 hnil
    cases hn
    exact gives_bind.2 ⟨m, r, hm, gives_bind.2 ⟨m', r', hm', gives_bind.2 ⟨m'', _, hm'', gives_pure.2 ⟨rfl, rfl⟩⟩⟩⟩
  | many parts g =>
    cases hn
    exact gives_bind.2 ⟨ns, q, h, gives_pure.2 ⟨rfl, rfl⟩⟩
  | manyThen parts last g =>
    obtain ⟨ms, m, r, hms, hm, rfl⟩ := of_readAll_append h
    rw [Plan.assemble, List.getLast?_concat, List.dropLast_concat, Option.map_some] at hn
    cases hn
    exact gives_bind.2 ⟨ms, r, hms, gives_bind.2 ⟨m, q, hm, gives_pure.2 ⟨rfl, rfl⟩⟩⟩

/-! ## What has an account is read -/

section Steps

variable {c : Concrete} {name : String} {p q : Progress} {n : Node}

theorem gives_rule {g : Goal} (hm : g.isMacro = false) (ns : List Node)
    (h : Gives (readAll (plan s g).parts fun k _ => build parser opaqueMacros t s k) p ns q)
    (hn : (plan s g).assemble ns = some n) : Gives (build parser opaqueMacros t s g) p n q := by
  rw [build_of_not_isMacro hm]
  exact gives_run h hn

theorem gives_one {g : Goal} {f : (k : Goal) → k ∈ [g] → Read Node} (h : Gives (f g (.head _)) p n q) :
    Gives (readAll [g] f) p [n] q :=
  readAll_cons_gives.2 ⟨n, q, [], h, readAll_nil_gives.2 ⟨rfl, rfl⟩, rfl⟩

/-- A block is read as a statement if its only statement is, and that as an expression if the expression
is. -/
theorem gives_block_of_sole {block d : Concrete} (hd : Sole block d)
    (h : Gives (build parser opaqueMacros t s (.expr d)) p n q) :
    ∃ b, Gives (build parser opaqueMacros t s (.block block)) p b q ∧ soleExpr? b = some n := by
  obtain ⟨stmt, hslots, hlet, hstmt⟩ := hd
  have hplan : (plan s (.stmt stmt)).parts = [.expr d] ∧
      (plan s (.stmt stmt)).assemble [n] = some (.stmt (s.span stmt) .expr n) := by
    show (stmtPlan s stmt).parts = [.expr d] ∧ (stmtPlan s stmt).assemble [n] = _
    rw [stmtPlan, if_neg hlet]
    obtain ⟨htype, hsemi, rest, hparts⟩ | ⟨htype, hexpr, rfl⟩ := hstmt
    · rw [if_pos htype, hparts, hsemi]
      exact ⟨rfl, rfl⟩
    · rw [if_neg htype, if_pos hexpr]
      exact ⟨rfl, rfl⟩
  have hread : Gives (build parser opaqueMacros t s (.stmt stmt)) p (.stmt (s.span stmt) .expr n) q := by
    refine gives_rule rfl [n] ?_ hplan.2
    rw [hplan.1]
    exact gives_one h
  have hblock : (plan s (.block block)).parts = [.stmt stmt] ∧
      (plan s (.block block)).assemble [.stmt (s.span stmt) .expr n] =
        some (.block (s.span block) [.stmt (s.span stmt) .expr n]) := by
    show (blockPlan s block).parts = [.stmt stmt] ∧ (blockPlan s block).assemble [.stmt (s.span stmt) .expr n] = _
    rw [blockPlan, hslots]
    exact ⟨rfl, rfl⟩
  refine ⟨_, gives_rule rfl [.stmt (s.span stmt) .expr n] ?_ hblock.2, rfl⟩
  rw [hblock.1]
  exact gives_one hread

theorem gives_whole (hc : c.type = "macro_invocation") (hname : macroName s c = .ok name)
    (htree : bodyTree? opaqueMacros name c = none) :
    Gives (build parser opaqueMacros t s (.expr c)) p (.macroCall (s.span c) name) p := by
  rw [build, if_pos hc]
  refine gives_bind.2 ⟨name, p, gives_ofExcept.2 ⟨hname, rfl⟩, ?_⟩
  rw [htree]
  exact gives_pure.2 ⟨rfl, rfl⟩

/-- What is done with the body of an invocation, once there is one. -/
theorem gives_opened {inner : Snippet} (hc : c.type = "macro_invocation") (hname : macroName s c = .ok name)
    (ho : Opens opaqueMacros s c name p.nextOrigin inner) {block : Concrete} (hparse : parse parser inner = .ok block)
    {t' : Nat} (ht : Enters t s inner t') {b : Node} {r : Progress}
    (hb : Gives (build parser opaqueMacros t' inner (.block block)) { p with nextOrigin := p.nextOrigin + 1 } b r)
    (hn : Gives (match soleExpr? b with
      | some node => pure node
      | none => do
        note ("Body of " ++ name ++ "! is not a single expression, keeping it opaque")
        pure (.macroCall (s.span c) name)) r n q) :
    Gives (build parser opaqueMacros t s (.expr c)) p n q := by
  obtain ⟨tree, body, htree, hinside, rfl⟩ := ho
  rw [build, if_pos hc]
  refine gives_bind.2 ⟨name, p, gives_ofExcept.2 ⟨hname, rfl⟩, ?_⟩
  rw [htree]
  refine gives_bind.2 ⟨⟨p.nextOrigin, some name⟩, { p with nextOrigin := p.nextOrigin + 1 }, rfl, ?_⟩
  rw [hinside]
  simp only
  rw [hparse]
  simp only
  obtain ⟨hshort, rfl⟩ | ⟨hlong, rfl⟩ := ht
  · rw [dif_pos (show body.length < s.body.length from hshort)]
    exact gives_bind.2 ⟨b, r, hb, hn⟩
  · rw [dif_neg (show ¬body.length < s.body.length from hlong)]
    exact gives_bind.2 ⟨b, r, hb, hn⟩

theorem gives_broken {inner : Snippet} (hc : c.type = "macro_invocation") (hname : macroName s c = .ok name)
    (ho : Opens opaqueMacros s c name p.nextOrigin inner) {what : String} {position : Int}
    (hparse : parse parser inner = .error (.malformed what position)) :
    ∃ q, q.nextOrigin = p.nextOrigin + 1 ∧
      Gives (build parser opaqueMacros t s (.expr c)) p (.macroCall (s.span c) name) q := by
  obtain ⟨tree, body, htree, hinside, rfl⟩ := ho
  let notes := p.notes ++
    [Note.debug Note.treeChannel ("Body of " ++ name ++ "! is not valid Rust, keeping it opaque")]
  rw [build, if_pos hc]
  refine ⟨⟨p.nextOrigin + 1, notes⟩, rfl, gives_bind.2 ⟨name, p, gives_ofExcept.2 ⟨hname, rfl⟩, ?_⟩⟩
  rw [htree]
  refine gives_bind.2 ⟨⟨p.nextOrigin, some name⟩, { p with nextOrigin := p.nextOrigin + 1 }, rfl, ?_⟩
  rw [hinside]
  simp only
  rw [hparse]
  exact gives_bind.2 ⟨(), _, rfl, gives_pure.2 ⟨rfl, rfl⟩⟩

/-! ## Reading by hand -/

theorem gives_nil : Gives (readAll [] fun k _ => build parser opaqueMacros t s k) p [] p :=
  readAll_nil_gives.2 ⟨rfl, rfl⟩

theorem gives_cons {g : Goal} {rest : List Goal} {r : Progress} {ms : List Node}
    (h : Gives (build parser opaqueMacros t s g) p n r)
    (hrest : Gives (readAll rest fun k _ => build parser opaqueMacros t s k) r ms q) :
    Gives (readAll (g :: rest) fun k _ => build parser opaqueMacros t s k) p (n :: ms) q :=
  readAll_cons_gives.2 ⟨n, r, ms, h, hrest, rfl⟩

/-- A rule with these parts is followed once they are read. -/
theorem gives_of_parts {g : Goal} {parts : List Goal} {ns : List Node} (hm : g.isMacro = false)
    (hparts : (plan s g).parts = parts) (h : Gives (readAll parts fun k _ => build parser opaqueMacros t s k) p ns q)
    (hn : (plan s g).assemble ns = some n) : Gives (build parser opaqueMacros t s g) p n q := by
  subst hparts
  exact gives_rule hm ns h hn

end Steps

/-- In a file without macros, a goal is read as a node. -/
def ReadsAs (parser : Parser) (text : String) (g : Goal) (n : Node) : Prop :=
  Gives (build parser [] endurance (Snippet.ofFile text.toList) g) {} n {}

/-- What has an account is read, with the nodes and the numbers of the account. -/
theorem gives_of_reads {goals : List Goal} {accounts : List Account}
    (h : Reads parser opaqueMacros t s goals i accounts j) :
    ∀ p : Progress, p.nextOrigin = i → ∃ q, q.nextOrigin = j ∧
      Gives (readAll goals fun g _ => build parser opaqueMacros t s g) p (accounts.map Account.node) q := by
  induction h with
  | nil => exact fun p hp => ⟨p, hp, readAll_nil_gives.2 ⟨rfl, rfl⟩⟩
  | rule hm _ hn _ ihparts ihrest =>
    intro p hp
    obtain ⟨r, hr, hparts⟩ := ihparts p hp
    obtain ⟨q, hq, hrest⟩ := ihrest r hr
    exact ⟨q, hq, readAll_cons_gives.2 ⟨_, r, _, gives_rule hm _ hparts hn, hrest, rfl⟩⟩
  | whole hc hname htree _ ih =>
    intro p hp
    obtain ⟨q, hq, hrest⟩ := ih p hp
    exact ⟨q, hq, readAll_cons_gives.2 ⟨_, p, _, gives_whole hc hname htree, hrest, rfl⟩⟩
  | broken hc hname ho hparse _ ih =>
    rintro p rfl
    obtain ⟨r, hr, hkept⟩ := gives_broken hc hname ho hparse
    obtain ⟨q, hq, hrest⟩ := ih r hr
    exact ⟨q, hq, readAll_cons_gives.2 ⟨_, r, _, hkept, hrest, rfl⟩⟩
  | @apart t t' s inner c block rest name i j k body more hc hname ho hparse ht _ hsole _ ihbody ih =>
    rintro p rfl
    obtain ⟨r, hr, hbody⟩ := ihbody { p with nextOrigin := p.nextOrigin + 1 } rfl
    obtain ⟨_, _, _, hblock, hnil, hb⟩ := readAll_cons_gives.1 hbody
    cases hb
    obtain ⟨-, rfl⟩ := readAll_nil_gives.1 hnil
    let notes := r.notes ++
      [Note.debug Note.treeChannel ("Body of " ++ name ++ "! is not a single expression, keeping it opaque")]
    obtain ⟨q, hq, hrest⟩ := ih { r with notes := notes } hr
    refine ⟨q, hq, readAll_cons_gives.2 ⟨_, _, _, gives_opened hc hname ho hparse ht hblock ?_, hrest, rfl⟩⟩
    rw [hsole]
    exact gives_bind.2 ⟨(), _, rfl, gives_pure.2 ⟨rfl, rfl⟩⟩
  | @expansion t t' s inner c block d rest name i j k e more hc hname ho hparse ht hd _ _ ihe ih =>
    rintro p rfl
    obtain ⟨r, hr, he⟩ := ihe { p with nextOrigin := p.nextOrigin + 1 } rfl
    obtain ⟨_, _, _, hexpr, hnil, hb⟩ := readAll_cons_gives.1 he
    cases hb
    obtain ⟨-, rfl⟩ := readAll_nil_gives.1 hnil
    obtain ⟨b, hblock, hsole⟩ := gives_block_of_sole hd hexpr
    obtain ⟨q, hq, hrest⟩ := ih r hr
    refine ⟨q, hq, readAll_cons_gives.2 ⟨_, r, _, gives_opened hc hname ho hparse ht hblock ?_, hrest, rfl⟩⟩
    rw [hsole]
    exact gives_pure.2 ⟨rfl, rfl⟩

/-- A file whose statements are read as a block is read. -/
theorem read_of_gives {text : String} (fileName : String) {start after : Progress} {block : Concrete} {n : Node}
    (hparse : parse parser (Snippet.ofFile text.toList) = .ok block)
    (h : Gives (build parser opaqueMacros endurance (Snippet.ofFile text.toList) (.block block)) start n after) :
    read parser opaqueMacros text fileName start = (.ok ⟨n.withSpan (wholeSpan text), ⟨text, fileName⟩⟩, after) := by
  have htree : Gives (readTree parser opaqueMacros text.toList) start (n.withSpan (wholeSpan text)) after := by
    rw [readTree]
    refine gives_bind.2 ⟨block, start, gives_ofExcept.2 ⟨hparse, rfl⟩, ?_⟩
    exact gives_bind.2 ⟨n, after, h, gives_pure.2 ⟨rfl, rfl⟩⟩
  rw [read, show (readTree parser opaqueMacros text.toList).run start = _ from htree]
  rfl

/-- A file whose statements have an account is read, with the node of the account. -/
theorem read_of_reads {text : String} (fileName : String) (start : Progress) {block : Concrete} {a : Account}
    (hparse : parse parser (Snippet.ofFile text.toList) = .ok block)
    (h : Reads parser opaqueMacros endurance (Snippet.ofFile text.toList) [.block block] start.nextOrigin [a] j) :
    ∃ after, after.nextOrigin = j ∧ read parser opaqueMacros text fileName start =
      (.ok ⟨a.node.withSpan (wholeSpan text), ⟨text, fileName⟩⟩, after) := by
  obtain ⟨after, hafter, hread⟩ := gives_of_reads h start rfl
  obtain ⟨_, _, _, hblock, hnil, heq⟩ := readAll_cons_gives.1 hread
  cases heq
  obtain ⟨-, rfl⟩ := readAll_nil_gives.1 hnil
  exact ⟨after, hafter, read_of_gives fileName hparse hblock⟩

end Reader

end NestLint
