import NestLint.Reader.Read

/-!
# Accounts of readings

An account says how a node came to be: by a rule, from the nodes of its parts; by keeping a macro
invocation as it is; or by reading the expression that the body of an invocation consists of. A
reading that succeeds has an account, so what is to be said about trees that were read is said about
accounts, where neither patience, nor notes, nor faults are in the way.

* `Account`, `Reads`: accounts, and which of them belong to the goals of a snippet;
* `run_gives`, `readAll_cons_gives`: a plan is followed by reading its parts and putting them together;
* `reads_of_build`, `reads_of_read`: every reading that succeeds has an account.
-/

namespace NestLint

namespace Reader

/-! ## Readings that succeed -/

/-- Reading gives a value and goes from one progress to another. -/
def Gives {α : Type} (x : Read α) (p : Progress) (a : α) (q : Progress) : Prop := x.run p = (.ok a, q)

section Gives

variable {α β : Type} {p q : Progress}

theorem gives_pure {a b : α} : Gives (pure a) p b q ↔ b = a ∧ q = p := by
  constructor
  · intro h
    cases h
    exact ⟨rfl, rfl⟩
  · rintro ⟨rfl, rfl⟩
    rfl

/-- The second of two steps goes on where the first one ended, unless that failed. -/
theorem run_bind (x : Read α) (f : α → Read β) (p : Progress) :
    (x >>= f).run p = match x.run p with
      | (.ok a, r) => (f a).run r
      | (.error fault, r) => (.error fault, r) := by
  show (ExceptT.bind x f).run p = _
  rw [ExceptT.bind]
  show (ExceptT.bindCont f (x.run p).1 : StateM Progress _) (x.run p).2 = _
  cases hx : x.run p with
  | mk result r =>
    cases result with
    | ok a => rfl
    | error fault => rfl

theorem gives_bind {x : Read α} {f : α → Read β} {b : β} :
    Gives (x >>= f) p b q ↔ ∃ a r, Gives x p a r ∧ Gives (f a) r b q := by
  rw [Gives, run_bind]
  constructor
  · intro h
    split at h
    · rename_i a r hx
      exact ⟨a, r, hx, h⟩
    · cases h
  · rintro ⟨a, r, hx, hf⟩
    rw [show x.run p = (.ok a, r) from hx]
    exact hf

theorem not_gives_throw {fault : ReadFault} {a : α} : ¬Gives (throw fault) p a q := nofun

theorem gives_ofExcept {e : Except ReadFault α} {a : α} : Gives (ofExcept e) p a q ↔ e = .ok a ∧ q = p := by
  cases e with
  | ok b =>
    constructor
    · intro h
      cases h
      exact ⟨rfl, rfl⟩
    · rintro ⟨h, rfl⟩
      cases h
      rfl
  | error fault =>
    constructor
    · nofun
    · nofun

theorem gives_note {text : String} {u : Unit} (h : Gives (note text) p u q) : q.nextOrigin = p.nextOrigin := by
  cases h
  rfl

theorem gives_freshOrigin {name : String} {o : Origin} (h : Gives (freshOrigin name) p o q) :
    o = ⟨p.nextOrigin, some name⟩ ∧ q.nextOrigin = p.nextOrigin + 1 := by
  cases h
  exact ⟨rfl, rfl⟩

end Gives

/-! ## Plans -/

/-- What a plan makes of the nodes that were read for it. -/
def Plan.assemble : Plan → List Node → Option Node
  | .leaf node, [] => some node
  | .one _ f, [a] => some (f a)
  | .two _ _ f, [a, b] => some (f a b)
  | .three _ _ _ f, [a, b, c] => some (f a b c)
  | .many _ f, ns => some (f ns)
  | .manyThen _ _ f, ns => ns.getLast?.map (f ns.dropLast)
  | _, _ => none

theorem readAll_cons_gives {g : Goal} {rest : List Goal} {f : (k : Goal) → k ∈ g :: rest → Read Node}
    {p q : Progress} {ns : List Node} :
    Gives (readAll (g :: rest) f) p ns q ↔ ∃ n r ms, Gives (f g (.head _)) p n r ∧
      Gives (readAll rest fun k h => f k (.tail _ h)) r ms q ∧ ns = n :: ms := by
  rw [readAll, gives_bind]
  constructor
  · rintro ⟨n, r, hn, hrest⟩
    obtain ⟨ms, r', hms, hpure⟩ := gives_bind.1 hrest
    obtain ⟨rfl, rfl⟩ := gives_pure.1 hpure
    exact ⟨n, r, ms, hn, hms, rfl⟩
  · rintro ⟨n, r, ms, hn, hms, rfl⟩
    exact ⟨n, r, hn, gives_bind.2 ⟨ms, q, hms, gives_pure.2 ⟨rfl, rfl⟩⟩⟩

theorem readAll_nil_gives {f : (k : Goal) → k ∈ ([] : List Goal) → Read Node} {p q : Progress} {ns : List Node} :
    Gives (readAll [] f) p ns q ↔ ns = [] ∧ q = p := gives_pure

/-- Reading a list and one more is reading the longer list. -/
theorem readAll_append_gives : ∀ {goals : List Goal} {last : Goal} {f : (k : Goal) → k ∈ goals ++ [last] → Read Node}
    {p r q : Progress} {ns : List Node} {n : Node},
    Gives (readAll goals fun k h => f k (List.mem_append_left _ h)) p ns r →
    Gives (f last (by simp)) r n q → Gives (readAll (goals ++ [last]) f) p (ns ++ [n]) q
  | [], last, f, p, r, q, ns, n, hns, hn => by
    obtain ⟨rfl, rfl⟩ := readAll_nil_gives.1 hns
    exact readAll_cons_gives.2 ⟨n, q, [], hn, readAll_nil_gives.2 ⟨rfl, rfl⟩, rfl⟩
  | g :: rest, last, f, p, r, q, ns, n, hns, hn => by
    obtain ⟨m, r', ms, hm, hms, rfl⟩ := readAll_cons_gives.1 hns
    exact readAll_cons_gives.2 ⟨m, r', ms ++ [n], hm, readAll_append_gives hms hn, rfl⟩

/-- A plan that gives a node has read its parts, in order, and put them together. -/
theorem run_gives {plan : Plan} {f : (k : Goal) → k ∈ plan.parts → Read Node} {p q : Progress} {n : Node}
    (h : Gives (plan.run f) p n q) : ∃ ns, Gives (readAll plan.parts f) p ns q ∧ plan.assemble ns = some n := by
  cases plan with
  | stuck parts fault =>
    obtain ⟨_, _, _, hthrow⟩ := gives_bind.1 h
    exact absurd hthrow not_gives_throw
  | leaf node =>
    obtain ⟨rfl, rfl⟩ := gives_pure.1 h
    exact ⟨[], readAll_nil_gives.2 ⟨rfl, rfl⟩, rfl⟩
  | one a g =>
    obtain ⟨na, r, ha, hpure⟩ := gives_bind.1 h
    obtain ⟨rfl, rfl⟩ := gives_pure.1 hpure
    exact ⟨[na], readAll_cons_gives.2 ⟨na, q, [], ha, readAll_nil_gives.2 ⟨rfl, rfl⟩, rfl⟩, rfl⟩
  | two a b g =>
    obtain ⟨na, r, ha, h⟩ := gives_bind.1 h
    obtain ⟨nb, r', hb, hpure⟩ := gives_bind.1 h
    obtain ⟨rfl, rfl⟩ := gives_pure.1 hpure
    refine ⟨[na, nb], readAll_cons_gives.2 ⟨na, r, [nb], ha, ?_, rfl⟩, rfl⟩
    exact readAll_cons_gives.2 ⟨nb, q, [], hb, readAll_nil_gives.2 ⟨rfl, rfl⟩, rfl⟩
  | three a b c g =>
    obtain ⟨na, r, ha, h⟩ := gives_bind.1 h
    obtain ⟨nb, r', hb, h⟩ := gives_bind.1 h
    obtain ⟨nc, r'', hc, hpure⟩ := gives_bind.1 h
    obtain ⟨rfl, rfl⟩ := gives_pure.1 hpure
    refine ⟨[na, nb, nc], readAll_cons_gives.2 ⟨na, r, [nb, nc], ha, ?_, rfl⟩, rfl⟩
    refine readAll_cons_gives.2 ⟨nb, r', [nc], hb, ?_, rfl⟩
    exact readAll_cons_gives.2 ⟨nc, q, [], hc, readAll_nil_gives.2 ⟨rfl, rfl⟩, rfl⟩
  | many parts g =>
    obtain ⟨ns, r, hns, hpure⟩ := gives_bind.1 h
    obtain ⟨rfl, rfl⟩ := gives_pure.1 hpure
    exact ⟨ns, hns, rfl⟩
  | manyThen parts last g =>
    obtain ⟨ns, r, hns, h⟩ := gives_bind.1 h
    obtain ⟨m, r', hm, hpure⟩ := gives_bind.1 h
    obtain ⟨rfl, rfl⟩ := gives_pure.1 hpure
    refine ⟨ns ++ [m], readAll_append_gives hns hm, ?_⟩
    simp [Plan.assemble]

/-! ## Accounts -/

/-- How a node came to be. -/
inductive Account where
  /-- By the rule for a goal, from the nodes of the parts. -/
  | rule (s : Snippet) (goal : Goal) (parts : List Account) (node : Node)
  /-- By keeping a macro invocation. -/
  | kept (s : Snippet) (c : Concrete) (name : String)
  /-- By reading the expression that the body of a macro invocation consists of, as text of an origin of
  its own. -/
  | expansion (s : Snippet) (c : Concrete) (origin : Origin) (inner : Account)

/-- The node that came to be. -/
def Account.node : Account → Node
  | .rule _ _ _ n => n
  | .kept s c name => .macroCall (s.span c) name
  | .expansion _ _ _ inner => inner.node

/-- Whether a goal is the expression of a macro invocation, for which there is no rule. -/
def Goal.isMacro : Goal → Bool
  | .expr c => c.type == "macro_invocation"
  | _ => false

/-- The snippet that is opened for an invocation of the macro `name`, as expansion number `i`. -/
def Opens (opaqueMacros : List String) (s : Snippet) (c : Concrete) (name : String) (i : Int) (inner : Snippet) :
    Prop :=
  ∃ tree body, bodyTree? opaqueMacros name c = some tree ∧ s.inside? tree = some body ∧
    inner = s.inner tree body ⟨i, some name⟩

/-- The patience that is left for a snippet that was opened: a body that is not shorter than the snippet
that holds it uses it up. -/
def Enters (t : Nat) (s inner : Snippet) (t' : Nat) : Prop :=
  (inner.body.length < s.body.length ∧ t' = t) ∨ (¬inner.body.length < s.body.length ∧ t = t' + 1)

/-- A statement is an expression without a semicolon. -/
def StmtOf (stmt d : Concrete) : Prop :=
  stmt.type ≠ "let_declaration" ∧
    ((stmt.type = "expression_statement" ∧ (stmt.children.any fun t => t.type == ";") = false ∧
        ∃ rest, stmt.parts = d :: rest) ∨
      (stmt.type ≠ "expression_statement" ∧ stmt.isExpr ∧ d = stmt))

/-- A block consists of an expression: there is one statement, without a semicolon behind it, and that
is the expression. -/
def Sole (block d : Concrete) : Prop := ∃ stmt, stmtSlots block.parts = [(stmt, none)] ∧ StmtOf stmt d

section Reads

variable (parser : Parser) (opaqueMacros : List String)

/-- The goals of a snippet have these accounts, one after the other. The first number is the patience;
the others are those of the next expansion before and after. -/
inductive Reads : Nat → Snippet → List Goal → Int → List Account → Int → Prop where
  | nil {t : Nat} {s : Snippet} {i : Int} : Reads t s [] i [] i
  /-- A rule reads its parts and puts them together. -/
  | rule {t : Nat} {s : Snippet} {g : Goal} {rest : List Goal} {i j k : Int} {parts more : List Account} {n : Node} :
    g.isMacro = false → Reads t s (plan s g).parts i parts j →
      (plan s g).assemble (parts.map Account.node) = some n → Reads t s rest j more k →
        Reads t s (g :: rest) i (.rule s g parts n :: more) k
  /-- An invocation without a body, or of a macro whose bodies are not looked at. -/
  | whole {t : Nat} {s : Snippet} {c : Concrete} {rest : List Goal} {name : String} {i k : Int}
      {more : List Account} :
    c.type = "macro_invocation" → macroName s c = .ok name → bodyTree? opaqueMacros name c = none →
      Reads t s rest i more k → Reads t s (.expr c :: rest) i (.kept s c name :: more) k
  /-- An invocation whose body has a syntax error. -/
  | broken {t : Nat} {s inner : Snippet} {c : Concrete} {rest : List Goal} {name what : String}
      {position i k : Int} {more : List Account} :
    c.type = "macro_invocation" → macroName s c = .ok name → Opens opaqueMacros s c name i inner →
      parse parser inner = .error (.malformed what position) → Reads t s rest (i + 1) more k →
        Reads t s (.expr c :: rest) i (.kept s c name :: more) k
  /-- An invocation whose body is not one expression. -/
  | apart {t t' : Nat} {s inner : Snippet} {c block : Concrete} {rest : List Goal} {name : String} {i j k : Int}
      {body : Account} {more : List Account} :
    c.type = "macro_invocation" → macroName s c = .ok name → Opens opaqueMacros s c name i inner →
      parse parser inner = .ok block → Enters t s inner t' → Reads t' inner [.block block] (i + 1) [body] j →
        soleExpr? body.node = none → Reads t s rest j more k →
          Reads t s (.expr c :: rest) i (.kept s c name :: more) k
  /-- An invocation whose body is one expression is replaced by it. -/
  | expansion {t t' : Nat} {s inner : Snippet} {c block d : Concrete} {rest : List Goal} {name : String}
      {i j k : Int} {e : Account} {more : List Account} :
    c.type = "macro_invocation" → macroName s c = .ok name → Opens opaqueMacros s c name i inner →
      parse parser inner = .ok block → Enters t s inner t' → Sole block d →
        Reads t' inner [.expr d] (i + 1) [e] j → Reads t s rest j more k →
          Reads t s (.expr c :: rest) i (.expansion s c ⟨i, some name⟩ e :: more) k

end Reads

variable {parser : Parser} {opaqueMacros : List String} {t : Nat} {s : Snippet} {i j k : Int}

theorem Reads.cons {g : Goal} {rest : List Goal} {a : Account} {more : List Account}
    (h : Reads parser opaqueMacros t s [g] i [a] j) (hrest : Reads parser opaqueMacros t s rest j more k) :
    Reads parser opaqueMacros t s (g :: rest) i (a :: more) k := by
  cases h with
  | rule hm hparts hn hnil =>
    cases hnil
    exact .rule hm hparts hn hrest
  | whole hc hname htree hnil =>
    cases hnil
    exact .whole hc hname htree hrest
  | broken hc hname ho hparse hnil =>
    cases hnil
    exact .broken hc hname ho hparse hrest
  | apart hc hname ho hparse hpatience hbody hsole hnil =>
    cases hnil
    exact .apart hc hname ho hparse hpatience hbody hsole hrest
  | expansion hc hname ho hparse hpatience hsole he hnil =>
    cases hnil
    exact .expansion hc hname ho hparse hpatience hsole he hrest

theorem Reads.uncons {g : Goal} {rest : List Goal} {accounts : List Account}
    (h : Reads parser opaqueMacros t s (g :: rest) i accounts k) :
    ∃ a more j, accounts = a :: more ∧ Reads parser opaqueMacros t s [g] i [a] j ∧
      Reads parser opaqueMacros t s rest j more k := by
  cases h with
  | rule hm hparts hn hrest => exact ⟨_, _, _, rfl, .rule hm hparts hn .nil, hrest⟩
  | whole hc hname htree hrest => exact ⟨_, _, _, rfl, .whole hc hname htree .nil, hrest⟩
  | broken hc hname ho hparse hrest => exact ⟨_, _, _, rfl, .broken hc hname ho hparse .nil, hrest⟩
  | apart hc hname ho hparse hpatience hbody hsole hrest =>
    exact ⟨_, _, _, rfl, .apart hc hname ho hparse hpatience hbody hsole .nil, hrest⟩
  | expansion hc hname ho hparse hpatience hsole he hrest =>
    exact ⟨_, _, _, rfl, .expansion hc hname ho hparse hpatience hsole he .nil, hrest⟩

/-- One step of a reading, by the rule for a goal. -/
theorem Reads.step {g : Goal} {goals : List Goal} {parts : List Account} {n : Node} (hm : g.isMacro = false)
    (hplan : (plan s g).parts = goals) (h : Reads parser opaqueMacros t s goals i parts j)
    (hn : (plan s g).assemble (parts.map Account.node) = some n) :
    Reads parser opaqueMacros t s [g] i [.rule s g parts n] j := by
  subst hplan
  exact .rule hm h hn .nil

/-- What was read for the account of a rule. -/
theorem Reads.of_rule {s' : Snippet} {g g' : Goal} {parts : List Account} {n : Node}
    (h : Reads parser opaqueMacros t s [g] i [.rule s' g' parts n] j) :
    s' = s ∧ g' = g ∧ Reads parser opaqueMacros t s (plan s g).parts i parts j ∧
      (plan s g).assemble (parts.map Account.node) = some n := by
  cases h with
  | rule _ hparts hn hnil =>
    cases hnil
    exact ⟨rfl, rfl, hparts, hn⟩

/-- What was read for the account of an expansion. -/
theorem Reads.of_expansion {s' : Snippet} {g : Goal} {c : Concrete} {o : Origin} {e : Account}
    (h : Reads parser opaqueMacros t s [g] i [.expansion s' c o e] j) :
    s' = s ∧ o.id = i ∧
      ∃ t' inner d, inner.origin = o ∧ Reads parser opaqueMacros t' inner [.expr d] (i + 1) [e] j := by
  cases h with
  | expansion _ _ ho _ _ _ he hnil =>
    cases hnil
    obtain ⟨tree, body, -, -, rfl⟩ := ho
    exact ⟨rfl, rfl, _, _, _, rfl, he⟩

/-- What rules, invocations that are kept, and expansions pass on from their parts holds of every account.
How an invocation came to be kept does not matter for it. -/
theorem Reads.forall_of_step {motive : Nat → Snippet → Account → Prop}
    (rule : ∀ {t s g i j parts n}, g.isMacro = false → Reads parser opaqueMacros t s (plan s g).parts i parts j →
      (plan s g).assemble (parts.map Account.node) = some n → (∀ p ∈ parts, motive t s p) →
        motive t s (.rule s g parts n))
    (kept : ∀ t s c name, motive t s (.kept s c name))
    (expansion : ∀ {t t' s inner c name i e}, Opens opaqueMacros s c name i inner → motive t' inner e →
      motive t s (.expansion s c ⟨i, some name⟩ e))
    {goals : List Goal} {accounts : List Account} (h : Reads parser opaqueMacros t s goals i accounts j) :
    ∀ a ∈ accounts, motive t s a := by
  induction h with
  | nil =>
    intro a ha
    cases ha
  | rule hm hparts hn _ ihparts ih => exact List.forall_mem_cons.2 ⟨rule hm hparts hn ihparts, ih⟩
  | whole _ _ _ _ ih => exact List.forall_mem_cons.2 ⟨kept .., ih⟩
  | broken _ _ _ _ _ ih => exact List.forall_mem_cons.2 ⟨kept .., ih⟩
  | apart _ _ _ _ _ _ _ _ _ ih => exact List.forall_mem_cons.2 ⟨kept .., ih⟩
  | expansion _ _ ho _ _ _ _ _ ihe ih => exact List.forall_mem_cons.2 ⟨expansion ho (ihe _ (.head _)), ih⟩

/-! ## Bodies that are one expression -/

/-- What a plan reads if it reads one thing. -/
theorem Reads.one {a : Goal} {f : Node → Node} {parts : List Account} {n : Node}
    (h : Reads parser opaqueMacros t s (Plan.one a f).parts i parts j)
    (hn : (Plan.one a f).assemble (parts.map Account.node) = some n) :
    ∃ e, parts = [e] ∧ Reads parser opaqueMacros t s [a] i [e] j ∧ n = f e.node := by
  obtain ⟨e, more, r, rfl, he, hnil⟩ := h.uncons
  cases hnil
  exact ⟨e, rfl, he, (Option.some.inj hn).symm⟩

/-- A statement without a semicolon is an expression that was read for it. -/
theorem Reads.stmtOf {stmt : Concrete} {parts : List Account} {n node : Node} {span : Span}
    (h : Reads parser opaqueMacros t s (stmtPlan s stmt).parts i parts j)
    (hn : (stmtPlan s stmt).assemble (parts.map Account.node) = some n) (hform : n = .stmt span .expr node) :
    ∃ d e, StmtOf stmt d ∧ Reads parser opaqueMacros t s [.expr d] i [e] j ∧ e.node = node := by
  rw [stmtPlan] at h hn
  by_cases hlet : stmt.type = "let_declaration"
  · rw [if_pos hlet] at h hn
    cases hpattern : stmt.child? "pattern" with
    | none =>
      rw [hpattern] at hn
      cases hn
    | some pattern =>
      rw [hpattern] at h hn
      cases hvalue : stmt.child? "value" with
      | none =>
        rw [hvalue] at h hn
        cases h
        cases hn
        cases hform
      | some value =>
        rw [hvalue] at h hn
        obtain ⟨e, rfl, he, rfl⟩ := h.one hn
        cases hform
  · rw [if_neg hlet] at h hn
    by_cases hstmt : stmt.type = "expression_statement"
    · rw [if_pos hstmt] at h hn
      cases hparts : stmt.parts with
      | nil =>
        rw [hparts] at hn
        cases hn
      | cons d rest =>
        rw [hparts] at h hn
        obtain ⟨e, rfl, he, rfl⟩ := h.one hn
        cases hsemi : stmt.children.any fun t => t.type == ";" with
        | true =>
          rw [hsemi] at hform
          cases hform
        | false =>
          rw [hsemi] at hform
          cases hform
          exact ⟨d, e, ⟨hlet, .inl ⟨hstmt, hsemi, rest, hparts⟩⟩, he, rfl⟩
    · rw [if_neg hstmt] at h hn
      by_cases hexpr : stmt.isExpr
      · rw [if_pos hexpr] at h hn
        obtain ⟨e, rfl, he, rfl⟩ := h.one hn
        cases hform
        exact ⟨stmt, e, ⟨hlet, .inr ⟨hstmt, hexpr, rfl⟩⟩, he, rfl⟩
      · rw [if_neg hexpr] at h hn
        cases hn
        cases hform

/-- Closing a statement by a semicolon behind it leaves no expression at the end of a block. -/
theorem closeBy_expr {semicolon : Option Nat} {n node : Node} {span : Span}
    (h : closeBy s semicolon n = .stmt span .expr node) : semicolon = none ∧ n = .stmt span .expr node := by
  cases semicolon with
  | none => exact ⟨rfl, h⟩
  | some stop =>
    cases n with
    | stmt span' form node' => cases form <;> cases h
    | _ => cases h

theorem eq_of_soleExpr? {n node : Node} (h : soleExpr? n = some node) :
    ∃ span span', n = .block span [.stmt span' .expr node] := by
  unfold soleExpr? at h
  split at h
  · cases h
    exact ⟨_, _, rfl⟩
  · cases h

/-- The expression that a block was found to consist of was read on its own. -/
theorem Reads.sole {block : Concrete} {b : Account} {node : Node}
    (h : Reads parser opaqueMacros t s [.block block] i [b] j) (hb : soleExpr? b.node = some node) :
    ∃ d e, Sole block d ∧ Reads parser opaqueMacros t s [.expr d] i [e] j ∧ e.node = node := by
  cases h with
  | rule hm hparts hn hnil =>
    cases hnil
    obtain ⟨span, span', hn'⟩ := eq_of_soleExpr? hb
    rw [Account.node, ← Option.some.inj hn, Node.block.injEq] at hn'
    obtain ⟨-, hstmts⟩ := hn'
    rw [show (plan s (.block block)).parts = (stmtSlots block.parts).map fun slot => Goal.stmt slot.1 from rfl]
      at hparts
    cases hslots : stmtSlots block.parts with
    | nil =>
      rw [hslots] at hstmts
      cases hstmts
    | cons slot slots =>
      rw [hslots] at hstmts hparts
      obtain ⟨a, more, r, rfl, ha, hmore⟩ := hparts.uncons
      simp only [List.map_cons, List.zipWith_cons_cons, List.cons.injEq] at hstmts
      obtain ⟨hclose, hrest⟩ := hstmts
      obtain ⟨hsemi, hstmt⟩ := closeBy_expr hclose
      cases slots with
      | cons slot' slots =>
        obtain ⟨a', more', r', rfl, -⟩ := hmore.uncons
        cases hrest
      | nil =>
        cases hmore
        cases ha with
        | rule _ hinner hstmtNode hnil =>
          cases hnil
          obtain ⟨d, e, hd, he, henode⟩ := Reads.stmtOf hinner hstmtNode hstmt
          obtain ⟨stmt, semicolon⟩ := slot
          cases hsemi
          exact ⟨d, e, ⟨stmt, hslots, hd⟩, he, henode⟩

/-! ## Readings that succeed have accounts -/

theorem reads_of_readAll : ∀ {goals : List Goal} {f : (g : Goal) → g ∈ goals → Read Node} {p q : Progress}
    {ns : List Node},
    (∀ g h p n q, Gives (f g h) p n q → ∃ a, a.node = n ∧
      Reads parser opaqueMacros t s [g] p.nextOrigin [a] q.nextOrigin) →
    Gives (readAll goals f) p ns q →
      ∃ accounts, accounts.map Account.node = ns ∧
        Reads parser opaqueMacros t s goals p.nextOrigin accounts q.nextOrigin
  | [], _, _, _, _, _, h => by
    obtain ⟨rfl, rfl⟩ := readAll_nil_gives.1 h
    exact ⟨[], rfl, .nil⟩
  | g :: rest, f, p, q, ns, hf, h => by
    obtain ⟨n, r, ms, hn, hms, rfl⟩ := readAll_cons_gives.1 h
    obtain ⟨a, rfl, ha⟩ := hf g (.head _) p n r hn
    obtain ⟨more, rfl, hmore⟩ := reads_of_readAll (fun k hk => hf k (.tail _ hk)) hms
    exact ⟨a :: more, rfl, ha.cons hmore⟩

theorem reads_of_run {g : Goal} (hm : g.isMacro = false) {f : (k : Goal) → k ∈ (plan s g).parts → Read Node}
    {p q : Progress} {n : Node}
    (hf : ∀ k h p n q, Gives (f k h) p n q → ∃ a, a.node = n ∧
      Reads parser opaqueMacros t s [k] p.nextOrigin [a] q.nextOrigin)
    (h : Gives ((plan s g).run f) p n q) :
    ∃ a, a.node = n ∧ Reads parser opaqueMacros t s [g] p.nextOrigin [a] q.nextOrigin := by
  obtain ⟨ns, hns, hn⟩ := run_gives h
  obtain ⟨parts, rfl, hparts⟩ := reads_of_readAll hf hns
  exact ⟨.rule s g parts n, rfl, .rule hm hparts hn .nil⟩

/-- An invocation whose body was read is replaced by the expression that the body consists of, or else
it is kept. -/
theorem reads_of_body {t' : Nat} {c block : Concrete} {name text : String} {inner : Snippet} {body : Account}
    {q : Progress} {n : Node} (hc : c.type = "macro_invocation") (hname : macroName s c = .ok name)
    (ho : Opens opaqueMacros s c name i inner) (hparse : parse parser inner = .ok block)
    (hpatience : Enters t s inner t') {p : Progress}
    (hbody : Reads parser opaqueMacros t' inner [.block block] (i + 1) [body] p.nextOrigin)
    (h : Gives (match soleExpr? body.node with
      | some node => pure node
      | none => do
        note text
        pure (.macroCall (s.span c) name)) p n q) :
    ∃ a, a.node = n ∧ Reads parser opaqueMacros t s [.expr c] i [a] q.nextOrigin := by
  cases hsole : soleExpr? body.node with
  | some node =>
    rw [hsole] at h
    obtain ⟨rfl, rfl⟩ := gives_pure.1 h
    obtain ⟨d, e, hd, he, rfl⟩ := hbody.sole hsole
    exact ⟨.expansion s c ⟨i, some name⟩ e, rfl, .expansion hc hname ho hparse hpatience hd he .nil⟩
  | none =>
    rw [hsole] at h
    obtain ⟨_, r, hnote, hkept⟩ := gives_bind.1 h
    obtain ⟨rfl, rfl⟩ := gives_pure.1 hkept
    refine ⟨.kept s c name, rfl, .apart hc hname ho hparse hpatience hbody hsole ?_⟩
    rw [gives_note hnote]
    exact .nil

/-- Everything but macro invocations is read by a rule. -/
theorem build_of_not_isMacro {g : Goal} (hm : g.isMacro = false) :
    build parser opaqueMacros t s g = (plan s g).run fun k _ => build parser opaqueMacros t s k := by
  cases g with
  | expr c =>
    rw [build, if_neg (beq_eq_false_iff_ne.1 hm)]
  | block c =>
    rw [build]
    intro _ h
    cases h
  | stmt c =>
    rw [build]
    intro _ h
    cases h

/-- Every node that is read has an account. -/
theorem reads_of_build (patience : Nat) (s : Snippet) (goal : Goal) {p q : Progress} {n : Node}
    (h : Gives (build parser opaqueMacros patience s goal) p n q) :
    ∃ a, a.node = n ∧ Reads parser opaqueMacros patience s [goal] p.nextOrigin [a] q.nextOrigin := by
  match goal with
  | .block c =>
    rw [build_of_not_isMacro rfl] at h
    exact reads_of_run rfl (fun k hk _ _ _ hgives => reads_of_build patience s k hgives) h
  | .stmt c =>
    rw [build_of_not_isMacro rfl] at h
    exact reads_of_run rfl (fun k hk _ _ _ hgives => reads_of_build patience s k hgives) h
  | .expr c =>
    rw [build] at h
    by_cases hc : c.type = "macro_invocation"
    · rw [if_pos hc] at h
      obtain ⟨name, r, hread, h₁⟩ := gives_bind.1 h
      obtain ⟨hname, hr⟩ := gives_ofExcept.1 hread
      subst r
      cases htree : bodyTree? opaqueMacros name c with
      | none =>
        rw [htree] at h₁
        obtain ⟨hn, hq⟩ := gives_pure.1 h₁
        subst hn hq
        exact ⟨.kept s c name, rfl, .whole hc hname htree .nil⟩
      | some tree =>
        rw [htree] at h₁
        obtain ⟨origin, r, hfresh, h₂⟩ := gives_bind.1 h₁
        obtain ⟨horigin, hr⟩ := gives_freshOrigin hfresh
        subst origin
        cases hinside : s.inside? tree with
        | none =>
          rw [hinside] at h₂
          exact absurd h₂ not_gives_throw
        | some body =>
          rw [hinside] at h₂
          have ho : Opens opaqueMacros s c name p.nextOrigin (s.inner tree body ⟨p.nextOrigin, some name⟩) :=
            ⟨tree, body, htree, hinside, rfl⟩
          simp only at h₂
          cases hparse : parse parser (s.inner tree body ⟨p.nextOrigin, some name⟩) with
          | error fault =>
            rw [hparse] at h₂
            cases fault with
            | malformed what position =>
              obtain ⟨_, r', hnote, h₃⟩ := gives_bind.1 h₂
              obtain ⟨hn, hq⟩ := gives_pure.1 h₃
              refine ⟨.kept s c name, hn.symm, .broken hc hname ho hparse ?_⟩
              rw [hq, gives_note hnote, hr]
              exact .nil
            | _ => exact absurd h₂ not_gives_throw
          | ok block =>
            rw [hparse] at h₂
            simp only at h₂
            split at h₂
            · rename_i hshort
              obtain ⟨node, r', hnode, h₃⟩ := gives_bind.1 h₂
              obtain ⟨b, rfl, hb⟩ := reads_of_build patience _ _ hnode
              rw [hr] at hb
              exact reads_of_body hc hname ho hparse (.inl ⟨hshort, rfl⟩) hb h₃
            · rename_i hlong
              split at h₂
              · obtain ⟨_, _, hthrow, _⟩ := gives_bind.1 h₂
                exact absurd hthrow not_gives_throw
              · obtain ⟨node, r', hnode, h₃⟩ := gives_bind.1 h₂
                obtain ⟨b, rfl, hb⟩ := reads_of_build _ _ _ hnode
                rw [hr] at hb
                exact reads_of_body hc hname ho hparse (.inr ⟨hlong, rfl⟩) hb h₃
    · rw [if_neg hc] at h
      have hm : (Goal.expr c).isMacro = false := beq_eq_false_iff_ne.2 hc
      exact reads_of_run hm (fun k hk _ _ _ hgives => reads_of_build patience s k hgives) h
termination_by (patience, s.body.length, goal.measure)
decreasing_by
  · exact .right _ (.right _ (lt_of_mem_parts ‹_›))
  · exact .right _ (.right _ (lt_of_mem_parts ‹_›))
  · exact .left _ _ (by omega)
  · exact .right _ (.left _ _ ‹_›)
  · exact .right _ (.right _ (lt_of_mem_parts ‹_›))

/-! ## Files -/

/-- The span of a whole file. -/
def wholeSpan (text : String) : Span := ⟨0, text.toList.length, .root⟩

/-- A file that is read has an account: the block of its statements, whose node then reaches over the
whole text. -/
theorem reads_of_read {text fileName : String} {start after : Progress} {parsed : ParsedSource}
    (h : read parser opaqueMacros text fileName start = (.ok parsed, after)) :
    ∃ block a, parse parser (Snippet.ofFile text.toList) = .ok block ∧
      Reads parser opaqueMacros endurance (Snippet.ofFile text.toList) [.block block] start.nextOrigin [a]
          after.nextOrigin ∧
        parsed = ⟨a.node.withSpan (wholeSpan text), ⟨text, fileName⟩⟩ := by
  rw [read] at h
  cases hread : (readTree parser opaqueMacros text.toList).run start with
  | mk result progress =>
    simp only [hread, Prod.mk.injEq] at h
    obtain ⟨hresult, rfl⟩ := h
    cases result with
    | error fault => cases hresult
    | ok root =>
      cases hresult
      have hgives : Gives (readTree parser opaqueMacros text.toList) start root _ := hread
      obtain ⟨block, r, hblock, h₁⟩ := gives_bind.1 hgives
      obtain ⟨hparse, hr⟩ := gives_ofExcept.1 hblock
      subst hr
      obtain ⟨node, r, hbuild, hpure⟩ := gives_bind.1 h₁
      obtain ⟨hroot, hr⟩ := gives_pure.1 hpure
      subst hroot hr
      obtain ⟨a, ha, hreads⟩ := reads_of_build _ _ _ hbuild
      subst ha
      exact ⟨block, a, hparse, hreads, rfl⟩

end Reader

end NestLint
