import NestLint.Proofs.Reader.Assembly

/-!
# Origins of what is read

Every expansion that is opened gets a number of its own, larger than that of the text around it, and
every node is from the text of a snippet that was opened. So the nodes of an expansion are marked as
what nobody wrote by hand, unless `?` or type arguments put the span of the text around it over its
root.

* `Opened`, `Stands`: the expansions within an account, and where their nodes stand in the tree;
* `numbers_of_reads`, `origin_of_reads`: how expansions are numbered, and where nodes are from;
* `exists_stands`, `placed_of_stands`: every expansion stands somewhere, and its node is in the tree;
* `marked_iff_of_stands`: an expansion keeps its mark exactly if nothing was put over its root.
-/

namespace NestLint

namespace Reader

/-! ## Expansions within an account -/

/-- An account within another one. -/
inductive Account.Within (x : Account) : Account → Prop where
  | self : Within x x
  | part {s : Snippet} {g : Goal} {parts : List Account} {n : Node} {p : Account} :
    p ∈ parts → Within x p → Within x (.rule s g parts n)
  | inner {s : Snippet} {c : Concrete} {o : Origin} {e : Account} : Within x e → Within x (.expansion s c o e)

/-- The origin `o` is that of an expansion within an account. -/
def Opened (a : Account) (o : Origin) : Prop := ∃ s c e, Account.Within (.expansion s c o e) a

/-- Where the node of `x` stands in the node of an account, over which the span `outer` is put if there
is one: as it is, or with the span `cover` put over it. -/
inductive Stands (x : Account) (cover : Option Span) : Account → Option Span → Prop where
  | here : Stands x cover x cover
  | inner {s : Snippet} {c : Concrete} {o : Origin} {e : Account} {outer : Option Span} :
    Stands x cover e outer → Stands x cover (.expansion s c o e) outer
  /-- Of two spans that are put over a node, the outer one stays. -/
  | respanned {s : Snippet} {c : Concrete} {p : Account} {n : Node} {outer : Option Span} :
    (Goal.expr c).respans → Stands x cover p (some (outer.getD (s.span c))) →
      Stands x cover (.rule s (.expr c) [p] n) outer
  | part {s : Snippet} {g : Goal} {parts : List Account} {n : Node} {p : Account} {outer : Option Span} :
    g.respans = false → p ∈ parts → Stands x cover p none → Stands x cover (.rule s g parts n) outer

/-- The rules within an account make use of all that was read for them: no range has two bounds on one
side. -/
def Account.Complete (a : Account) : Prop :=
  ∀ s g parts n, Account.Within (.rule s g parts n) a → ∀ p ∈ parts, p ∈ g.kept parts

/-- A node over which a span may have been put. -/
def covered (cover : Option Span) (n : Node) : Node :=
  match cover with
  | none => n
  | some span => n.withSpan span

theorem children_covered (cover : Option Span) (n : Node) : (covered cover n).children = n.children := by
  cases cover with
  | none => rfl
  | some span => exact n.children_withSpan span

theorem covered_withSpan (outer : Option Span) (span : Span) (n : Node) :
    covered outer (n.withSpan span) = covered (some (outer.getD span)) n := by
  cases outer with
  | none => rfl
  | some outer => cases n <;> rfl

section Numbers

variable {parser : Parser} {opaqueMacros : List String} {t : Nat} {s : Snippet} {goals : List Goal}
  {accounts : List Account} {i j : Int}

theorem length_of_reads (h : Reads parser opaqueMacros t s goals i accounts j) : accounts.length = goals.length := by
  induction h with
  | nil => rfl
  | rule _ _ _ _ _ ih => exact congrArg (· + 1) ih
  | whole _ _ _ _ ih => exact congrArg (· + 1) ih
  | broken _ _ _ _ _ ih => exact congrArg (· + 1) ih
  | apart _ _ _ _ _ _ _ _ _ ih => exact congrArg (· + 1) ih
  | expansion _ _ _ _ _ _ _ _ _ ih => exact congrArg (· + 1) ih

/-- A rule that was followed made its node in one of the ways there are. -/
theorem made_of_reads {g : Goal} {parts : List Account} {n : Node}
    (hparts : Reads parser opaqueMacros t s (plan s g).parts i parts j)
    (hn : (plan s g).assemble (parts.map Account.node) = some n) : Made s g (parts.map Account.node) n := by
  refine made_of_assemble hn ?_
  rw [List.length_map]
  exact length_of_reads hparts

theorem not_opened_kept {c : Concrete} {name : String} {o : Origin} : ¬Opened (.kept s c name) o := by
  rintro ⟨_, _, _, hwithin⟩
  cases hwithin

/-- Numbers only go up, and the expansions within the accounts got those in between. -/
theorem numbers_of_reads (h : Reads parser opaqueMacros t s goals i accounts j) :
    i ≤ j ∧ ∀ a ∈ accounts, ∀ o, Opened a o → i ≤ o.id ∧ o.id < j := by
  -- The three ways to keep an invocation differ only in the numbers that they use up.
  have kept {s : Snippet} {c : Concrete} {name : String} {more : List Account} {i j k : Int} (hij : i ≤ j)
      (ih : j ≤ k ∧ ∀ a ∈ more, ∀ o, Opened a o → j ≤ o.id ∧ o.id < k) :
      i ≤ k ∧ ∀ a ∈ Account.kept s c name :: more, ∀ o, Opened a o → i ≤ o.id ∧ o.id < k := by
    refine ⟨by omega, fun a ha o ho => ?_⟩
    obtain rfl | ha := List.mem_cons.1 ha
    · exact absurd ho not_opened_kept
    · have := ih.2 a ha o ho
      omega
  induction h with
  | nil => exact ⟨Int.le_refl _, nofun⟩
  | @rule t s g rest i j k parts more n _ _ _ _ ihparts ihrest =>
    obtain ⟨hij, hparts⟩ := ihparts
    obtain ⟨hjk, hmore⟩ := ihrest
    refine ⟨by omega, fun a ha o ho => ?_⟩
    obtain rfl | ha := List.mem_cons.1 ha
    · obtain ⟨s', c, e, hwithin⟩ := ho
      cases hwithin with
      | part hp hwithin =>
        have := hparts _ hp o ⟨s', c, e, hwithin⟩
        omega
    · have := hmore a ha o ho
      omega
  | whole _ _ _ _ ih => exact kept (Int.le_refl _) ih
  | broken _ _ _ _ _ ih => exact kept (by omega) ih
  | apart _ _ _ _ _ _ _ _ ihbody ih => exact kept (by omega) ih
  | @expansion t t' s inner c block d rest name i j k e more _ _ _ _ _ _ _ _ ihe ih =>
    refine ⟨by omega, fun a ha o ho => ?_⟩
    obtain rfl | ha := List.mem_cons.1 ha
    · obtain ⟨s', c', e', hwithin⟩ := ho
      cases hwithin with
      | self =>
        show i ≤ i ∧ i < k
        omega
      | inner hwithin =>
        have := ihe.2 e (.head _) o ⟨s', c', e', hwithin⟩
        omega
    · have := ih.2 a ha o ho
      omega

/-- One of several accounts is the account of one of the goals. -/
theorem reads_of_mem : ∀ {goals : List Goal} {accounts : List Account} {i : Int},
    Reads parser opaqueMacros t s goals i accounts j → ∀ {a : Account}, a ∈ accounts →
      ∃ g ∈ goals, ∃ i' j', Reads parser opaqueMacros t s [g] i' [a] j' ∧ i ≤ i' ∧ j' ≤ j
  | [], _, _, h, a, ha => by
    cases h
    cases ha
  | g :: rest, accounts, i, h, a, ha => by
    obtain ⟨a', more, r, rfl, hfirst, hmore⟩ := h.uncons
    have hir := (numbers_of_reads hfirst).1
    have hrj := (numbers_of_reads hmore).1
    obtain rfl | ha := List.mem_cons.1 ha
    · exact ⟨g, .head _, i, r, hfirst, Int.le_refl _, hrj⟩
    · obtain ⟨g', hg, i', j', ha, hi, hj⟩ := reads_of_mem hmore ha
      exact ⟨g', .tail _ hg, i', j', ha, by omega, hj⟩

/-! ## Where nodes are from -/

/-- Every node is from the text of the snippet, or from an expansion within its account. -/
theorem origin_of_reads (h : Reads parser opaqueMacros t s goals i accounts j) :
    ∀ a ∈ accounts, ∀ n ∈ a.node.nodes, n.span.origin = s.origin ∨ Opened a n.span.origin := by
  refine h.forall_of_step
    (motive := fun _ s a => ∀ n ∈ a.node.nodes, n.span.origin = s.origin ∨ Opened a n.span.origin) ?_ ?_ ?_
  · intro t s g i j parts n _ hparts hn ih m hm
    obtain ho | ⟨m', hm', l, hl, ho⟩ := (made_of_reads hparts hn).origin hm
    · exact .inl ho
    · obtain ⟨p, hp, rfl⟩ := List.mem_map.1 hm'
      rw [ho]
      obtain hs | ⟨s', c, e, hwithin⟩ := ih p hp l hl
      · exact .inl hs
      · exact .inr ⟨s', c, e, .part hp hwithin⟩
  · intro t s c name n hn
    obtain rfl | hn := Node.mem_nodes_iff.1 hn
    · exact .inl rfl
    · cases hn
  · intro t t' s inner c name i e ho ih m hm
    obtain ⟨tree, body, -, -, rfl⟩ := ho
    right
    obtain hs | ⟨s', c', e', hwithin⟩ := ih m hm
    · rw [hs]
      exact ⟨s, c, e, .self⟩
    · exact ⟨s', c', e', .inner hwithin⟩

/-! ## Where expansions stand -/

variable {s' : Snippet} {c : Concrete} {o : Origin} {e a : Account} {cover outer : Option Span}

/-- The rule that takes over a node has one part. -/
theorem eq_singleton_of_respans {s : Snippet} {g : Goal} {parts : List Account} {n : Node} (hg : g.respans)
    (h : Made s g (parts.map Account.node) n) :
    ∃ c p, g = .expr c ∧ parts = [p] ∧ n = p.node.withSpan (s.span c) := by
  generalize hms : parts.map Account.node = ms at h
  cases h with
  | around hg' _ =>
    rw [hg] at hg'
    cases hg'
  | @respanned c m _ =>
    obtain ⟨p, rfl, rfl⟩ := List.map_eq_singleton_iff.1 hms
    exact ⟨c, p, rfl, rfl, rfl⟩
  | block _ => cases hg

/-- Every expansion within an account stands somewhere in it. -/
theorem exists_stands {x : Account} (h : Account.Within x a) :
    ∀ {t : Nat} {s : Snippet} {g : Goal} {i j : Int} (outer : Option Span), Reads parser opaqueMacros t s [g] i [a] j →
      ∃ cover, Stands x cover a outer := by
  induction h with
  | self => exact fun outer _ => ⟨outer, .here⟩
  | @part s'' g' parts n p hp _ ih =>
    intro t s g i j outer hreads
    obtain ⟨rfl, rfl, hparts, hn⟩ := hreads.of_rule
    obtain ⟨k, -, i', j', hp', -⟩ := reads_of_mem hparts hp
    cases hg : g'.respans with
    | false =>
      obtain ⟨cover, hstands⟩ := ih none hp'
      exact ⟨cover, .part hg hp hstands⟩
    | true =>
      obtain ⟨c, p', rfl, rfl, -⟩ := eq_singleton_of_respans hg (made_of_reads hparts hn)
      obtain rfl := List.mem_singleton.1 hp
      obtain ⟨cover, hstands⟩ := ih (some (outer.getD (s''.span c))) hp'
      exact ⟨cover, .respanned hg hstands⟩
  | inner _ ih =>
    intro t s g i j outer hreads
    obtain ⟨rfl, rfl, t', inner, d, rfl, he⟩ := hreads.of_expansion
    obtain ⟨cover, hstands⟩ := ih outer he
    exact ⟨cover, .inner hstands⟩

/-- An expansion that stands in an account is newer than the text around it, and than whatever was put
over its root. -/
theorem newer_of_stands (h : Stands (.expansion s' c o e) cover a outer) :
    ∀ {t : Nat} {s : Snippet} {g : Goal} {i j : Int}, Reads parser opaqueMacros t s [g] i [a] j → s.origin.id < i →
      (∀ span ∈ outer, span.origin.id < i) →
        ∃ t' inner d k, inner.origin = o ∧ Reads parser opaqueMacros t' inner [.expr d] (o.id + 1) [e] k ∧
          i ≤ o.id ∧ s'.origin.id < o.id ∧ ∀ span ∈ cover, span.origin.id < o.id := by
  induction h with
  | here =>
    intro t s g i j hreads hs houter
    obtain ⟨rfl, rfl, t', inner, d, hinner, he⟩ := hreads.of_expansion
    exact ⟨t', inner, d, j, hinner, he, Int.le_refl _, hs, houter⟩
  | inner _ ih =>
    intro t s g i j hreads hs houter
    obtain ⟨rfl, rfl, t', inner, d, rfl, he⟩ := hreads.of_expansion
    obtain ⟨t'', inner', d', k, hinner, he', hi, hrest⟩ := ih he (by omega) fun span hspan => by
      have := houter span hspan
      omega
    exact ⟨t'', inner', d', k, hinner, he', by omega, hrest⟩
  | @respanned s'' c' p n outer _ _ ih =>
    intro t s g i j hreads hs houter
    obtain ⟨rfl, -, hparts, -⟩ := hreads.of_rule
    obtain ⟨g', -, i', j', hp, hi, -⟩ := reads_of_mem hparts (List.mem_singleton_self p)
    have hcover : (outer.getD (s''.span c')).origin.id < i' := by
      cases outer with
      | none => exact Int.lt_of_lt_of_le hs hi
      | some span => exact Int.lt_of_lt_of_le (houter span rfl) hi
    obtain ⟨t', inner, d, k, hinner, he, hi', hrest⟩ := ih hp (by omega) fun span hspan => by
      cases hspan
      exact hcover
    exact ⟨t', inner, d, k, hinner, he, by omega, hrest⟩
  | part hg hp _ ih =>
    intro t s g i j hreads hs houter
    obtain ⟨rfl, rfl, hparts, -⟩ := hreads.of_rule
    obtain ⟨g', -, i', j', hp, hi, -⟩ := reads_of_mem hparts hp
    obtain ⟨t', inner, d, k, hinner, he, hi', hrest⟩ := ih hp (by omega) nofun
    exact ⟨t', inner, d, k, hinner, he, by omega, hrest⟩

/-- The node of an expansion that stands in an account is in its node, below the root if that is a
statement. -/
theorem placed_of_stands (h : Stands (.expansion s' c o e) cover a outer) :
    ∀ {t : Nat} {s : Snippet} {g : Goal} {i j : Int}, Reads parser opaqueMacros t s [g] i [a] j → a.Complete →
      covered cover e.node ∈ (covered outer a.node).nodes ∧
        ((∃ d, g = .stmt d) → covered cover e.node ∈ a.node.children.flatMap Node.nodes) := by
  induction h with
  | here =>
    intro t s g i j hreads hcomplete
    refine ⟨Node.mem_nodes_self _, ?_⟩
    rintro ⟨d, rfl⟩
    cases hreads
  | inner _ ih =>
    intro t s g i j hreads hcomplete
    obtain ⟨rfl, rfl, t', inner, d, rfl, he⟩ := hreads.of_expansion
    refine ⟨(ih he fun s g parts n hwithin => hcomplete s g parts n (.inner hwithin)).1, ?_⟩
    rintro ⟨d', rfl⟩
    cases hreads
  | @respanned s'' c' p n outer hc _ ih =>
    intro t s g i j hreads hcomplete
    obtain ⟨rfl, rfl, hparts, hn⟩ := hreads.of_rule
    obtain ⟨g', -, i', j', hp, -⟩ := reads_of_mem hparts (List.mem_singleton_self p)
    obtain ⟨_, _, hc', hp', rfl⟩ := eq_singleton_of_respans hc (made_of_reads hparts hn)
    cases hc'
    cases hp'
    constructor
    · rw [Account.node, covered_withSpan]
      exact (ih hp fun s g parts n hwithin => hcomplete s g parts n (.part (.head _) hwithin)).1
    · rintro ⟨d, hd⟩
      cases hd
  | @part s'' g' parts n p outer hg hp _ ih =>
    intro t s g i j hreads hcomplete
    obtain ⟨rfl, rfl, hparts, hn⟩ := hreads.of_rule
    have hmade := made_of_reads hparts hn
    have hkept : p.node ∈ g'.kept (parts.map Account.node) := by
      rw [kept_map]
      exact List.mem_map_of_mem (hcomplete _ _ _ _ .self p hp)
    obtain ⟨k, hk, i', j', hp', -⟩ := reads_of_mem hparts hp
    obtain ⟨hplaced, hstmt⟩ := ih hp' fun s g parts n hwithin => hcomplete s g parts n (.part hp hwithin)
    -- A block may close its statements, but keeps what is below them.
    have hbelow : covered cover e.node ∈ n.children.flatMap Node.nodes := by
      cases g' with
      | block c =>
        obtain ⟨slot, -, rfl⟩ := List.mem_map.1 hk
        exact hmade.below hg hkept (hstmt ⟨_, rfl⟩)
      | expr c => exact hmade.inside hg (fun _ h => by cases h) hkept hplaced
      | stmt c => exact hmade.inside hg (fun _ h => by cases h) hkept hplaced
    refine ⟨?_, fun _ => hbelow⟩
    rw [Node.mem_nodes_iff, children_covered]
    exact .inr hbelow

/-! ## Marks -/

/-- The node `n` is from the expansion with the origin `o` and the account `e`, or from one inside it. -/
def Marked (o : Origin) (e : Account) (n : Node) : Prop := n.span.origin = o ∨ Opened e n.span.origin

/-- What is marked is newer than what is as old as the expansion. -/
theorem Marked.le {inner : Snippet} {d : Concrete} {n : Node} {k : Int} (h : Marked o e n)
    (he : Reads parser opaqueMacros t inner [.expr d] (o.id + 1) [e] k) : o.id ≤ n.span.origin.id := by
  obtain h | h := h
  · exact Int.le_of_eq (congrArg Origin.id h.symm)
  · have := (numbers_of_reads he).2 e (.head _) _ h
    omega

theorem marked_of_reads {inner : Snippet} {d : Concrete} {k : Int} (ho : inner.origin = o)
    (he : Reads parser opaqueMacros t inner [.expr d] (o.id + 1) [e] k) {n : Node} (hn : n ∈ e.node.nodes) :
    Marked o e n := by
  rw [Marked, ← ho]
  exact origin_of_reads he e (.head _) n hn

/-- An expansion keeps its mark exactly if nothing was put over its root. -/
theorem marked_iff_of_stands {g : Goal} (h : Stands (.expansion s' c o e) cover a outer)
    (hreads : Reads parser opaqueMacros t s [g] i [a] j) (hs : s.origin.id < i)
    (houter : ∀ span ∈ outer, span.origin.id < i) :
    (∀ n ∈ (covered cover e.node).nodes, Marked o e n) ↔ cover = none := by
  obtain ⟨t', inner, d, k, ho, he, -, -, hcover⟩ := newer_of_stands h hreads hs houter
  constructor
  · intro hmarked
    cases cover with
    | none => rfl
    | some span =>
      have hroot := (hmarked _ (Node.mem_nodes_self _)).le he
      rw [covered, Node.span_withSpan] at hroot
      have := hcover span rfl
      omega
  · rintro rfl n hn
    exact marked_of_reads ho he hn

end Numbers

end Reader

end NestLint
