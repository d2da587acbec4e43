import NestLint.Proofs.Match.Captured

/-!
# The options of a pattern

Every pattern may have a name and a required kind. A pattern that is matched by a node has given the node its name,
whatever the pattern is and wherever it stands in a larger one. The required kind is another matter: a pattern for
anything and an optional pattern do not look at it, so a node of any kind may match them.

The options are `bind_name` and `check_kind` of `BasePat`, which `base_check` looks at, but not every `check` goes
through it.

* `check_withKind`: where the required kind makes no difference;
* `options_of_check`: the name and the kind of every pattern that is matched;
* `any_of_other_kind`: a required kind that is not heeded.
-/

namespace NestLint.Pattern

/-- The pattern with another required kind. -/
def withKind (p : Pattern) (kind : Option Kind) : Pattern := p.withOptions { p.options with kind }

/-- A pattern that does not look at its required kind is checked in the same way whatever kind is required. -/
theorem check_withKind {p : Pattern} (h : p.heedsKind = false) (kind : Option Kind) (item : Option Site)
    (c : Captures Site) : (p.withKind kind).check item c = p.check item c := by
  cases p with
  | any o b =>
    show (any { o with kind } b).check item c = _
    cases item <;> simp only [check]
  | absent o =>
    show (absent { o with kind }).check item c = _
    simp only [check]
  | optional o p =>
    show (optional { o with kind } p).check item c = _
    cases item <;> simp only [check]
  | bare o lack =>
    show (bare { o with kind } lack).check item c = _
    simp only [check]
  | _ => cases h

/-- Whenever a check succeeds, the pattern is matched by its item if there is one; and of all patterns in it that are
matched, each by a node: the name of the pattern stands for the node afterwards, and the node has the required kind
if the pattern looks at that. The patterns that do not are those for anything and the optional ones, and these are
checked in the same way whatever kind is required, so the node has that kind only if it happens to. -/
theorem options_of_check (p : Pattern) (item : Option Site) (c : Captures Site) :
    (∀ c', (p.check item c).Gives c' →
      (∀ site ∈ item, (p, site) ∈ p.places item c) ∧
        ∀ q site, (q, site) ∈ p.places item c →
          (∀ name ∈ q.options.name, ∃ node, c'.item? name = some node ∧ node.same site) ∧
            (q.heedsKind → q.requiredKind.all (· == site.kind))) ∧
      (p.heedsKind = false → ∀ kind, (p.withKind kind).check item c = p.check item c) := by
  refine ⟨fun c' h => ⟨fun site hsite => ?_, fun q site hq => ⟨fun name hname => ?_, ?_⟩⟩, fun h kind => ?_⟩
  · obtain rfl := Option.mem_def.1 hsite
    exact self_mem_places h
  · exact (grows_of_check h).found name site (Captures.mem_namesAt.2 ⟨q, hq, hname⟩)
  · exact (mem_places hq).kind
  · exact check_withKind h kind item c

/-- An `if` under a name, which may be missing; of what is there a block is asked. -/
def optionalIf : Pattern :=
  .optional { name := some "whole", kind := some .block }
    (.ifThen { name := some "whole" } (.capture "x") .wildcard .wildcard)

theorem options_of_check_optionalIf :
    let item := some (Site.root emptyIf)
    let after : Captures Site := [("x", some ⟨1, .path ⟨3, 4, .root⟩ ["a"]⟩), ("whole", some (Site.root emptyIf))]
    (optionalIf.check item []).Gives after ∧ (optionalIf, Site.root emptyIf) ∈ optionalIf.places item [] ∧
      (∀ q site, (q, site) ∈ optionalIf.places item [] →
        (∀ name ∈ q.options.name, ∃ node, after.item? name = some node ∧ node.same site) ∧
          (q.heedsKind → q.requiredKind.all (· == site.kind))) ∧
      optionalIf.heedsKind = false ∧ ∀ kind, (optionalIf.withKind kind).check item [] = optionalIf.check item [] := by
  intro item after
  have hcheck : (optionalIf.check item []).Gives after := ⟨rfl, rfl⟩
  obtain ⟨hmatched, hkind⟩ := options_of_check optionalIf item []
  obtain ⟨hself, hplaces⟩ := hmatched after hcheck
  exact ⟨hcheck, hself _ rfl, hplaces, rfl, hkind rfl⟩

/-- A path matches a pattern for anything that asks for an `if`, and an optional pattern that does. -/
theorem any_of_other_kind :
    let site := Site.root (.path ⟨0, 1, .root⟩ ["x"])
    let o : PatternOptions := { kind := some .ifThen }
    ∀ p ∈ [any o true, optional o wildcard],
      p.requiredKind = some .ifThen ∧ (p.check (some site) []).Gives [] ∧ site.kind ≠ .ifThen := by
  intro site o p hp
  simp only [List.mem_cons, List.not_mem_nil, or_false] at hp
  rcases hp with rfl | rfl <;> exact ⟨rfl, ⟨rfl, rfl⟩, by decide⟩

end NestLint.Pattern
