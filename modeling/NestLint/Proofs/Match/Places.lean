import Mathlib.Data.List.Basic
import NestLint.Match.Check
import NestLint.Match.Choice
import NestLint.Proofs.Tree.Walk

/-!
# Where a pattern matches

A check that succeeds has matched patterns at nodes: the pattern itself at its item, and parts of it at the nodes that
they were checked on. An alternative that failed is no such place, and neither is anything that was matched inside of
it before it failed. What a successful check captured is what comes of giving the nodes at these places their names,
one after the other, and of nothing else.

* `places`: the places, in the order in which nodes get their names;
* `takeAll_of_check`: the captures after a success, from the places;
* `mem_places`: what holds of every place, whatever was captured before;
* `self_mem_places`: the pattern itself is the last place.
-/

namespace NestLint

open Pattern (take admitted guarded)

/-! ## Successful attempts -/

namespace Attempt

/-- The attempt succeeded and left these captures. -/
def Gives (a : Attempt) (c : Captures Site) : Prop := a.verdict = .matched ∧ a.captures = c

variable {a : Attempt} {c c' : Captures Site}

theorem gives_success : (success c).Gives c' ↔ c = c' := by simp [Gives, success]

theorem not_gives_failure : ¬(failure c).Gives c' := by simp [Gives, failure]

theorem gives_ofBool {b : Bool} : (⟨.ofBool b, c, []⟩ : Attempt).Gives c' ↔ b = true ∧ c = c' := by
  cases b <;> simp [Gives, Verdict.ofBool]

theorem gives_andThen {next : Captures Site → Attempt} :
    (a.andThen next).Gives c' ↔ a.verdict = .matched ∧ (next a.captures).Gives c' := by
  rw [Attempt.andThen]
  split
  · rename_i h
    simp [Gives, h]
  · rename_i h
    simp [Gives, h]

/-- If the alternatives behind a failure start from the same captures, it does not matter what the failure left. -/
theorem gives_orElse {next : Captures Site → Attempt} :
    (a.orElse c next).Gives c' ↔ a.Gives c' ∨ a.verdict = .failed ∧ (next c).Gives c' := by
  rw [Attempt.orElse]
  split
  · rename_i h
    simp [Gives, h]
  · rename_i h
    simp [Gives, h]

theorem gives_capturing {name : Option String} {site : Site} :
    (a.capturing name site).Gives c' ↔ a.verdict = .matched ∧ take name site a.captures = some c' := by
  cases name with
  | none => simp [Attempt.capturing, take, Gives]
  | some name =>
    rw [Attempt.capturing, gives_andThen, gives_ofBool]
    simp only [take, Option.ite_none_right_eq_some, Option.some.injEq]

theorem gives_guarded {p : Pattern} {item : Option Site} {rule : Site → Captures Site → Attempt} :
    (guarded p item c rule).Gives c' ↔
      ∃ site, admitted p item = some site ∧ ((rule site c).capturing p.options.name site).Gives c' := by
  cases item with
  | none => simp [guarded, admitted, not_gives_failure]
  | some site =>
    simp only [guarded, admitted, Option.filter_some]
    split
    · simp only [Option.some.injEq, exists_eq_left']
      split
      · rfl
      · rfl
    · simp [not_gives_failure]

end Attempt

/-! ## The parts of a node by name -/

namespace Site

/-- The parts of an `if` that are there are its children. -/
theorem children_of_ifParts? {s : Site} {cond body els : Option Site} (h : s.ifParts? = some (cond, body, els)) :
    s.children = cond.toList ++ (body.toList ++ els.toList) := by
  obtain ⟨i, n⟩ := s
  cases n with
  | ifThen _ a b c =>
    cases h
    cases a <;> cases b <;> cases c <;> rfl
  | _ => cases h

theorem children_of_ifLetParts? {s : Site} {pat scrutinee body els : Option Site}
    (h : s.ifLetParts? = some (pat, scrutinee, body, els)) :
    s.children = pat.toList ++ (scrutinee.toList ++ (body.toList ++ els.toList)) := by
  obtain ⟨i, n⟩ := s
  cases n with
  | ifLet _ a b c d =>
    cases h
    cases a <;> cases b <;> cases c <;> cases d <;> rfl
  | _ => cases h

theorem stmts?_subset_children (s : Site) : s.stmts?.getD [] ⊆ s.children := by
  obtain ⟨i, n⟩ := s
  cases n with
  | block => exact List.Subset.refl _
  | _ => exact List.nil_subset _

theorem stmtParts?_subset_children (s : Site) : (s.stmtParts?.map Prod.snd).toList ⊆ s.children := by
  obtain ⟨i, n⟩ := s
  cases n with
  | stmt => exact List.Subset.refl _
  | _ => exact List.nil_subset _

theorem flatMap_subsites_subset {sites more : List Site} (h : sites ⊆ more) :
    sites.flatMap subsites ⊆ more.flatMap subsites := by
  intro s hs
  obtain ⟨site, hsite, hs⟩ := List.mem_flatMap.1 hs
  exact List.mem_flatMap.2 ⟨site, h hsite, hs⟩

end Site

namespace Pattern

open Attempt

/-! ## Places -/

/-- The places of a pattern that only an admitted item can match: those inside, and the pattern itself. -/
def framed (p : Pattern) (item : Option Site) (inside : Site → List (Pattern × Site)) : List (Pattern × Site) :=
  (admitted p item).toList.flatMap fun site => inside site ++ [(p, site)]

mutual

/-- The pattern and parts of it, each with the node that it matches, in the order in which the nodes get their names,
for a check that succeeds. -/
def places : Pattern → Option Site → Captures Site → List (Pattern × Site)
  | .any o b, item, _ => item.toList.map fun site => (.any o b, site)
  | .absent _, _, _ => []
  | .optional o p, item, c => item.toList.flatMap fun site => places p (some site) c ++ [(.optional o p, site)]
  | .either o ps, item, c => framed (.either o ps) item fun site => placesAny ps site c
  | .all o ps, item, c => framed (.all o ps) item fun site => placesAll ps site c
  | .kind o k, item, _ => framed (.kind o k) item fun _ => []
  | .ifThen o pc pb pe, item, c =>
    framed (.ifThen o pc pb pe) item fun site =>
      match site.ifParts? with
      | none => []
      | some (cond, body, els) =>
        let c₁ := (pc.check cond c).captures
        let c₂ := (pb.check body c₁).captures
        places pc cond c ++ (places pb body c₁ ++ places pe els c₂)
  | .ifLet o pp ps pb pe, item, c =>
    framed (.ifLet o pp ps pb pe) item fun site =>
      match site.ifLetParts? with
      | none => []
      | some (pat, scrutinee, body, els) =>
        let c₁ := (pp.check pat c).captures
        let c₂ := (ps.check scrutinee c₁).captures
        let c₃ := (pb.check body c₂).captures
        places pp pat c ++ (places ps scrutinee c₁ ++ (places pb body c₂ ++ places pe els c₃))
  | .block o ps, item, c =>
    framed (.block o ps) item fun site => placesEach ps (site.stmts?.getD []) c
  | .stmt o closed p, item, c =>
    framed (.stmt o closed p) item fun site => places p (site.stmtParts?.map Prod.snd) c
  | .bare .., _, _ => []

/-- The places of the first alternative that succeeds. -/
def placesAny : List Pattern → Site → Captures Site → List (Pattern × Site)
  | [], _, _ => []
  | p :: ps, site, c =>
    if (p.check (some site) c).verdict = .failed then placesAny ps site c else places p (some site) c

/-- The places of all patterns on one item. -/
def placesAll : List Pattern → Site → Captures Site → List (Pattern × Site)
  | [], _, _ => []
  | p :: ps, site, c => places p (some site) c ++ placesAll ps site (p.check (some site) c).captures

/-- The places of each pattern on the item at the same place of a list. -/
def placesEach : List Pattern → List Site → Captures Site → List (Pattern × Site)
  | p :: ps, site :: sites, c =>
    places p (some site) c ++ placesEach ps sites (p.check (some site) c).captures
  | _, _, _ => []

end

/-- The captures after giving the nodes at places their names, one after the other. -/
def takeAll (taken : List (Pattern × Site)) (c : Captures Site) : Option (Captures Site) :=
  taken.foldlM (fun c place => take place.1.options.name place.2 c) c

theorem takeAll_append (taken more : List (Pattern × Site)) (c : Captures Site) :
    takeAll (taken ++ more) c = (takeAll taken c).bind (takeAll more) := List.foldlM_append ..

theorem takeAll_singleton (p : Pattern) (site : Site) (c : Captures Site) :
    takeAll [(p, site)] c = take p.options.name site c := by
  simp [takeAll]

/-! ## What is captured at the places -/

/-- If the attempt succeeds, it has captured what is at these places. -/
def Takes (a : Attempt) (c : Captures Site) (taken : List (Pattern × Site)) : Prop :=
  ∀ c', a.Gives c' → takeAll taken c = some c'

variable {a : Attempt} {c : Captures Site} {taken more : List (Pattern × Site)}

theorem takes_success : Takes (success c) c [] := fun _ h => congrArg some (gives_success.1 h)

theorem takes_failure : Takes (failure c) c taken := fun _ h => absurd h not_gives_failure

theorem Takes.andThen (h : Takes a c taken) {next : Captures Site → Attempt}
    (hnext : Takes (next a.captures) a.captures more) : Takes (a.andThen next) c (taken ++ more) := by
  intro c' hc'
  obtain ⟨hmatched, hc'⟩ := gives_andThen.1 hc'
  rw [takeAll_append, h a.captures ⟨hmatched, rfl⟩]
  exact hnext c' hc'

theorem Takes.capturing (h : Takes a c taken) (p : Pattern) (site : Site) :
    Takes (a.capturing p.options.name site) c (taken ++ [(p, site)]) := by
  intro c' hc'
  obtain ⟨hmatched, hc'⟩ := gives_capturing.1 hc'
  rw [takeAll_append, h a.captures ⟨hmatched, rfl⟩, Option.bind_some, takeAll_singleton]
  exact hc'

theorem takes_guarded {p : Pattern} {item : Option Site} {rule : Site → Captures Site → Attempt}
    {inside : Site → List (Pattern × Site)} (h : ∀ site, Takes (rule site c) c (inside site)) :
    Takes (guarded p item c rule) c (framed p item inside) := by
  intro c' hc'
  obtain ⟨site, hsite, hc'⟩ := gives_guarded.1 hc'
  rw [framed, hsite, Option.toList_some, List.flatMap_singleton]
  exact (h site).capturing p site c' hc'

mutual

/-- The captures after a success are what comes of the places. -/
theorem takeAll_of_check : ∀ (p : Pattern) (item : Option Site) (c : Captures Site),
    Takes (p.check item c) c (p.places item c)
  | .any o b, none, c => by
    rw [check, places]
    exact fun c' h => congrArg some (gives_ofBool.1 h).2
  | .any o b, some site, c => by
    rw [check, places]
    exact takes_success.capturing (.any o b) site
  | .absent _, item, c => by
    rw [check, places]
    exact fun c' h => congrArg some (gives_ofBool.1 h).2
  | .optional o p, none, c => by
    rw [check, places]
    exact takes_success
  | .optional o p, some site, c => by
    rw [check, places, Option.toList_some, List.flatMap_singleton]
    exact (takeAll_of_check p (some site) c).capturing (.optional o p) site
  | .either o ps, item, c => by
    rw [check, places]
    exact takes_guarded fun site => takeAll_of_checkAny ps site c
  | .all o ps, item, c => by
    rw [check, places]
    exact takes_guarded fun site => takeAll_of_checkAll ps site c
  | .kind o k, item, c => by
    rw [check, places]
    exact takes_guarded fun _ => takes_success
  | .ifThen o pc pb pe, item, c => by
    rw [check, places]
    refine takes_guarded fun site => ?_
    cases site.ifParts? with
    | none => exact takes_failure
    | some parts =>
      obtain ⟨cond, body, els⟩ := parts
      exact (takeAll_of_check pc cond c).andThen
        ((takeAll_of_check pb body _).andThen (takeAll_of_check pe els _))
  | .ifLet o pp ps pb pe, item, c => by
    rw [check, places]
    refine takes_guarded fun site => ?_
    cases site.ifLetParts? with
    | none => exact takes_failure
    | some parts =>
      obtain ⟨pat, scrutinee, body, els⟩ := parts
      exact (takeAll_of_check pp pat c).andThen ((takeAll_of_check ps scrutinee _).andThen
        ((takeAll_of_check pb body _).andThen (takeAll_of_check pe els _)))
  | .block o ps, item, c => by
    rw [check, places]
    refine takes_guarded fun site => ?_
    cases site.stmts? with
    | none => exact takes_failure
    | some stmts =>
      simp only [Option.getD_some]
      split
      · exact takeAll_of_checkEach ps stmts c
      · exact takes_failure
  | .stmt o closed p, item, c => by
    rw [check, places]
    refine takes_guarded fun site => ?_
    cases site.stmtParts? with
    | none => exact takes_failure
    | some parts =>
      obtain ⟨form, node⟩ := parts
      simp only [Option.map_some]
      split
      · exact takeAll_of_check p (some node) c
      · exact takes_failure
  | .bare o lack, item, c => by
    rw [check]
    exact fun c' h => absurd h.1 (by simp)

theorem takeAll_of_checkAny : ∀ (ps : List Pattern) (site : Site) (c : Captures Site),
    Takes (checkAny ps site c) c (placesAny ps site c)
  | [], site, c => by
    rw [checkAny]
    exact takes_failure
  | p :: ps, site, c => by
    rw [checkAny, placesAny]
    intro c' hc'
    obtain hp | ⟨hfailed, hrest⟩ := gives_orElse.1 hc'
    · rw [if_neg (by simp [hp.1])]
      exact takeAll_of_check p (some site) c c' hp
    · rw [if_pos hfailed]
      exact takeAll_of_checkAny ps site c c' hrest

theorem takeAll_of_checkAll : ∀ (ps : List Pattern) (site : Site) (c : Captures Site),
    Takes (checkAll ps site c) c (placesAll ps site c)
  | [], site, c => by
    rw [checkAll, placesAll]
    exact takes_success
  | p :: ps, site, c => by
    rw [checkAll, placesAll]
    exact (takeAll_of_check p (some site) c).andThen (takeAll_of_checkAll ps site _)

theorem takeAll_of_checkEach : ∀ (ps : List Pattern) (sites : List Site) (c : Captures Site),
    Takes (checkEach ps sites c) c (placesEach ps sites c)
  | p :: ps, site :: sites, c => by
    rw [checkEach, placesEach]
    exact (takeAll_of_check p (some site) c).andThen (takeAll_of_checkEach ps sites _)
  | [], sites, c => by
    rw [checkEach, placesEach]
    · exact takes_success
    · nofun
    · nofun
  | p :: ps, [], c => by
    rw [checkEach, placesEach]
    · exact takes_success
    · nofun
    · nofun

end

/-! ## What holds of the places -/

mutual

/-- A pattern and all patterns that it is made of. -/
def parts : Pattern → List Pattern
  | .optional o p => .optional o p :: parts p
  | .either o ps => .either o ps :: partsOf ps
  | .all o ps => .all o ps :: partsOf ps
  | .ifThen o pc pb pe => .ifThen o pc pb pe :: (parts pc ++ (parts pb ++ parts pe))
  | .ifLet o pp ps pb pe => .ifLet o pp ps pb pe :: (parts pp ++ (parts ps ++ (parts pb ++ parts pe)))
  | .block o ps => .block o ps :: partsOf ps
  | .stmt o closed p => .stmt o closed p :: parts p
  | p => [p]

/-- What several patterns are made of. -/
def partsOf : List Pattern → List Pattern
  | [] => []
  | p :: ps => parts p ++ partsOf ps

end

theorem mem_parts_self (p : Pattern) : p ∈ p.parts := by cases p <;> simp [parts]

/-- Whether a check looks at the kind that the pattern requires. -/
def heedsKind : Pattern → Bool
  | .any .. | .absent _ | .optional .. | .bare .. => false
  | _ => true

/-- A part of a pattern at a node of an item, which has the kind that the part requires if the part looks at that. -/
structure Placed (parts : List Pattern) (items : List Site) (place : Pattern × Site) : Prop where
  part : place.1 ∈ parts
  inside : place.2 ∈ items.flatMap Site.subsites
  kind : place.1.heedsKind → place.1.requiredKind.all (· == place.2.kind)

variable {ps ps' : List Pattern} {items items' : List Site} {site : Site} {place : Pattern × Site}

theorem Placed.widen (h : Placed ps items place) (hps : ps ⊆ ps') (hitems : items ⊆ items') : Placed ps' items' place :=
  ⟨hps h.part, Site.flatMap_subsites_subset hitems h.inside, h.kind⟩

/-- A place in a part that was checked on children. -/
theorem Placed.of_children (h : Placed ps items place) (hps : ps ⊆ ps') (hitems : items ⊆ site.children) :
    Placed ps' [site] place := by
  refine ⟨hps h.part, ?_, h.kind⟩
  rw [List.flatMap_singleton, Site.subsites_eq site]
  exact List.mem_cons_of_mem _ (Site.flatMap_subsites_subset hitems h.inside)

/-- The place of a pattern itself. -/
theorem placed_self {p : Pattern} (h : p.heedsKind → p.requiredKind.all (· == site.kind)) :
    Placed p.parts [site] (p, site) := by
  refine ⟨mem_parts_self p, ?_, h⟩
  rw [List.flatMap_singleton, Site.subsites_eq site]
  exact List.mem_cons_self

theorem admitted_eq_some {p : Pattern} {item : Option Site} (h : admitted p item = some site) :
    item = some site ∧ p.requiredKind.all (· == site.kind) := by
  rwa [admitted, Option.filter_eq_some_iff] at h

/-- A place of a pattern that only an admitted item can match is one inside, or the pattern itself. -/
theorem placed_of_mem_framed {p : Pattern} {item : Option Site} {inside : Site → List (Pattern × Site)}
    (hinside : ∀ site, place ∈ inside site → Placed p.parts [site] place) (h : place ∈ framed p item inside) :
    Placed p.parts item.toList place := by
  rw [framed, List.mem_flatMap] at h
  obtain ⟨site, hsite, hplace⟩ := h
  obtain ⟨rfl, hkind⟩ := admitted_eq_some (Option.mem_toList.1 hsite)
  rcases List.mem_append.1 hplace with hplace | hplace
  · exact hinside site hplace
  · obtain rfl := List.mem_singleton.1 hplace
    exact placed_self fun _ => hkind

mutual

/-- Every place is a part of the pattern at a node of the item, whatever was captured before. -/
theorem mem_places : ∀ {p : Pattern} {item : Option Site} {c : Captures Site}, place ∈ p.places item c →
    Placed p.parts item.toList place
  | .any o b, item, c, h => by
    rw [places, List.mem_map] at h
    obtain ⟨site, hsite, rfl⟩ := h
    obtain rfl := Option.mem_toList.1 hsite
    exact placed_self nofun
  | .absent _, item, c, h => by
    rw [places] at h
    cases h
  | .optional o p, item, c, h => by
    rw [places, List.mem_flatMap] at h
    obtain ⟨site, hsite, h⟩ := h
    obtain rfl := Option.mem_toList.1 hsite
    rcases List.mem_append.1 h with h | h
    · exact (mem_places h).widen (List.subset_cons_self _ _) (List.Subset.refl _)
    · obtain rfl := List.mem_singleton.1 h
      exact placed_self nofun
  | .either o ps, item, c, h => by
    rw [places] at h
    refine placed_of_mem_framed (fun site h => ?_) h
    exact (mem_placesAny h).widen (List.subset_cons_self _ _) (List.Subset.refl _)
  | .all o ps, item, c, h => by
    rw [places] at h
    refine placed_of_mem_framed (fun site h => ?_) h
    exact (mem_placesAll h).widen (List.subset_cons_self _ _) (List.Subset.refl _)
  | .kind o k, item, c, h => by
    rw [places] at h
    exact placed_of_mem_framed (fun site h => by cases h) h
  | .ifThen o pc pb pe, item, c, h => by
    rw [places] at h
    refine placed_of_mem_framed (fun site h => ?_) h
    cases hparts : site.ifParts? with
    | none =>
      rw [hparts] at h
      cases h
    | some parts =>
      obtain ⟨cond, body, els⟩ := parts
      have hchildren := Site.children_of_ifParts? hparts
      rw [hparts] at h
      simp only [List.mem_append] at h
      rcases h with h | h | h <;>
        exact (mem_places h).of_children (fun q hq => by simp [Pattern.parts, hq])
          (fun s hs => by rw [hchildren]; simp [hs])
  | .ifLet o pp ps pb pe, item, c, h => by
    rw [places] at h
    refine placed_of_mem_framed (fun site h => ?_) h
    cases hparts : site.ifLetParts? with
    | none =>
      rw [hparts] at h
      cases h
    | some parts =>
      obtain ⟨pat, scrutinee, body, els⟩ := parts
      have hchildren := Site.children_of_ifLetParts? hparts
      rw [hparts] at h
      simp only [List.mem_append] at h
      rcases h with h | h | h | h <;>
        exact (mem_places h).of_children (fun q hq => by simp [Pattern.parts, hq])
          (fun s hs => by rw [hchildren]; simp [hs])
  | .block o ps, item, c, h => by
    rw [places] at h
    refine placed_of_mem_framed (fun site h => ?_) h
    exact (mem_placesEach h).of_children (List.subset_cons_self _ _) site.stmts?_subset_children
  | .stmt o closed p, item, c, h => by
    rw [places] at h
    refine placed_of_mem_framed (fun site h => ?_) h
    exact (mem_places h).of_children (List.subset_cons_self _ _) site.stmtParts?_subset_children
  | .bare _ _, item, c, h => by
    rw [places] at h
    cases h

theorem mem_placesAny : ∀ {ps : List Pattern} {site : Site} {c : Captures Site}, place ∈ placesAny ps site c →
    Placed (partsOf ps) [site] place
  | [], site, c, h => by
    rw [placesAny] at h
    cases h
  | p :: ps, site, c, h => by
    rw [placesAny] at h
    split at h
    · exact (mem_placesAny h).widen (List.subset_append_right _ _) (List.Subset.refl _)
    · exact (mem_places h).widen (List.subset_append_left _ _) (List.Subset.refl _)

theorem mem_placesAll : ∀ {ps : List Pattern} {site : Site} {c : Captures Site}, place ∈ placesAll ps site c →
    Placed (partsOf ps) [site] place
  | [], site, c, h => by
    rw [placesAll] at h
    cases h
  | p :: ps, site, c, h => by
    rw [placesAll] at h
    rcases List.mem_append.1 h with h | h
    · exact (mem_places h).widen (List.subset_append_left _ _) (List.Subset.refl _)
    · exact (mem_placesAll h).widen (List.subset_append_right _ _) (List.Subset.refl _)

theorem mem_placesEach : ∀ {ps : List Pattern} {sites : List Site} {c : Captures Site}, place ∈ placesEach ps sites c →
    Placed (partsOf ps) sites place
  | p :: ps, site :: sites, c, h => by
    rw [placesEach] at h
    rcases List.mem_append.1 h with h | h
    · exact (mem_places h).widen (List.subset_append_left _ _) (by simp)
    · exact (mem_placesEach h).widen (List.subset_append_right _ _) (List.subset_cons_self _ _)
  | [], sites, c, h => by
    rw [placesEach] at h
    · cases h
    · nofun
  | p :: ps, [], c, h => by
    rw [placesEach] at h
    · cases h
    · nofun

end

/-- A pattern that only an admitted item can match is among the places of a success. -/
theorem self_mem_framed {p : Pattern} {c c' : Captures Site} {rule : Site → Captures Site → Attempt}
    (inside : Site → List (Pattern × Site)) (h : (guarded p (some site) c rule).Gives c') :
    (p, site) ∈ framed p (some site) inside := by
  obtain ⟨s, hs, -⟩ := gives_guarded.1 h
  obtain rfl := Option.some.inj (admitted_eq_some hs).1
  rw [framed, hs]
  simp

/-- A pattern that is matched by a node is one of the places, with this node. -/
theorem self_mem_places {p : Pattern} {c c' : Captures Site} (h : (p.check (some site) c).Gives c') :
    (p, site) ∈ p.places (some site) c := by
  cases p with
  | any o b => simp [places]
  | optional o p => simp [places]
  | absent o =>
    rw [check] at h
    exact absurd (gives_ofBool.1 h).1 (by simp)
  | bare o lack =>
    rw [check] at h
    exact absurd h.1 (by simp)
  | _ =>
    rw [check] at h
    rw [places]
    exact self_mem_framed _ h

end Pattern

end NestLint
