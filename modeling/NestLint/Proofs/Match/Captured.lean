import Mathlib.Data.List.Nodup
import NestLint.Proofs.Match.Places
import NestLint.Proofs.Match.Refinement

/-!
# What a check captures

A check that succeeds adds to the captures and takes nothing away. Each name that is new is a name in the pattern, and
stands for a node of the item; a name that several places share stands for one node, so the places are one.

The check is `check` of a pattern in a `MatchContext`.

* `Grows`: how captures change when names are given to nodes, and nothing else happens to them;
* `grows_take`, `grows_takeAll`: one name given to a node, and a run over places;
* `Adds`, `captured_of_check`: what a successful check does to captures.
-/

namespace NestLint

open Pattern (take takeAll)

/-! ## Nodes of one tree -/

namespace Site

theorem same_comm (a b : Site) : a.same b = b.same a := by simp [same, Bool.beq_comm]

/-- Within one tree a place is one node. -/
theorem eq_of_same {s a b : Site} (ha : a ∈ s.subsites) (hb : b ∈ s.subsites) (h : a.same b) : a = b := by
  have hnodup : (s.subsites.map index).Nodup := by
    rw [map_index_subsites]
    exact List.nodup_range'
  exact List.inj_on_of_nodup_map hnodup ha hb (by simpa [same] using h)

end Site

/-! ## Names given to nodes -/

namespace Captures

theorem item?_insert (c : Captures Site) (name other : String) (item : Option Site) :
    item? (Dict.insert c name item) other = if name = other then item else c.item? other := by
  rw [item?, Dict.get?_insert]
  split <;> rfl

theorem keys_insert (c : Captures Site) (name : String) (item : Option Site) :
    ∃ new, Dict.keys (Dict.insert c name item) = Dict.keys c ++ new ∧ new ⊆ [name] := by
  by_cases h : name ∈ Dict.keys c
  · exact ⟨[], by rw [Dict.keys_insert_of_mem h, List.append_nil], List.nil_subset _⟩
  · exact ⟨[name], Dict.keys_insert_of_not_mem h item, List.Subset.refl _⟩

/-- From one to the other, names are given to nodes: what was captured stays captured, whatever is new was given, and
what was given is captured. -/
structure Grows (given : List (String × Site)) (c c' : Captures Site) : Prop where
  stays : ∀ name site, c.item? name = some site → c'.item? name = some site
  fresh : ∀ name site, c'.item? name = some site → c.item? name = some site ∨ (name, site) ∈ given
  found : ∀ name site, (name, site) ∈ given → ∃ node, c'.item? name = some node ∧ node.same site
  keys : ∃ new, Dict.keys c' = Dict.keys c ++ new ∧ new ⊆ given.map Prod.fst

variable {c c₁ c' : Captures Site}

theorem Grows.refl (c : Captures Site) : Grows [] c c :=
  ⟨fun _ _ h => h, fun _ _ h => .inl h, nofun, [], (List.append_nil _).symm, List.nil_subset _⟩

theorem Grows.trans {given more : List (String × Site)} (h : Grows given c c₁) (h' : Grows more c₁ c') :
    Grows (given ++ more) c c' := by
  refine ⟨fun name site hs => h'.stays name site (h.stays name site hs), fun name site hs => ?_, fun name site hs => ?_,
    ?_⟩
  · rcases h'.fresh name site hs with hs | hs
    · exact (h.fresh name site hs).imp_right (List.mem_append_left more)
    · exact .inr (List.mem_append_right given hs)
  · rcases List.mem_append.1 hs with hs | hs
    · obtain ⟨node, hnode, hsame⟩ := h.found name site hs
      exact ⟨node, h'.stays name node hnode, hsame⟩
    · exact h'.found name site hs
  · obtain ⟨new, hnew, hsub⟩ := h.keys
    obtain ⟨new', hnew', hsub'⟩ := h'.keys
    refine ⟨new ++ new', by rw [hnew', hnew, List.append_assoc], ?_⟩
    rw [List.map_append]
    exact List.append_subset.2 ⟨List.subset_append_of_subset_left _ hsub, List.subset_append_of_subset_right _ hsub'⟩

/-- One name is given, if there is one: to a node that has it already, or while it is free. -/
theorem grows_take {name : Option String} {site : Site} (h : take name site c = some c') :
    Grows (name.toList.map (·, site)) c c' := by
  cases name with
  | none =>
    obtain rfl := Option.some.inj h
    exact Grows.refl c
  | some name =>
    rw [take] at h
    cases hitem : c.item? name with
    | none =>
      rw [bind_of_free hitem] at h
      obtain rfl := Option.some.inj h
      obtain ⟨new, hnew, hsub⟩ := keys_insert c name (some site)
      refine ⟨fun other s hs => ?_, fun other s hs => ?_, fun other s hs => ?_, new, hnew, hsub⟩
      · rw [item?_insert, if_neg]
        · exact hs
        · rintro rfl
          rw [hitem] at hs
          cases hs
      · rw [item?_insert] at hs
        split at hs
        · rename_i heq
          obtain rfl := Option.some.inj hs
          simp [heq]
        · exact .inl hs
      · obtain ⟨rfl, rfl⟩ : other = name ∧ s = site := by simpa using hs
        exact ⟨s, by rw [item?_insert, if_pos rfl], by simp [Site.same]⟩
    | some old =>
      rw [bind_of_bound hitem] at h
      simp only [Option.ite_none_right_eq_some, Option.some.injEq] at h
      obtain ⟨hsame, rfl⟩ := h
      refine ⟨fun _ _ hs => hs, fun _ _ hs => .inl hs, fun other s hs => ?_, [], (List.append_nil _).symm,
        List.nil_subset _⟩
      obtain ⟨rfl, rfl⟩ : other = name ∧ s = site := by simpa using hs
      rw [Option.some_beq_some] at hsame
      exact ⟨old, hitem, Site.same_comm s old ▸ hsame⟩

/-- The names in patterns at places, with the nodes there. -/
def namesAt (taken : List (Pattern × Site)) : List (String × Site) :=
  taken.flatMap fun place => place.1.options.name.toList.map (·, place.2)

theorem mem_namesAt {taken : List (Pattern × Site)} {name : String} {site : Site} :
    (name, site) ∈ namesAt taken ↔ ∃ p, (p, site) ∈ taken ∧ p.options.name = some name := by
  simp [namesAt]

theorem grows_takeAll {taken : List (Pattern × Site)} (h : takeAll taken c = some c') : Grows (namesAt taken) c c' := by
  induction taken generalizing c with
  | nil =>
    obtain rfl := Option.some.inj h
    exact Grows.refl c
  | cons place rest ih =>
    rw [takeAll, List.foldlM_cons] at h
    obtain ⟨c₁, hfirst, hrest⟩ := Option.bind_eq_some_iff.1 h
    exact (grows_take hfirst).trans (ih hrest)

end Captures

namespace Pattern

open Captures

variable {p : Pattern} {item : Option Site} {c c' : Captures Site}

theorem grows_of_check (h : (p.check item c).Gives c') : Grows (namesAt (p.places item c)) c c' :=
  grows_takeAll (takeAll_of_check p item c c' h)

/-- The names that a pattern can capture under. -/
def names (p : Pattern) : List String := p.parts.filterMap fun q => q.options.name

/-- What is captured at the places of a pattern: a name in the pattern, and a node of the item. -/
theorem mem_of_mem_namesAt {name : String} {site : Site} (h : (name, site) ∈ namesAt (p.places item c)) :
    name ∈ p.names ∧ site ∈ Site.scan item.toList := by
  obtain ⟨q, hplace, hname⟩ := mem_namesAt.1 h
  have hplaced := mem_places hplace
  rw [Site.scan_eq]
  exact ⟨List.mem_filterMap.2 ⟨q, hplaced.part, hname⟩, hplaced.inside⟩

/-- Places that share a name have one node. -/
theorem node_eq_of_name_eq (h : (p.check item c).Gives c') {q r : Pattern} {a b : Site} {name : String}
    (hq : (q, a) ∈ p.places item c) (hr : (r, b) ∈ p.places item c) (hqname : q.options.name = some name)
    (hrname : r.options.name = some name) : a = b := by
  have hgrows := grows_of_check h
  obtain ⟨x, hx, hxa⟩ := hgrows.found name a (mem_namesAt.2 ⟨q, hq, hqname⟩)
  obtain ⟨y, hy, hyb⟩ := hgrows.found name b (mem_namesAt.2 ⟨r, hr, hrname⟩)
  obtain rfl : x = y := Option.some.inj (hx ▸ hy)
  have hsame : a.same b := by
    simp only [Site.same, beq_iff_eq] at hxa hyb ⊢
    exact hxa ▸ hyb
  have ha := (mem_places hq).inside
  have hb := (mem_places hr).inside
  cases item with
  | none => cases ha
  | some s =>
    simp only [Option.toList_some, List.flatMap_singleton] at ha hb
    exact Site.eq_of_same ha hb hsame

/-- What a pattern adds to the captures when it is matched by an item. -/
structure Adds (p : Pattern) (item : Option Site) (c c' : Captures Site) : Prop where
  /-- Every name that had a node keeps it. -/
  stays : ∀ name site, c.item? name = some site → c'.item? name = some site
  /-- New names go last, and are names in the pattern. -/
  keys : ∃ new, Dict.keys c' = Dict.keys c ++ new ∧ new ⊆ p.names
  /-- A node that is new is one that a walk over the item visits; its name was free and is one in the pattern. -/
  fresh : ∀ name site, c'.item? name = some site → c.item? name ≠ some site →
    c.item? name = none ∧ name ∈ p.names ∧ site ∈ Site.scan item.toList
  /-- A name stands for the node at every place that has the name, so there is one node at all of them. -/
  shared : ∀ name q a, (q, a) ∈ p.places item c → q.options.name = some name →
    (∃ node, c'.item? name = some node ∧ node.same a) ∧
      ∀ r b, (r, b) ∈ p.places item c → r.options.name = some name → b = a

/-- A check that succeeds, on any item and with any captures before it, adds what is at its places to the captures. -/
theorem captured_of_check (h : (p.check item c).Gives c') : p.Adds item c c' := by
  have hgrows := grows_of_check h
  refine ⟨hgrows.stays, ?_, fun name site hnew hold => ?_, fun name q a hq hname => ⟨?_, fun r b hr hrname => ?_⟩⟩
  · obtain ⟨new, hkeys, hsub⟩ := hgrows.keys
    refine ⟨new, hkeys, fun name hname => ?_⟩
    obtain ⟨⟨_, site⟩, hgiven, rfl⟩ := List.mem_map.1 (hsub hname)
    exact (mem_of_mem_namesAt hgiven).1
  · refine ⟨?_, mem_of_mem_namesAt ((hgrows.fresh name site hnew).resolve_left hold)⟩
    cases hitem : c.item? name with
    | none => rfl
    | some old =>
      have heq : old = site := Option.some.inj ((hgrows.stays name old hitem).symm.trans hnew)
      exact absurd (heq ▸ hitem) hold
  · exact hgrows.found name a (mem_namesAt.2 ⟨q, hq, hname⟩)
  · exact node_eq_of_name_eq h hr hq hrname hname

/-- Three places share a name, behind an alternative that fails after it has captured something. -/
def sharedThrice : Pattern :=
  .either {} [sharedName, .all { name := some "whole" }
    [.ifThen { name := some "whole" } (.capture "x") (.capture "y") .wildcard, .capture "whole"]]

theorem captured_of_check_sharedThrice :
    let item := some (Site.root emptyIf)
    let before : Captures Site := [("y", some ⟨2, .block ⟨5, 7, .root⟩ []⟩)]
    let after : Captures Site :=
      before ++ [("x", some ⟨1, .path ⟨3, 4, .root⟩ ["a"]⟩), ("whole", some (Site.root emptyIf))]
    (sharedThrice.check item before).Gives after ∧ sharedThrice.Adds item before after := by
  intro item before after
  have hcheck : (sharedThrice.check item before).Gives after := ⟨by with_unfolding_all rfl, by with_unfolding_all rfl⟩
  exact ⟨hcheck, captured_of_check hcheck⟩

end Pattern

end NestLint
