import NestLint.Config.Project
import NestLint.Proofs.Outcomes

/-!
# What documents of projects describe

The document of a project is an object, and its rules, should there be any, are objects as well, with no other members
than those of a rule. What is read from a document is what it describes, and from any other document nothing is read.

* `Rule.Described`, `Project.Described`: which rule an entry describes, and which project a document;
* `Rule.ofJson_eq_ok_iff`, `Project.ofDocument_eq_ok_iff`: what is read.
-/

namespace NestLint

/-- The rule that an entry describes: the members that are missing have their defaults, and there are no others. -/
def Rule.Described (entry : Json) (r : Rule) : Prop :=
  ∃ members, entry = .object members ∧ (∀ key ∈ Dict.keys members, key ∈ memberNames) ∧
    r.name = Dict.getD members "name" .null ∧ r.isActivated = Dict.getD members "is_activated" (.bool true) ∧
    r.config = Dict.getD members "config" (.object [])

/-- The entries that a value lists. An empty text or object is as good as an empty list. -/
def Json.Lists (value : Json) (entries : List Json) : Prop :=
  value = .list entries ∨ entries = [] ∧ (value = .str "" ∨ value = .object [])

/-- The project that a document describes. -/
def Project.Described (document : Json) (p : Project) : Prop :=
  ∃ members entries, document = .object members ∧ p.description = Dict.getD members "description" (.str "") ∧
    (Dict.getD members "lints" (.list [])).Lists entries ∧ List.Forall₂ Rule.Described entries p.rules

theorem Rule.ofJson_eq_ok_iff {entry : Json} {r : Rule} : Rule.ofJson entry = .ok r ↔ r.Described entry := by
  constructor
  · intro h
    cases entry with
    | object members =>
      rw [Rule.ofJson] at h
      dsimp only [Json.members?] at h
      split at h
      · rename_i hkeys
        obtain rfl := Except.ok.inj h
        exact ⟨members, rfl, fun key hkey => List.contains_iff_mem.1 (List.all_eq_true.1 hkeys key hkey), rfl, rfl, rfl⟩
      · cases h
    | _ => cases h
  · rintro ⟨members, rfl, hkeys, hname, hactivated, hconfig⟩
    have hall : (Dict.keys members).all memberNames.contains = true :=
      List.all_eq_true.2 fun key hkey => List.contains_iff_mem.2 (hkeys key hkey)
    obtain ⟨name, isActivated, config⟩ := r
    subst hname hactivated hconfig
    rw [Rule.ofJson]
    dsimp only [Json.members?]
    rw [if_pos hall]

/-- Entries of which each describes a rule are those of a list. Neither does a letter of a text, nor the name of a
member. -/
theorem Json.lists_iff_parts? {value : Json} {entries : List Json} {rules : List Rule}
    (h : List.Forall₂ Rule.Described entries rules) : value.Lists entries ↔ value.parts? = some entries := by
  have hstr : ∀ {α : Type} (as : List α) (f : α → String), as.map (fun a => Json.str (f a)) = entries ↔
      entries = [] ∧ as = [] := by
    intro α as f
    cases h with
    | nil => simp
    | cons hentry _ =>
      obtain ⟨members, rfl, -⟩ := hentry
      cases as <;> simp
  cases value with
  | list items => simp [Json.Lists, Json.parts?]
  | str text => simp [Json.Lists, Json.parts?, hstr]
  | object members => simp [Json.Lists, Json.parts?, hstr]
  | _ => simp [Json.Lists, Json.parts?]

theorem Project.rulesOf_eq_ok_iff {value : Json} {rules : List Rule} : rulesOf value = .ok rules ↔
    ∃ entries, value.Lists entries ∧ List.Forall₂ Rule.Described entries rules := by
  have hread : ∀ entries : List Json, (entries.mapM fun entry => (Rule.ofJson entry).mapError Fault.rule) = .ok rules ↔
      List.Forall₂ Rule.Described entries rules := by
    intro entries
    simp only [mapM_eq_ok_iff, mapError_eq_ok_iff, Rule.ofJson_eq_ok_iff]
  rw [rulesOf, Project.entries]
  constructor
  · intro h
    cases hparts : value.parts? with
    | none =>
      rw [hparts] at h
      cases h
    | some entries =>
      rw [hparts] at h
      have hdescribed := (hread entries).1 h
      exact ⟨entries, (Json.lists_iff_parts? hdescribed).2 hparts, hdescribed⟩
  · rintro ⟨entries, hlists, hdescribed⟩
    rw [(Json.lists_iff_parts? hdescribed).1 hlists]
    exact (hread entries).2 hdescribed

/-- What is read from a document is the project that it describes. -/
theorem Project.ofDocument_eq_ok_iff {path : FilePath} {document : Json} {p : Project} :
    Project.ofDocument path document = .ok p ↔ p.path = path ∧ p.Described document := by
  cases document with
  | object members =>
    simp only [Project.ofDocument, Json.members?]
    cases hrules : rulesOf (Dict.getD members "lints" (.list [])) with
    | error fault =>
      refine ⟨fun h => (by cases h), fun h => ?_⟩
      obtain ⟨-, _, entries, hobject, -, hlists, hdescribed⟩ := h
      cases hobject
      cases hrules.symm.trans (rulesOf_eq_ok_iff.2 ⟨entries, hlists, hdescribed⟩)
    | ok rules =>
      constructor
      · intro h
        obtain rfl := Except.ok.inj h
        obtain ⟨entries, hlists, hdescribed⟩ := rulesOf_eq_ok_iff.1 hrules
        exact ⟨rfl, members, entries, rfl, rfl, hlists, hdescribed⟩
      · rintro ⟨rfl, _, entries, hobject, hdescription, hlists, hdescribed⟩
        cases hobject
        obtain rfl := Except.ok.inj (hrules.symm.trans (rulesOf_eq_ok_iff.2 ⟨entries, hlists, hdescribed⟩))
        obtain ⟨path, description, rules⟩ := p
        subst hdescription
        rfl
  | _ =>
    refine ⟨fun h => (by cases h), fun h => ?_⟩
    obtain ⟨-, _, _, hobject, -⟩ := h
    cases hobject

/-- A document that describes no project is at fault itself, and not what it is kept in. -/
theorem Project.ne_document_of_ofDocument {path : FilePath} {document : Json} {fault : Fault}
    (h : Project.ofDocument path document = .error fault) (found : DocumentFault) : fault ≠ .document found := by
  rintro rfl
  cases document with
  | object members =>
    simp only [Project.ofDocument, Json.members?, rulesOf, Project.entries] at h
    cases hparts : (Dict.getD members "lints" (.list [])).parts? with
    | none =>
      rw [hparts] at h
      cases h
    | some entries =>
      simp only [hparts, bind, Except.bind] at h
      split at h
      · rename_i hmapM
        cases h
        obtain ⟨entry, -, hentry⟩ := exists_of_mapM_eq_error hmapM
        cases hrule : Rule.ofJson entry with
        | error _ =>
          rw [hrule] at hentry
          cases hentry
        | ok _ =>
          rw [hrule] at hentry
          cases hentry
      · cases h
  | _ => cases h

end NestLint
