import NestLint.Proofs.Config.Described
import NestLint.Proofs.Config.Opening

/-!
# Loading the project of the options

The option for the project names a file. Where there is none, or a text that is no document, there is no project, and
a document that describes a project is one. Anything else that can be at the path is a fault: a document that describes
none, a directory, bytes that are no text, a number that is too long, or a path that cannot be followed.

This is `LintConfiguration.load_project`, which reads through `ProjectConfiguration.from_file`.

* `read_eq_ok_iff`, `isNoProject_read_iff`: what is read from a file;
* `loadProject_iff`: what is loaded, and when nothing is;
* `unloadable_projects`: a directory, bytes that are no text, a list, and a rule with a member too many.
-/

namespace NestLint

namespace Project

variable {t : FileTree} {path : FilePath} {p : Project}

theorem snd_read : (read t path).2 =
    match t.readDocument path with
    | .ok document => ofDocument path document
    | .error fault => .error (.document fault) := by
  rw [read]
  split <;> simp_all

/-- A project is read where the text of the file is a document that describes it. -/
theorem read_eq_ok_iff : (read t path).2 = .ok p ↔
    p.path = path ∧ ∃ text document, t.readText path = .ok text ∧ Json.parse text = .ok document ∧
      p.Described document := by
  rw [snd_read, FileTree.readDocument]
  cases t.readText path with
  | error fault => simp
  | ok text =>
    cases hparse : Json.parse text with
    | error fault => simp [hparse, Except.mapError]
    | ok document => simp [hparse, Except.mapError, ofDocument_eq_ok_iff]

end Project

namespace Options

variable {t : FileTree} {path : FilePath} {o : Options} {name : String}

theorem isNoProject_ofDocument {document : Json} {fault : Project.Fault}
    (h : Project.ofDocument path document = .error fault) : isNoProject fault = false := by
  cases fault with
  | document found => exact absurd rfl (Project.ne_document_of_ofDocument h found)
  | _ => rfl

/-- There is no project where there is no file, or a text that is no document. -/
theorem isNoProject_read_iff : (∃ fault, (Project.read t path).2 = .error fault ∧ isNoProject fault = true) ↔
    t.readText path = .error .missing ∨ ∃ text, t.readText path = .ok text ∧ Json.parse text = .error .malformed := by
  rw [Project.snd_read, FileTree.readDocument]
  cases t.readText path with
  | error fault => cases fault <;> simp [isNoProject]
  | ok text =>
    cases hparse : Json.parse text with
    | error fault => cases fault <;> simp [hparse, Except.mapError, isNoProject]
    | ok document =>
      simp only [hparse, Except.mapError, reduceCtorEq, Except.ok.injEq, false_or, exists_eq_left', iff_false]
      rintro ⟨fault, hread, hno⟩
      exact absurd hno (by simp [isNoProject_ofDocument hread])

/-- There is a wrong project where there is something that is no text, or has too long a number in it, or describes
no project. -/
theorem not_isNoProject_read_iff : (∃ fault, (Project.read t path).2 = .error fault ∧ isNoProject fault = false) ↔
    (∃ fault, t.readText path = .error fault ∧ fault ≠ .missing) ∨
      ∃ text, t.readText path = .ok text ∧ (Json.parse text = .error .tooLong ∨
        ∃ document, Json.parse text = .ok document ∧ ∀ p : Project, ¬p.Described document) := by
  rw [Project.snd_read, FileTree.readDocument]
  cases t.readText path with
  | error fault => cases fault <;> simp [isNoProject]
  | ok text =>
    cases hparse : Json.parse text with
    | error fault => cases fault <;> simp [hparse, Except.mapError, isNoProject]
    | ok document =>
      simp only [hparse, Except.mapError, reduceCtorEq, Except.ok.injEq, false_and, exists_false, false_or,
        exists_eq_left']
      constructor
      · rintro ⟨fault, hread, -⟩ p hdescribed
        have hok : Project.ofDocument path document = .ok { p with path } :=
          Project.ofDocument_eq_ok_iff.2 ⟨rfl, hdescribed⟩
        cases hread.symm.trans hok
      · intro hnone
        cases hread : Project.ofDocument path document with
        | ok p => exact absurd (Project.ofDocument_eq_ok_iff.1 hread).2 (hnone p)
        | error fault => exact ⟨fault, rfl, isNoProject_ofDocument hread⟩

theorem snd_loadProject (h : o.values.get? projectKey = some (.str name)) : (loadProject t o).2 =
    if name = "" then .ok none
    else match (Project.read t (o.userDirectory.join (.ofText name))).2 with
      | .ok project => .ok (some project)
      | .error fault => if isNoProject fault then .ok none else .error (.project fault) := by
  have hoption : o.getD projectKey .null = .ok (.str name) := by
    rw [Json.get?] at h
    rw [getD]
    cases hmembers : o.values.members? with
    | none =>
      rw [hmembers] at h
      cases h
    | some members =>
      rw [hmembers] at h
      simp only [Dict.getD, show Dict.get? members projectKey = some (.str name) from h, Option.getD_some]
  rw [loadProject, hoption]
  by_cases hname : name = ""
  · simp [hname, Json.truthy]
  · simp only [Json.truthy, bne_iff_ne, ne_eq, hname, not_false_eq_true, if_true, if_false, Options.path]
    split <;> simp_all

/-- Where the option for the project is a text, nothing is loaded exactly if the text is empty, no file is at its path,
or a text that is no document. A project is loaded exactly if the text of the file is a document that describes it. In
all other cases loading fails: the path leads to something that cannot be read as a text, or to a document with a number
that is too long, or to one that describes no project. -/
theorem loadProject_iff (t : FileTree) (o : Options) (name : String)
    (h : o.values.get? projectKey = some (.str name)) :
    let path := o.userDirectory.join (.ofText name)
    let loaded := (loadProject t o).2
    (loaded = .ok none ↔ name = "" ∨ t.readText path = .error .missing ∨
        ∃ text, t.readText path = .ok text ∧ Json.parse text = .error .malformed) ∧
      (∀ p, loaded = .ok (some p) ↔ name ≠ "" ∧ p.path = path ∧
        ∃ text document, t.readText path = .ok text ∧ Json.parse text = .ok document ∧ p.Described document) ∧
      ((∃ fault, loaded = .error fault) ↔ name ≠ "" ∧
        ((∃ fault, t.readText path = .error fault ∧ fault ≠ .missing) ∨
          ∃ text, t.readText path = .ok text ∧ (Json.parse text = .error .tooLong ∨
            ∃ document, Json.parse text = .ok document ∧ ∀ p : Project, ¬p.Described document))) := by
  intro path loaded
  have hloaded : loaded = _ := snd_loadProject h
  by_cases hname : name = ""
  · rw [if_pos hname] at hloaded
    simp [hloaded, hname]
  rw [if_neg hname] at hloaded
  simp only [hname, false_or, not_false_eq_true, true_and, ne_eq]
  rw [← isNoProject_read_iff, ← not_isNoProject_read_iff]
  simp only [← Project.read_eq_ok_iff]
  rw [hloaded]
  cases (Project.read t path).2 with
  | ok p => simp
  | error fault => cases hno : isNoProject fault <;> simp [hno]

/-- Options that name a project in the directory of the user. -/
def strictOptions : Options where
  userDirectory := ⟨"", []⟩
  file := ⟨"", [fileName]⟩
  values := .object [(projectKey, .str "strict.json")]

/-- What the project is loaded from in the home directory. -/
theorem readText_strict (stored : Stored) :
    (homeWith "strict.json" stored).readText (strictOptions.userDirectory.join (.ofText "strict.json")) =
      FileTree.Stored.read stored := by
  have hpath : strictOptions.userDirectory.join (.ofText "strict.json") = ⟨"", ["strict.json"]⟩ := by decide +kernel
  have hname : FilePath.Named ⟨"", ["strict.json"]⟩ := by simp [FilePath.Named]
  rw [hpath, readText_homeWith hname (by decide) (by decide)]

theorem readText_strict_text {text : String} (h : '\r' ∉ text.toList) :
    (homeWith "strict.json" (.text text)).readText (strictOptions.userDirectory.join (.ofText "strict.json")) =
      .ok text := (readText_strict _).trans (FileTree.read_text h)

/-- What is loaded is what is read from there, unless that counts as no project. -/
theorem snd_loadProject_strict (stored : Stored) :
    (loadProject (homeWith "strict.json" stored) strictOptions).2 =
      match (Project.read (homeWith "strict.json" stored)
          (strictOptions.userDirectory.join (.ofText "strict.json"))).2 with
      | .ok project => .ok (some project)
      | .error fault => if isNoProject fault then .ok none else .error (.project fault) := by
  have hname : strictOptions.values.get? projectKey = some (.str "strict.json") := rfl
  rw [snd_loadProject hname, if_neg (by decide)]

theorem loadProject_iff_strict :
    let loaded (text : String) := (loadProject (homeWith "strict.json" (.text text)) strictOptions).2
    strictOptions.values.get? projectKey = some (.str "strict.json") ∧ loaded "\x7b" = .ok none ∧
      loaded "\x7b\"lints\": [\x7b\x7d]\x7d" = .ok (some ⟨⟨"", ["strict.json"]⟩, .str "", [{}]⟩) := by
  intro loaded
  have hname : strictOptions.values.get? projectKey = some (.str "strict.json") := rfl
  refine ⟨hname, ?_, ?_⟩
  · have hparse : Json.parse "\x7b" = .error .malformed := by decide +kernel
    exact (loadProject_iff _ _ _ hname).1.2 (.inr (.inr ⟨_, readText_strict_text (by decide +kernel), hparse⟩))
  · have hpath : (⟨"", ["strict.json"]⟩ : FilePath) = strictOptions.userDirectory.join (.ofText "strict.json") := by
      decide +kernel
    have hparse : Json.parse "\x7b\"lints\": [\x7b\x7d]\x7d" = .ok (.object [("lints", .list [.object []])]) := by
      decide +kernel
    refine ((loadProject_iff _ _ _ hname).2.1 _).2 ⟨by decide, hpath, _, _, readText_strict_text (by decide +kernel),
      hparse, _, [.object []], rfl, rfl, .inl rfl, ?_⟩
    exact .cons ⟨[], rfl, fun _ hkey => absurd hkey List.not_mem_nil, rfl, rfl, rfl⟩ .nil

/-- With a directory in the place of the project, or bytes that are no text, or a document that is a list, or one with a
rule that has a member too many, loading fails. -/
theorem unloadable_projects :
    let loaded (stored : Stored) := (loadProject (homeWith "strict.json" stored) strictOptions).2
    loaded .directory = .error (.project (.document (.file .isDirectory))) ∧
      loaded .binary = .error (.project (.document (.file .notText))) ∧
      loaded (.text "[]") = .error (.project .notObject) ∧
      loaded (.text "\x7b\"lints\": [\x7b\"lint\": \"x\"\x7d]\x7d") = .error (.project (.rule .unknownForm)) := by
  intro loaded
  have hlist : Json.parse "[]" = .ok (.list []) := by decide +kernel
  have hrule : Json.parse "\x7b\"lints\": [\x7b\"lint\": \"x\"\x7d]\x7d" =
      .ok (.object [("lints", .list [.object [("lint", .str "x")]])]) := by decide +kernel
  refine ⟨?_, ?_, ?_, ?_⟩
  · refine (snd_loadProject_strict _).trans ?_
    rw [Project.snd_read, readText_of_readDocument (readText_strict .directory)]
    rfl
  · refine (snd_loadProject_strict _).trans ?_
    rw [Project.snd_read, readText_of_readDocument (readText_strict .binary)]
    rfl
  · refine (snd_loadProject_strict _).trans ?_
    rw [Project.snd_read, readDocument_of_readText (readText_strict_text (by decide +kernel)), hlist]
    rfl
  · refine (snd_loadProject_strict _).trans ?_
    rw [Project.snd_read, readDocument_of_readText (readText_strict_text (by decide +kernel)), hrule]
    rfl

end Options

end NestLint
