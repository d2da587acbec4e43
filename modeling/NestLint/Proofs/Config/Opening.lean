import Mathlib.Control.Monad.Basic
import NestLint.Config.Options
import NestLint.Proofs.Files.Refusals
import NestLint.Proofs.Files.Writing

/-!
# Opening options

Options are opened from a file that may hold anything. Where there is no file, or a text that is no document, the
options are those of a program without any settings. Anything else that keeps the text from being read keeps the
options from being opened, and a document of any kind is taken for the options: if it is no object, the options are
open, but cannot be used.

Opening is `_load` of `LintConfiguration`, and the requests are `get`, `set`, `log_dir` and `save`.

* `answer`, `answerAll`: what can be asked of options that are open, one request and one after the other;
* `holds_answer`, `holds_answerAll`: options that are an object stay one, and answer everything;
* `usable_of_load`: which options can be opened, and which can be used then;
* `unusable_options`: a directory, bytes that are no text, and a list in the place of the file.
-/

namespace NestLint.Options

/-! ## Requests -/

/-- What can be asked of options that are open. -/
inductive Request where
  | getD (name : String) (fallback : Json)
  | get (name : String)
  | set (name : String) (value : Json)
  | logDirectory
  | save

/-- The answer to a request. -/
inductive Answer where
  | value (result : Except Fault Json)
  | done (result : Except Fault Unit)
  | directory (result : Except Fault FilePath)
  | saved (result : Except FileFault Unit)

/-- The request is granted, or something is wrong with the option that it is about: there is none of the name, or it is
no text where a path is wanted. -/
def Answer.Holds : Answer → Prop
  | .value (.error fault) => fault = .noSuchOption
  | .directory (.error fault) => fault = .notPath
  | .done (.error _) | .saved (.error _) => False
  | _ => True

/-- A request is answered: the files and the options after it, and the answer. -/
def answer (t : FileTree) (o : Options) : Request → FileTree × Options × Answer
  | .getD name fallback => (t, o, .value (o.getD name fallback))
  | .get name => (t, o, .value (o.get name))
  | .set name value =>
    match o.set name value with
    | .ok o => (t, o, .done (.ok ()))
    | .error fault => (t, o, .done (.error fault))
  | .logDirectory =>
    let (o, result) := o.logDirectory
    (t, o, .directory result)
  | .save =>
    let (t, _, result) := o.save t
    (t, o, .saved result)

/-- The answers to requests one after the other. -/
def answerAll : FileTree → Options → List Request → List Answer
  | _, _, [] => []
  | t, o, request :: rest =>
    let (t, o, given) := answer t o request
    given :: answerAll t o rest

/-- The options are an object, and their file has a name. -/
structure Usable (o : Options) : Prop where
  object : ∃ members, o.values = .object members
  named : o.file.Named

theorem save_eq_ok {o : Options} (h : o.file.Named) (t : FileTree) : (o.save t).2.2 = .ok () := by
  rw [save]
  split
  · rfl
  · rename_i fault hwrite
    rw [if_pos (FileTree.isOfSystem_of_writeDocument h (by rw [hwrite]))]

theorem holds_path (value : Json) : Answer.Holds (.directory (path value)) := by
  cases value with
  | str text => trivial
  | _ => rfl

theorem holds_logDirectory {o : Options} (h : o.Usable) :
    o.logDirectory.1.Usable ∧ Answer.Holds (.directory o.logDirectory.2) := by
  obtain ⟨⟨members, hmembers⟩, hnamed⟩ := h
  simp only [logDirectory, getD, set, hmembers, Json.members?]
  split
  · exact ⟨⟨⟨members, hmembers⟩, hnamed⟩, holds_path _⟩
  · exact ⟨⟨⟨_, rfl⟩, hnamed⟩, trivial⟩

/-- Options that can be used answer a request, and can be used after it. -/
theorem holds_answer {o : Options} (h : o.Usable) (t : FileTree) (request : Request) :
    (answer t o request).2.1.Usable ∧ (answer t o request).2.2.Holds := by
  obtain ⟨members, hmembers⟩ := h.object
  cases request with
  | getD name fallback =>
    refine ⟨h, ?_⟩
    simp only [answer, getD, hmembers, Json.members?]
    trivial
  | get name =>
    refine ⟨h, ?_⟩
    simp only [answer, get, hmembers, Json.members?]
    cases Dict.get? members name with
    | none => rfl
    | some value => trivial
  | set name value =>
    simp only [answer, set, hmembers, Json.members?]
    exact ⟨⟨⟨_, rfl⟩, h.named⟩, trivial⟩
  | logDirectory => exact holds_logDirectory h
  | save =>
    refine ⟨h, ?_⟩
    show Answer.Holds (.saved (o.save t).2.2)
    rw [save_eq_ok h.named]
    trivial

theorem holds_answerAll {o : Options} (h : o.Usable) (t : FileTree) (requests : List Request) :
    ∀ given ∈ answerAll t o requests, given.Holds := by
  induction requests generalizing t o with
  | nil => exact nofun
  | cons request rest ih =>
    obtain ⟨husable, hgiven⟩ := holds_answer h t request
    exact List.forall_mem_cons.2 ⟨hgiven, ih husable _⟩

/-! ## What is opened -/

section

variable {t : FileTree} {userDirectory : FilePath} {file : Option FilePath} {o : Options}

/-- What the text at the path comes to. -/
theorem snd_load : (load t userDirectory file).2 =
    match t.readDocument (file.getD (userDirectory.child fileName)) with
    | .ok values => .ok { userDirectory, file := file.getD (userDirectory.child fileName), values }
    | .error (.file .missing) | .error .malformed =>
      .ok { userDirectory, file := file.getD (userDirectory.child fileName) }
    | .error fault => .error fault := by
  rw [load]
  split <;> simp_all

theorem readText_of_readDocument {path : FilePath} {fault : FileFault} (h : t.readText path = .error fault) :
    t.readDocument path = .error (.file fault) := by
  rw [FileTree.readDocument, h]

theorem readDocument_of_readText {path : FilePath} {text : String} (h : t.readText path = .ok text) :
    t.readDocument path = (Json.parse text).mapError fun
      | .malformed => .malformed
      | .tooLong => .tooLong := by
  cases hparse : Json.parse text with
  | ok document => simp [FileTree.readDocument, h, hparse, Except.mapError]
  | error fault => cases fault <;> simp [FileTree.readDocument, h, hparse, Except.mapError]

/-- Options belong to the file that they are opened from, and their values are what it holds, or empty. -/
theorem eq_of_load (h : (load t userDirectory file).2 = .ok o) :
    let path := file.getD (userDirectory.child fileName)
    o = { userDirectory, file := path, values := o.values } ∧
      (t.readDocument path = .ok o.values ∨ (∀ document, t.readDocument path ≠ .ok document) ∧ o.values = .object []) := by
  rw [snd_load] at h
  split at h
  · rename_i hread
    cases h
    exact ⟨rfl, .inl hread⟩
  · rename_i hread
    cases h
    exact ⟨rfl, .inr ⟨fun document => by rw [hread]; nofun, rfl⟩⟩
  · rename_i hread
    cases h
    exact ⟨rfl, .inr ⟨fun document => by rw [hread]; nofun, rfl⟩⟩
  · cases h

theorem load_eq_ok_iff : (∃ o, (load t userDirectory file).2 = .ok o) ↔
    t.readText (file.getD (userDirectory.child fileName)) = .error .missing ∨
      ∃ text, t.readText (file.getD (userDirectory.child fileName)) = .ok text ∧ Json.parse text ≠ .error .tooLong := by
  rw [snd_load]
  cases htext : t.readText (file.getD (userDirectory.child fileName)) with
  | error fault =>
    rw [readText_of_readDocument htext]
    cases fault <;> simp
  | ok text =>
    rw [readDocument_of_readText htext]
    cases hparse : Json.parse text with
    | ok document => simp [Except.mapError, hparse]
    | error fault => cases fault <;> simp [Except.mapError, hparse]

/-- A name that no file can have keeps options from being opened. -/
theorem named_of_load (h : (load t userDirectory file).2 = .ok o) : o.file.Named := by
  rw [(eq_of_load h).1]
  refine FileTree.named_of_readText (t := t) fun hinvalid => ?_
  obtain hmissing | ⟨text, htext, -⟩ := load_eq_ok_iff.1 ⟨o, h⟩
  · cases hinvalid.symm.trans hmissing
  · cases hinvalid.symm.trans htext

/-- Options that are open can be used exactly if they are an object. -/
theorem holds_answerAll_iff (hnamed : o.file.Named) :
    (∀ (t : FileTree) (requests : List Request), ∀ given ∈ answerAll t o requests, given.Holds) ↔
      ∃ members, o.values = .object members := by
  constructor
  · intro h
    have hgiven : Answer.Holds (.value (o.getD "" .null)) := h {} [.getD "" .null] _ (.head _)
    cases hmembers : o.values.members? with
    | none =>
      simp only [getD, hmembers] at hgiven
      cases hgiven
    | some members =>
      cases hvalues : o.values with
      | object members => exact ⟨members, rfl⟩
      | _ =>
        rw [hvalues] at hmembers
        cases hmembers
  · exact fun hobject => holds_answerAll ⟨hobject, hnamed⟩

end

/-- Options can be opened exactly if nothing is at the path, or a text in which no number is too long. If the text is
a document, that is what the options are; if it is none, or nothing is there, they are those of a program without any
settings. Once open, they answer every sequence of requests, whatever becomes of the files, exactly if they are an
object. -/
theorem usable_of_load (t : FileTree) (userDirectory : FilePath) (file : Option FilePath) :
    let path := file.getD (userDirectory.child fileName)
    let fresh : Options := { userDirectory, file := path }
    ((∃ o, (load t userDirectory file).2 = .ok o) ↔
        t.readText path = .error .missing ∨ ∃ text, t.readText path = .ok text ∧ Json.parse text ≠ .error .tooLong) ∧
      ∀ o, (load t userDirectory file).2 = .ok o →
        (∀ document, t.readDocument path = .ok document → o = { fresh with values := document }) ∧
        ((∀ document, t.readDocument path ≠ .ok document) → o = fresh) ∧
        ((∀ (t' : FileTree) (requests : List Request), ∀ given ∈ answerAll t' o requests, given.Holds) ↔
          ∃ members, o.values = .object members) := by
  intro path fresh
  refine ⟨load_eq_ok_iff, fun o h => ?_⟩
  obtain ⟨heq, hvalues⟩ := eq_of_load h
  refine ⟨fun document hread => ?_, fun hnone => ?_, holds_answerAll_iff (named_of_load h)⟩
  · obtain hread' | ⟨hnone, -⟩ := hvalues
    · rwa [Except.ok.inj (hread'.symm.trans hread)] at heq
    · exact absurd hread (hnone document)
  · obtain hread | ⟨-, hempty⟩ := hvalues
    · exact absurd hread (hnone o.values)
    · rwa [hempty] at heq

/-- A home directory with something under a name. -/
def homeWith (name : String) (stored : Stored) : FileTree :=
  { entries := [(["home"], .directory), (["home", name], stored)], start := ["home"] }

/-- What is in the home directory under a name is what is read there. -/
theorem readText_homeWith {name : String} (hname : FilePath.Named ⟨"", [name]⟩)
    (hsize : name.utf8ByteSize ≤ FileTree.nameLimit) (hdots : name ≠ "..") (stored : Stored) :
    (homeWith name stored).readText ⟨"", [name]⟩ = FileTree.Stored.read stored := by
  have htext : FilePath.text ⟨"", [name]⟩ = name := by simp [FilePath.text]
  have hshort : ¬FileTree.pathLimit ≤ name.utf8ByteSize := by
    rw [FileTree.nameLimit] at hsize
    rw [FileTree.pathLimit]
    omega
  have hlocate : (homeWith name stored).locate ⟨"", [name]⟩ = .ok ["home", name] := by
    rw [FileTree.locate_of_named hname, htext, if_neg hshort]
    simp [homeWith, FileTree.follow, FileTree.stored?, FileTree.search, Nat.not_lt.2 hsize, hdots, FilePath.isAbsolute]
  have hstored : (homeWith name stored).stored? ["home", name] = some stored := by
    simp [homeWith, FileTree.stored?, FileTree.search]
  simp [FileTree.readText, FileTree.lookUp, hlocate, hstored, bind, Except.bind, pure, Except.pure]

/-- What options are opened from in the home directory. -/
theorem readText_fileName (stored : Stored) :
    (homeWith fileName stored).readText ((FilePath.mk "" []).child fileName) = FileTree.Stored.read stored := by
  have hfile : (FilePath.mk "" []).child fileName = ⟨"", [fileName]⟩ := by decide +kernel
  have hname : FilePath.Named ⟨"", [fileName]⟩ := by simp [FilePath.Named, fileName]
  rw [hfile, readText_homeWith hname (by decide) (by decide)]

/-- What becomes of options that a text in the home directory holds. -/
theorem snd_load_text {text : String} (h : '\r' ∉ text.toList) :
    let user : FilePath := ⟨"", []⟩
    (load (homeWith fileName (.text text)) user none).2 =
      match Json.parse text with
      | .ok values => .ok { userDirectory := user, file := user.child fileName, values }
      | .error .malformed => .ok { userDirectory := user, file := user.child fileName }
      | .error .tooLong => .error .tooLong := by
  intro user
  have htext : (homeWith fileName (.text text)).readText (user.child fileName) = .ok text := by
    rw [readText_fileName, FileTree.read_text h]
  rw [snd_load, Option.getD_none, readDocument_of_readText htext]
  cases Json.parse text with
  | ok values => rfl
  | error fault => cases fault <;> rfl

/-- Options from a text that breaks off are empty, and those from an object are as they stand there. Both answer
everything. -/
theorem usable_of_load_text :
    let user : FilePath := ⟨"", []⟩
    let opened (text : String) := (load (homeWith fileName (.text text)) user none).2
    (∃ o, opened "\x7b\"project\": " = .ok o ∧ o = { userDirectory := user, file := user.child fileName } ∧
      ∀ (t : FileTree) (requests : List Request), ∀ given ∈ answerAll t o requests, given.Holds) ∧
    ∃ o, opened "\x7b\"project\": \"strict.json\"\x7d" = .ok o ∧
      o.values = .object [("project", .str "strict.json")] ∧
      ∀ (t : FileTree) (requests : List Request), ∀ given ∈ answerAll t o requests, given.Holds := by
  intro user opened
  have hbroken : opened "\x7b\"project\": " = .ok { userDirectory := user, file := user.child fileName } := by
    have hparse : Json.parse "\x7b\"project\": " = .error .malformed := by decide +kernel
    exact (snd_load_text (by decide +kernel)).trans (by rw [hparse])
  have hwhole : opened "\x7b\"project\": \"strict.json\"\x7d" =
      .ok { userDirectory := user, file := user.child fileName,
            values := .object [("project", .str "strict.json")] } := by
    have hparse : Json.parse "\x7b\"project\": \"strict.json\"\x7d" =
        .ok (.object [("project", .str "strict.json")]) := by decide +kernel
    exact (snd_load_text (by decide +kernel)).trans (by rw [hparse])
  refine ⟨⟨_, hbroken, rfl, ?_⟩, _, hwhole, rfl, ?_⟩
  · exact ((usable_of_load _ _ none).2 _ hbroken).2.2.2 ⟨[], rfl⟩
  · exact ((usable_of_load _ _ none).2 _ hwhole).2.2.2 ⟨_, rfl⟩

/-- With a directory in the place of the options, or bytes that are no text, they cannot be opened. With a list there
they can, and then no option can be asked for or set, and nothing says where logs are kept. -/
theorem unusable_options :
    let opened (stored : Stored) := (load (homeWith fileName stored) ⟨"", []⟩ none).2
    opened .directory = .error (.file .isDirectory) ∧ opened .binary = .error (.file .notText) ∧
      ∃ o, opened (.text "[]") = .ok o ∧ o.values = .list [] ∧ o.getD "project" .null = .error .noOptions ∧
        (∀ o', o.set "project" .null ≠ .ok o') ∧ o.logDirectory.2 = .error .noOptions := by
  intro opened
  have hlist : opened (.text "[]") =
      .ok { userDirectory := ⟨"", []⟩, file := (FilePath.mk "" []).child fileName, values := .list [] } := by
    have hparse : Json.parse "[]" = .ok (.list []) := by decide +kernel
    exact (snd_load_text (by decide +kernel)).trans (by rw [hparse])
  refine ⟨?_, ?_, _, hlist, rfl, rfl, fun o' h => (by cases h), rfl⟩
  · exact snd_load.trans (by rw [Option.getD_none, readText_of_readDocument (readText_fileName .directory)])
  · exact snd_load.trans (by rw [Option.getD_none, readText_of_readDocument (readText_fileName .binary)])

end NestLint.Options
