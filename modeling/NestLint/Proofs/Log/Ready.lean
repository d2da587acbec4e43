import NestLint.Log.Host

/-!
# Hosts on which notes can always be said

Saying something can go wrong: an attribute may have a name that is taken, a log file may have to be
opened again, a text may not fit its template. None of this can happen to what the program itself
notes while it checks files, as long as the channels are the program's own and the log files are
open, and saying it keeps that so.

* `Context.Plain`, `Entry.Plain`: what the program notes while it checks files;
* `Host.Ready`: where it is said;
* `enter_of_ready`, `enterAll_of_ready`: one note and any number of them.
-/

namespace NestLint

/-! ## Plain entries -/

/-- Nothing is going on but work of a lint on a file. -/
def Context.Plain (c : Context) : Prop := ∀ key ∈ Dict.keys c, key = Context.lintKey ∨ key = Context.fileKey

/-- The note is on one of the program's own channels. -/
def Note.Own (n : Note) : Prop := n.channel ∈ Hub.ownNames

/-- A note on one of the program's own channels, made while nothing but work of a lint on a file was
going on. -/
structure Entry.Plain (e : Entry) : Prop where
  note : e.note.Own
  context : e.context.Plain

namespace Context

theorem Plain.current {c : Context} (h : c.Plain) : c.current.Plain := by
  rw [Context.current]
  split
  · intro key hkey
    exact .inl (List.mem_singleton.1 hkey)
  · exact h

theorem Plain.put {c : Context} (h : c.Plain) {key : String} (hkey : key = lintKey ∨ key = fileKey) (value : Json) :
    (c.put key value).Plain := by
  intro other hother
  by_cases hmem : key ∈ Dict.keys c.current
  · rw [Context.put, Dict.keys_insert_of_mem hmem] at hother
    exact h.current other hother
  · rw [Context.put, Dict.keys_insert_of_not_mem hmem] at hother
    obtain hother | hother := List.mem_append.1 hother
    · exact h.current other hother
    · rw [List.mem_singleton.1 hother]
      exact hkey

theorem Plain.remove {c : Context} (h : c.Plain) (key : String) : (c.remove key).Plain := by
  intro other hother
  refine h.current other ?_
  rw [Context.remove, Dict.erase, Dict.keys] at hother
  exact (List.filter_sublist.map Prod.fst).subset hother

theorem Plain.clash? {c : Context} (h : c.Plain) : Record.clash? c = none := by
  rw [Record.clash?, List.find?_eq_none]
  intro key hkey
  obtain rfl | rfl := h key hkey
  · decide
  · decide

theorem Plain.textWith {c : Context} (h : c.Plain) (text : Except TemplateFault String) :
    Record.textWith c text = text := by
  have hfree : ∀ {d : Context}, d.Plain → Dict.get? d Record.textAttribute = none := by
    intro d hd
    induction d with
    | nil => rfl
    | cons entry rest ih =>
      obtain ⟨key, value⟩ := entry
      have hne : key ≠ Record.textAttribute := by
        obtain rfl | rfl := hd key List.mem_cons_self
        · decide
        · decide
      rw [Dict.get?, if_neg hne]
      exact ih fun other hother => hd other (List.mem_cons_of_mem _ hother)
  rw [Record.textWith, Dict.contains, hfree h]
  rfl

end Context

/-! ## Channels of the program's own -/

namespace Hub

/-- Whether a name stands for one of the program's own channels. -/
def owns (h : Hub) (name : String) : Bool :=
  match Dict.get? h.names name with
  | some (.channel n) => (h.channel? n).any Channel.keepsContext
  | _ => false

/-- Asking for a channel that is there already changes nothing. -/
theorem own_of_owns {h : Hub} {name : String} (ho : h.owns name) (hname : name ∈ ownNames) (level : Int)
    (isTruth : Bool) : (h.own name level isTruth).1 = h := by
  have hproper : (name = "" || name = topName) = false := by
    have hall : ∀ name ∈ ownNames, (name = "" || name = topName) = false := by decide
    exact hall name hname
  rw [owns] at ho
  split at ho
  · rename_i n hn
    obtain ⟨c, hc, hkeeps⟩ := (Option.any_eq_true ..).1 ho
    have hlook : h.lookUp name = (h, n) := by
      rw [lookUp, hproper, hn]
      rfl
    rw [own, hlook]
    simp only [hc, hkeeps, if_true]
  · cases ho

theorem initial_owns : ∀ name ∈ ownNames, initial.owns name := by decide +kernel

end Hub

/-! ## Ready hosts -/

namespace Host

/-- The program's channels are its own, all log files are open or lost for good, and nothing is going
on but work of a lint on a file. -/
structure Ready (h : Host) : Prop where
  channels : ∀ name ∈ Hub.ownNames, h.hub.owns name
  files : ∀ f ∈ h.logFiles, f.opening ≠ .closed
  context : h.hub.context.Plain

theorem ready_initial : Ready {} where
  channels := Hub.initial_owns
  files := nofun
  context := by
    have hnone : Hub.initial.context = [] := by decide +kernel
    rw [hnone]
    nofun

/-- Only files, the console and the records have changed. -/
structure Keeps (h h' : Host) : Prop where
  hub : h'.hub = h.hub
  logFiles : h'.logFiles = h.logFiles

theorem Keeps.refl (h : Host) : h.Keeps h := ⟨rfl, rfl⟩

theorem Keeps.trans {a b c : Host} (hab : a.Keeps b) (hbc : b.Keeps c) : a.Keeps c :=
  ⟨hbc.hub.trans hab.hub, hbc.logFiles.trans hab.logFiles⟩

theorem Ready.of_keeps {h h' : Host} (ready : h.Ready) (hk : h.Keeps h') : h'.Ready where
  channels := by rw [hk.hub]; exact ready.channels
  files := by rw [hk.logFiles]; exact ready.files
  context := by rw [hk.hub]; exact ready.context

theorem keeps_writeLog (h : Host) (number : Nat) (text : String) : h.Keeps (h.writeLog number text) := by
  rw [writeLog]
  split
  · exact ⟨rfl, rfl⟩
  · exact Keeps.refl h

/-- An open log file need not be opened again. -/
theorem reopen_of_open {h : Host} (hf : ∀ f ∈ h.logFiles, f.opening ≠ .closed) (number : Nat) :
    h.reopen number = .ok h := by
  rw [reopen]
  split
  · rename_i location hlocation
    exact absurd rfl (hf _ (List.mem_of_getElem? hlocation))
  · rfl

theorem text_lineOf (h : Host) (r : Record) : (h.lineOf r).2.text = r.text := by
  have hline : ∀ {line : String} {r' : Record}, r.line? Record.lineTemplate h.clock = .ok (line, r') →
      r' = r.decorated := by
    intro line r' hok
    simp only [Record.line?, bind, Except.bind] at hok
    split at hok
    · cases hok
    · split at hok
      · cases hok
      · cases hok
        rfl
  rw [lineOf]
  split
  · rename_i line r' hok
    rw [hline hok]
    rfl
  · rfl

/-- A record whose text can be put together reaches every outlet. -/
theorem deliver_of_ready {h : Host} (hf : ∀ f ∈ h.logFiles, f.opening ≠ .closed) {r : Record} {text : String}
    (ht : r.text = .ok text) (outlet : Outlet) :
    ∃ h' r', h.deliver r outlet = (h', r', .ok ()) ∧ h.Keeps h' ∧ r'.text = .ok text := by
  cases outlet with
  | recorder =>
    refine ⟨{ h with recorded := h.recorded ++ [r] }, r, ?_, ⟨rfl, rfl⟩, ht⟩
    rw [deliver, ht]
  | silence => exact ⟨h, r, rfl, Keeps.refl h, ht⟩
  | console =>
    exact ⟨{ h with console := h.console ++ (h.lineOf r).1.getD "" }, (h.lineOf r).2, rfl, ⟨rfl, rfl⟩,
      (text_lineOf h r).trans ht⟩
  | file number =>
    refine ⟨h.writeLog number ((h.lineOf r).1.getD ""), (h.lineOf r).2, ?_, keeps_writeLog ..,
      (text_lineOf h r).trans ht⟩
    rw [deliver, reopen_of_open hf]
  | lastResort =>
    refine ⟨{ h with console := h.console ++ (text ++ "\n") }, r, ?_, ⟨rfl, rfl⟩, ht⟩
    rw [deliver, ht]

theorem deliverAll_of_ready : ∀ {h : Host}, (∀ f ∈ h.logFiles, f.opening ≠ .closed) → ∀ {r : Record} {text : String},
    r.text = .ok text → ∀ (outlets : List Outlet), ∃ h', h.deliverAll r outlets = (h', .ok ()) ∧ h.Keeps h'
  | h, _, r, _, _, [] => ⟨h, rfl, Keeps.refl h⟩
  | h, hf, r, text, ht, outlet :: rest => by
    obtain ⟨h₁, r₁, hdeliver, hk₁, ht₁⟩ := deliver_of_ready hf ht outlet
    obtain ⟨h₂, hrest, hk₂⟩ := deliverAll_of_ready (h := h₁) (by rw [hk₁.logFiles]; exact hf) ht₁ rest
    refine ⟨h₂, ?_, hk₁.trans hk₂⟩
    rw [deliverAll, hdeliver]
    exact hrest

/-- A plain entry can be said on a ready host. -/
theorem enter_of_ready {h : Host} (ready : h.Ready) {e : Entry} (plain : e.Plain) :
    ∃ h', h.enter e = (h', .ok ()) ∧ h.Keeps h' := by
  have hown := Hub.own_of_owns (ready.channels _ plain.note) plain.note Hub.defaultLevel false
  rw [enter]
  simp only [hown]
  rw [logOn]
  split
  · simp only [plain.context.clash?, plain.context.textWith]
    exact deliverAll_of_ready ready.files rfl _
  · exact ⟨h, rfl, Keeps.refl h⟩

/-- Any number of plain entries can be said on a ready host. -/
theorem enterAll_of_ready : ∀ {h : Host}, h.Ready → ∀ {entries : List Entry}, (∀ e ∈ entries, e.Plain) →
    ∃ h', h.enterAll entries = (h', .ok ()) ∧ h.Keeps h'
  | h, _, [], _ => ⟨h, rfl, Keeps.refl h⟩
  | h, ready, e :: rest, plain => by
    obtain ⟨h₁, henter, hk₁⟩ := enter_of_ready ready (plain e List.mem_cons_self)
    obtain ⟨h₂, hrest, hk₂⟩ := enterAll_of_ready (ready.of_keeps hk₁) fun e he => plain e (List.mem_cons_of_mem _ he)
    refine ⟨h₂, ?_, hk₁.trans hk₂⟩
    rw [enterAll, henter]
    exact hrest

end Host

end NestLint
