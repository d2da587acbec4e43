import NestLint.Proofs.Registry.History

/-!
# Loaders that fail

A loader is given up before it is called, and what it was pending for is not put back if it fails. So the registry stays
as the loader has left it, and the name stands for nothing from then on.

This is `Registrant.get`, and `find` on top of it.

* `Same`, `SameBut`: what two registries have in common;
* `Vacant`, `vacant_carryOutAll`: a key that stands for nothing, and how long it does so;
* `find_eq_none_iff`: when a name is taken to stand for nothing;
* `failure_of_get`: what a failing loader leaves behind.
-/

namespace NestLint

universe u v w

namespace Registry

variable {κ : Type u} {ℓ : Type v} {ε : Type w}

/-! ## Comparing registries -/

/-- Two registries that have the same under every key, in whatever order. -/
structure Same (r r' : Registry κ ℓ) : Prop where
  registered : ∀ key, Dict.get? r.registered key = Dict.get? r'.registered key
  pending : ∀ key, Dict.get? r.pending key = Dict.get? r'.pending key

/-- Two registries that have the same under every key, except that something else may be pending under one. -/
structure SameBut (key : String) (r r' : Registry κ ℓ) : Prop where
  registered : ∀ other, Dict.get? r.registered other = Dict.get? r'.registered other
  pending : ∀ other, other ≠ key → Dict.get? r.pending other = Dict.get? r'.pending other

theorem same_iff {r r' : Registry κ ℓ} (key : String) :
    r.Same r' ↔ SameBut key r r' ∧ Dict.get? r.pending key = Dict.get? r'.pending key := by
  constructor
  · exact fun h => ⟨⟨h.registered, fun other _ => h.pending other⟩, h.pending key⟩
  · rintro ⟨h, hkey⟩
    refine ⟨h.registered, fun other => ?_⟩
    by_cases hother : other = key
    · rw [hother, hkey]
    · exact h.pending other hother

/-! ## Keys that stand for nothing -/

/-- Nothing is registered under a key, and no loader is pending there. -/
structure Vacant (r : Registry κ ℓ) (key : String) : Prop where
  registered : Dict.get? r.registered key = none
  pending : Dict.get? r.pending key = none

/-- A deed files nothing under a key, and keeps it for nothing. -/
def Deed.Spares (key : String) : Deed κ ℓ → Prop
  | .define name _ | .defer name _ => normalize name ≠ key
  | .get _ | .find _ => True

/-- Loaders file nothing under a key, and keep it for nothing. -/
def Sparing (load : Loading κ ℓ ε) (key : String) : Prop :=
  ∀ loader r, r.Vacant key → (load loader r).1.Vacant key

/-- A registry after a deed, with loaders that may fail. -/
def carryOut (load : Loading κ ℓ ε) (r : Registry κ ℓ) : Deed κ ℓ → Registry κ ℓ
  | .define name thing => r.register name thing
  | .defer name loader => r.lazyRegister name loader
  | .get name => (r.get load name).1
  | .find name => (r.find load name).1

/-- A registry after several deeds, with loaders that may fail. -/
def carryOutAll (load : Loading κ ℓ ε) (r : Registry κ ℓ) (deeds : List (Deed κ ℓ)) : Registry κ ℓ :=
  deeds.foldl (carryOut load) r

variable {load : Loading κ ℓ ε} {r left : Registry κ ℓ} {key name : String} {loader : ℓ} {fault : LookUpFault ε}

theorem get_of_vacant (h : r.Vacant (normalize name)) : r.get load name = (r, .error .unknown) := by
  simp only [get, h.pending, h.registered]

theorem Vacant.register (h : r.Vacant key) (hname : normalize name ≠ key) (thing : κ) :
    (r.register name thing).Vacant key where
  registered := by rw [Registry.register, Dict.get?_insert, if_neg hname, h.registered]
  pending := by rw [Registry.register, Dict.get?_erase, if_neg hname, h.pending]

theorem Vacant.lazyRegister (h : r.Vacant key) (hname : normalize name ≠ key) (loader : ℓ) :
    (r.lazyRegister name loader).Vacant key := by
  rw [Registry.lazyRegister]
  split
  · exact h
  · exact ⟨h.registered, by rw [Dict.get?_insert, if_neg hname, h.pending]⟩

/-- What a lookup makes of what a loader has done. -/
theorem get_of_called (hpending : Dict.get? r.pending (normalize name) = some loader) : r.get load name =
    match load loader (r.taking (normalize name)) with
    | (left, .error fault) => (left, .error fault)
    | (left, .ok thing) =>
      ({ left with registered := Dict.insert left.registered (normalize name) thing }, .ok thing) := by
  rw [get, hpending]
  rfl

/-- A lookup of another name files something under that name only, besides what the loader does. -/
theorem Vacant.get (h : r.Vacant key) (hload : Sparing load key) (name : String) : (r.get load name).1.Vacant key := by
  by_cases hname : normalize name = key
  · rw [get_of_vacant (hname ▸ h)]
    exact h
  · cases hpending : Dict.get? r.pending (normalize name) with
    | none =>
      rw [fst_get_of_not_pending hpending]
      exact h
    | some loader =>
      have htaking : (r.taking (normalize name)).Vacant key :=
        ⟨h.registered, by rw [taking, Dict.get?_erase, if_neg hname, h.pending]⟩
      have hleft := hload loader _ htaking
      rw [get_of_called hpending]
      split
      · rename_i left fault hfails
        rwa [hfails] at hleft
      · rename_i left thing hloads
        rw [hloads] at hleft
        exact ⟨by rw [Dict.get?_insert, if_neg hname, hleft.registered], hleft.pending⟩

theorem Vacant.carryOut (h : r.Vacant key) (hload : Sparing load key) {deed : Deed κ ℓ} (hdeed : deed.Spares key) :
    (carryOut load r deed).Vacant key := by
  cases deed with
  | define name thing => exact h.register hdeed thing
  | defer name loader => exact h.lazyRegister hdeed loader
  | get name => exact h.get hload name
  | find name =>
    rw [Registry.carryOut, find_eq]
    exact h.get hload name

/-- A key that stands for nothing does so until something is filed under it, or it is kept for a loader. -/
theorem vacant_carryOutAll (h : r.Vacant key) (hload : Sparing load key) {deeds : List (Deed κ ℓ)}
    (hdeeds : ∀ deed ∈ deeds, deed.Spares key) : (carryOutAll load r deeds).Vacant key := by
  induction deeds generalizing r with
  | nil => exact h
  | cons deed rest ih =>
    obtain ⟨hdeed, hrest⟩ := List.forall_mem_cons.1 hdeeds
    exact ih (h.carryOut hload hdeed) hrest

/-! ## Failing loaders -/

theorem get_of_failing (hpending : Dict.get? r.pending (normalize name) = some loader)
    (hfails : load loader (r.taking (normalize name)) = (left, .error fault)) :
    r.get load name = (left, .error fault) := by
  rw [get_of_called hpending, hfails]

/-- A name is taken to stand for nothing if it does, but also if its loader says so of whatever name. -/
theorem find_eq_none_iff : (r.find load name).2 = .ok none ↔ r.Vacant (normalize name) ∨
    ∃ loader left, Dict.get? r.pending (normalize name) = some loader ∧
      load loader (r.taking (normalize name)) = (left, .error .unknown) := by
  have hget : (r.find load name).2 = .ok none ↔ (r.get load name).2 = .error .unknown := by
    rw [find_eq]
    split <;> rename_i hfound <;> simp [hfound]
  rw [hget]
  constructor
  · intro h
    cases hpending : Dict.get? r.pending (normalize name) with
    | none =>
      simp only [get, hpending] at h
      cases hregistered : Dict.get? r.registered (normalize name) with
      | none => exact .inl ⟨hregistered, hpending⟩
      | some thing => simp [hregistered] at h
    | some loader =>
      rw [get_of_called hpending] at h
      split at h
      · rename_i left fault hfails
        rw [← Except.error.inj h]
        exact .inr ⟨loader, left, rfl, hfails⟩
      · cases h
  · rintro (hvacant | ⟨loader, left, hpending, hfails⟩)
    · rw [get_of_vacant hvacant]
    · rw [get_of_failing hpending hfails]

/-- How the search for a name ends when looking it up fails. -/
def answerTo : LookUpFault ε → Except ε (Option κ)
  | .unknown => .ok none
  | .loading reason => .error reason

/-- What a loader leaves behind that fails, having been called for a name. -/
structure Failure (load : Loading κ ℓ ε) (r : Registry κ ℓ) (name : String) (loader : ℓ) (left : Registry κ ℓ)
    (fault : LookUpFault ε) : Prop where
  /-- The failure goes through, and nothing is put back. -/
  get : r.get load name = (left, .error fault)
  /-- A failure that says that a name stands for nothing is taken for an answer. -/
  find : r.find load name = (left, answerTo fault)
  /-- The registry is as it was exactly if the loader has changed nothing for good and has kept the name for itself. -/
  restored : left.Same r ↔ SameBut (normalize name) left r ∧ Dict.get? left.pending (normalize name) = some loader
  /-- A loader that only defines things does not keep the name for itself. -/
  given_up : ∀ definitions, left = (r.taking (normalize name)).registerAll definitions →
    ¬ left.Same r ∧ Dict.get? left.pending (normalize name) = none ∧
      left.registered = Dict.merge r.registered (definitions.map entry)
  /-- A name that is kept for nothing any more is not loaded again, however often it is looked up, until it is kept for
  a loader again or something is filed under it. -/
  retried : left.Vacant (normalize name) → Sparing load (normalize name) →
    ∀ deeds, (∀ deed ∈ deeds, deed.Spares (normalize name)) →
      let later := carryOutAll load left deeds
      called? later (.get name) = none ∧ later.get load name = (later, .error .unknown) ∧
        later.find load name = (later, .ok none)

theorem get?_pending_of_registerAll (r : Registry κ ℓ) (key : String) (definitions : List (String × κ)) :
    Dict.get? ((r.taking key).registerAll definitions).pending key = none := by
  rw [get?_pending_registerAll, taking, Dict.get?_erase, if_pos rfl, ite_self]

/-- A loader that fails is given up, and its failure goes through. It leaves the registry as it was only if it keeps the
name for itself. Apart from that, a name is taken to stand for nothing exactly if it does. -/
theorem failure_of_get (load : Loading κ ℓ ε) (r : Registry κ ℓ) (name : String) :
    (∀ loader left fault, Dict.get? r.pending (normalize name) = some loader →
      load loader (r.taking (normalize name)) = (left, .error fault) → Failure load r name loader left fault) ∧
    ((r.find load name).2 = .ok none ↔ r.Vacant (normalize name) ∨
      ∃ loader left, Dict.get? r.pending (normalize name) = some loader ∧
        load loader (r.taking (normalize name)) = (left, .error .unknown)) := by
  refine ⟨fun loader left fault hpending hfails => ?_, find_eq_none_iff⟩
  have hget := get_of_failing hpending hfails
  refine ⟨hget, ?_, ?_, fun definitions hleft => ?_, fun hvacant hload deeds hdeeds => ?_⟩
  · rw [find_eq, hget]
    cases fault <;> rfl
  · rw [same_iff (normalize name), hpending]
  · have hgone : Dict.get? left.pending (normalize name) = none := hleft ▸ get?_pending_of_registerAll ..
    refine ⟨fun hsame => ?_, hgone, hleft ▸ registered_registerAll ..⟩
    cases hpending.symm.trans ((hsame.pending _).symm.trans hgone)
  · have hlater := vacant_carryOutAll hvacant hload hdeeds
    refine ⟨by simp [called?, Deed.sought?, hlater.pending], get_of_vacant hlater, ?_⟩
    rw [find_eq, get_of_vacant hlater]

/-- A loader that defines a thing before it fails. When its name is looked up again, between other deeds, nothing is
loaded, and the name is said to be unknown. -/
theorem failure_of_get_partial :
    let r : Registry Nat String := ⟨[("ready", 1)], [("late", "module"), ("other", "module")]⟩
    let load : Loading Nat String String := fun loader r => (r.register "part" 2, .error (.loading loader))
    let left : Registry Nat String := ⟨[("ready", 1), ("part", 2)], [("other", "module")]⟩
    let deeds : List (Deed Nat String) := [.find "Late", .get "other", .defer "more" "module"]
    let later := carryOutAll load left deeds
    Dict.get? r.pending (normalize "LATE") = some "module" ∧
      load "module" (r.taking (normalize "LATE")) = (left, .error (.loading "module")) ∧
      left.Vacant (normalize "LATE") ∧ Sparing load (normalize "LATE") ∧
      Failure load r "LATE" "module" left (.loading "module") ∧
      (∀ deed ∈ deeds, deed.Spares (normalize "LATE")) ∧
      later.get load "LATE" = (later, .error .unknown) ∧ later.pending = [("more", "module")] := by
  intro r load left deeds later
  have hvacant : left.Vacant (normalize "LATE") := ⟨rfl, rfl⟩
  have hsparing : Sparing load (normalize "LATE") := fun loader r h => h.register (by decide) 2
  have hfailure := (failure_of_get load r "LATE").1 "module" left (.loading "module") rfl rfl
  have hdeeds : ∀ deed ∈ deeds, deed.Spares (normalize "LATE") := by
    have hmore : normalize "more" ≠ normalize "LATE" := by decide
    simp [deeds, Deed.Spares, hmore]
  exact ⟨rfl, rfl, hvacant, hsparing, hfailure, hdeeds, (hfailure.retried hvacant hsparing _ hdeeds).2.1, rfl⟩

/-- A name whose loader fails once is unknown from then on, and it is taken to stand for nothing if its loader says that
of another name. -/
theorem given_up_late :
    let r : Registry Nat String := ⟨[], [("late", "module")]⟩
    let broken : Loading Nat String String := fun _ r => (r, .error (.loading "broken"))
    let unknowing : Loading Nat String String := fun _ r => (r, .error .unknown)
    (r.get broken "late").2 = .error (.loading "broken") ∧ ¬ (r.get broken "late").1.Same r ∧
      ((r.get broken "late").1.get broken "late").2 = .error .unknown ∧
      (r.find unknowing "late").2 = .ok none ∧ Dict.get? r.pending (normalize "late") = some "module" := by
  intro r broken unknowing
  refine ⟨rfl, fun hsame => ?_, rfl, rfl, rfl⟩
  cases hsame.pending "late"

end Registry

end NestLint
