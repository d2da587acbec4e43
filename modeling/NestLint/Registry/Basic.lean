import NestLint.Dict
import NestLint.Text.Casing

/-!
# Registries

A registry keeps things under names, whatever the case of the names. A name may also be kept for
something that is loaded only when it is first asked for. What is registered under a name replaces
whatever the name was kept for.

The operations are `register`, `lazy_register`, `get`, `find` and `all` of `Registrant`, and
`normalize_key` forgets the case of a name.

* `Registry.get`: what a name stands for, loaded if need be;
* `pending_register`: a name that something is registered under is kept for nothing else.
-/

namespace NestLint

universe u v w

/-- Things under names, and loaders of things under names. -/
structure Registry (κ : Type u) (ℓ : Type v) where
  registered : Dict κ := []
  pending : Dict ℓ := []
  deriving Repr

/-- What keeps a name from being looked up. A loader may look up names itself, so it fails in the
same ways. -/
inductive LookUpFault (ε : Type w) where
  /-- A name stands for nothing. -/
  | unknown
  /-- A loader failed for a reason of its own. -/
  | loading (fault : ε)
  deriving DecidableEq, Repr

/-- What loaders do: they deliver a thing, and may change the registry on the way. -/
abbrev Loading (κ : Type u) (ℓ : Type v) (ε : Type w) : Type (max u v w) :=
  ℓ → Registry κ ℓ → Registry κ ℓ × Except (LookUpFault ε) κ

namespace Registry

variable {κ : Type u} {ℓ : Type v} {ε : Type w}

/-- The form of a name under which things are kept. -/
def normalize (name : String) : String := Text.lower name

/-- Keep something under a name. -/
def register (r : Registry κ ℓ) (name : String) (thing : κ) : Registry κ ℓ :=
  ⟨Dict.insert r.registered (normalize name) thing, Dict.erase r.pending (normalize name)⟩

/-- Keep a name for something that is loaded later, unless it stands for something already. -/
def lazyRegister (r : Registry κ ℓ) (name : String) (loader : ℓ) : Registry κ ℓ :=
  if Dict.contains r.registered (normalize name) then r
  else { r with pending := Dict.insert r.pending (normalize name) loader }

/-- What a name stands for. A loader is used up before it runs, and may change the registry
itself. -/
def get (load : Loading κ ℓ ε) (r : Registry κ ℓ) (name : String) :
    Registry κ ℓ × Except (LookUpFault ε) κ :=
  let key := normalize name
  match Dict.get? r.pending key with
  | some loader =>
    match load loader { r with pending := Dict.erase r.pending key } with
    | (r, .error fault) => (r, .error fault)
    | (r, .ok thing) => ({ r with registered := Dict.insert r.registered key thing }, .ok thing)
  | none =>
    match Dict.get? r.registered key with
    | some thing => (r, .ok thing)
    | none => (r, .error .unknown)

/-- What a name stands for, if it stands for anything. A name that a loader does not find counts as
well. -/
def find (load : Loading κ ℓ ε) (r : Registry κ ℓ) (name : String) :
    Registry κ ℓ × Except ε (Option κ) :=
  match r.get load name with
  | (r, .ok thing) => (r, .ok (some thing))
  | (r, .error .unknown) => (r, .ok none)
  | (r, .error (.loading fault)) => (r, .error fault)

/-- Everything that is registered, in order. -/
def all (r : Registry κ ℓ) : List κ := Dict.values r.registered

/-- The registry without anything registered. -/
def clear (r : Registry κ ℓ) : Registry κ ℓ := { r with registered := [] }

theorem get?_erase (d : Dict ℓ) (key : String) : Dict.get? (Dict.erase d key) key = none := by
  induction d with
  | nil => rfl
  | cons entry rest ih =>
    obtain ⟨k, v⟩ := entry
    by_cases h : k = key
    · simpa [Dict.erase, h] using ih
    · simpa [Dict.erase, h, Dict.get?] using ih

theorem pending_register (r : Registry κ ℓ) (name : String) (thing : κ) :
    Dict.get? (r.register name thing).pending (normalize name) = none := get?_erase ..

theorem get_register (load : Loading κ ℓ ε) (r : Registry κ ℓ) (name : String) (thing : κ) :
    (r.register name thing).get load name = (r.register name thing, .ok thing) := by
  simp [get, register, Dict.get?_insert, get?_erase]

end Registry

end NestLint
