import NestLint.Proofs.Registry.Entries
import NestLint.Proofs.Text.AnyCase
import NestLint.Registry.Basic

/-!
# What becomes of a registry

Things are defined, names are kept for loaders, and names are looked up, in any order. A loader that is called returns
a thing, and may define others before. Everything that is filed that way stays filed, under the key of its name, until
another thing takes its place; a name is kept for a loader only as long as nothing has been filed under its key.

* `Deed`, `perform`: what can be done with a registry;
* `defined`, `called?`, `filed`: what a deed defines, which loader it calls, and what is filed by that;
* `Follows`, `follows_performAll`: what becomes of the two tables;
* `Settled`, `Stands`: a key under which something is filed, and what it stands for until something is defined there;
* `orderly`: what can be relied on after any deeds.
-/

namespace NestLint

universe u v

namespace Registry

/-! ## Deeds -/

/-- What a loader does when it is called: it defines things, each under a name, and then returns one. -/
structure Delivery (κ : Type u) where
  defined : List (String × κ) := []
  thing : κ

/-- What can be done with a registry. -/
inductive Deed (κ : Type u) (ℓ : Type v) where
  | define (name : String) (thing : κ)
  | defer (name : String) (loader : ℓ)
  | get (name : String)
  | find (name : String)

variable {κ : Type u} {ℓ : Type v}

/-- The key that a deed looks up. -/
def Deed.sought? : Deed κ ℓ → Option String
  | .get name | .find name => some (normalize name)
  | _ => none

/-- What a deed itself defines, and under which name. -/
def Deed.definition? : Deed κ ℓ → Option (String × κ)
  | .define name thing => some (name, thing)
  | _ => none

/-- The loader that a deed wants to be kept under a key. -/
def Deed.deferred? (key : String) : Deed κ ℓ → Option ℓ
  | .defer name loader => if normalize name = key then some loader else none
  | _ => none

/-- The entry for a thing that is defined under a name. -/
def entry (definition : String × κ) : String × κ := (normalize definition.1, definition.2)

/-- Things that are defined one after the other. -/
def registerAll (r : Registry κ ℓ) (definitions : List (String × κ)) : Registry κ ℓ :=
  definitions.foldl (fun r d => r.register d.1 d.2) r

/-- The registry without what is pending under a key. -/
def taking (r : Registry κ ℓ) (key : String) : Registry κ ℓ := { r with pending := Dict.erase r.pending key }

/-- Loaders that define things and return one, which may depend on the registry as they find it. -/
def delivering (deliver : ℓ → Registry κ ℓ → Delivery κ) : Loading κ ℓ Empty :=
  fun loader r => (r.registerAll (deliver loader r).defined, .ok (deliver loader r).thing)

/-- The loader that a deed calls, with the key under which it is kept. -/
def called? (r : Registry κ ℓ) (deed : Deed κ ℓ) : Option (String × ℓ) :=
  deed.sought?.bind fun key => (Dict.get? r.pending key).map fun loader => (key, loader)

section

variable (deliver : ℓ → Registry κ ℓ → Delivery κ)

/-- A registry after a deed. -/
def perform (r : Registry κ ℓ) : Deed κ ℓ → Registry κ ℓ
  | .define name thing => r.register name thing
  | .defer name loader => r.lazyRegister name loader
  | .get name => (r.get (delivering deliver) name).1
  | .find name => (r.find (delivering deliver) name).1

/-- A registry after several deeds. -/
def performAll (r : Registry κ ℓ) (deeds : List (Deed κ ℓ)) : Registry κ ℓ := deeds.foldl (perform deliver) r

/-- The key for which a loader is called in a deed, and what it delivers. -/
def delivered? (r : Registry κ ℓ) (deed : Deed κ ℓ) : Option (String × Delivery κ) :=
  (called? r deed).map fun call => (call.1, deliver call.2 (r.taking call.1))

/-- What a deed defines, be it by the loader that it calls, under the keys. -/
def defined (r : Registry κ ℓ) (deed : Deed κ ℓ) : List (String × κ) :=
  (deed.definition?.toList ++ (delivered? deliver r deed).toList.flatMap fun call => call.2.defined).map entry

/-- All that is filed in a deed. What a loader returns comes last, under the key for which it was called. -/
def filed (r : Registry κ ℓ) (deed : Deed κ ℓ) : List (String × κ) :=
  defined deliver r deed ++ (delivered? deliver r deed).toList.map fun call => (call.1, call.2.thing)

/-- What there is to tell about several deeds, each with the registry as it finds it. -/
def along {α : Type*} (tell : Registry κ ℓ → Deed κ ℓ → List α) (r : Registry κ ℓ) : List (Deed κ ℓ) → List α
  | [] => []
  | deed :: rest => tell r deed ++ along tell (perform deliver r deed) rest

/-- The things that are defined in several deeds, under their keys. -/
def definedAll (r : Registry κ ℓ) (deeds : List (Deed κ ℓ)) : List (String × κ) :=
  along deliver (defined deliver) r deeds

/-- All that is filed in several deeds. -/
def filedAll (r : Registry κ ℓ) (deeds : List (Deed κ ℓ)) : List (String × κ) := along deliver (filed deliver) r deeds

/-- The loaders that are called in several deeds, with their keys. -/
def calledAll (r : Registry κ ℓ) (deeds : List (Deed κ ℓ)) : List (String × ℓ) :=
  along deliver (fun r deed => (called? r deed).toList) r deeds

end

/-- The loader that was wanted last for a key. -/
def lastDeferred? (key : String) (deeds : List (Deed κ ℓ)) : Option ℓ := deeds.reverse.findSome? (Deed.deferred? key)

/-! ## Lookups -/

section

variable {ε : Type*} {r : Registry κ ℓ} {deliver : ℓ → Registry κ ℓ → Delivery κ} {key name : String} {deed : Deed κ ℓ}

theorem find_eq (load : Loading κ ℓ ε) (r : Registry κ ℓ) (name : String) : r.find load name =
    ((r.get load name).1, match (r.get load name).2 with
      | .ok thing => .ok (some thing)
      | .error .unknown => .ok none
      | .error (.loading fault) => .error fault) := by
  rw [find]
  split <;> simp_all

/-- A lookup calls no other loader than the one that is pending under the key. -/
theorem get_congr {load load' : Loading κ ℓ ε} (h : ∀ key loader, called? r (.get name) = some (key, loader) →
    load loader (r.taking key) = load' loader (r.taking key)) : r.get load name = r.get load' name := by
  rw [get, get]
  cases hpending : Dict.get? r.pending (normalize name) with
  | none => rfl
  | some loader =>
    have hsame := h (normalize name) loader (by simp [called?, Deed.sought?, hpending])
    simp only [taking] at hsame
    simp only [hsame]

theorem get_of_pending {loader : ℓ} (h : Dict.get? r.pending (normalize name) = some loader) :
    r.get (delivering deliver) name =
      let delivery := deliver loader (r.taking (normalize name))
      let after := (r.taking (normalize name)).registerAll delivery.defined
      ({ after with registered := Dict.insert after.registered (normalize name) delivery.thing },
        .ok delivery.thing) := by
  rw [get, h]
  rfl

theorem get_of_registered {load : Loading κ ℓ ε} {thing : κ}
    (hpending : Dict.get? r.pending (normalize name) = none)
    (hregistered : Dict.get? r.registered (normalize name) = some thing) : r.get load name = (r, .ok thing) := by
  simp only [get, hpending, hregistered]

theorem fst_get_of_not_pending {load : Loading κ ℓ ε} (h : Dict.get? r.pending (normalize name) = none) :
    (r.get load name).1 = r := by
  rw [get, h]
  cases Dict.get? r.registered (normalize name) <;> rfl

/-! ## One deed -/

theorem registered_registerAll (r : Registry κ ℓ) (definitions : List (String × κ)) :
    (r.registerAll definitions).registered = Dict.merge r.registered (definitions.map entry) := by
  induction definitions generalizing r with
  | nil => rfl
  | cons d rest ih => exact ih (r.register d.1 d.2)

theorem get?_pending_registerAll (r : Registry κ ℓ) (definitions : List (String × κ)) (key : String) :
    Dict.get? (r.registerAll definitions).pending key =
      if key ∈ Dict.keys (definitions.map entry) then none else Dict.get? r.pending key := by
  induction definitions generalizing r with
  | nil => rfl
  | cons d rest ih =>
    rw [show r.registerAll (d :: rest) = (r.register d.1 d.2).registerAll rest from rfl, ih, register, Dict.get?_erase]
    simp only [List.map_cons, Dict.keys_cons, List.mem_cons, entry]
    by_cases hd : normalize d.1 = key
    · simp [hd]
    · simp [hd, Ne.symm hd]

theorem called?_eq_some {loader : ℓ} (h : called? r deed = some (key, loader)) :
    deed.sought? = some key ∧ Dict.get? r.pending key = some loader := by
  obtain ⟨key', hkey, h⟩ := Option.bind_eq_some_iff.1 h
  obtain ⟨loader', hloader, h⟩ := Option.map_eq_some_iff.1 h
  cases h
  exact ⟨hkey, hloader⟩

theorem filed_of_not_called (h : called? r deed = none) :
    filed deliver r deed = deed.definition?.toList.map entry := by
  simp [filed, defined, delivered?, h]

theorem filed_of_called {loader : ℓ} (hdefinition : deed.definition? = none)
    (h : called? r deed = some (key, loader)) :
    filed deliver r deed =
      (deliver loader (r.taking key)).defined.map entry ++ [(key, (deliver loader (r.taking key)).thing)] := by
  simp [filed, defined, delivered?, h, hdefinition]

/-- How a registry changes. What is filed is put into the table of what is registered, one after the other, and is
pending no more. Under other keys a loader may be wanted, which is kept where nothing is registered. -/
structure Follows (r after : Registry κ ℓ) (filed : List (String × κ)) (wanted : String → Option ℓ) : Prop where
  registered : after.registered = Dict.merge r.registered filed
  gone : ∀ key ∈ Dict.keys filed, Dict.get? after.pending key = none
  kept : ∀ key ∉ Dict.keys filed, key ∈ Dict.keys r.registered → Dict.get? after.pending key = Dict.get? r.pending key
  wanted : ∀ key ∉ Dict.keys filed, key ∉ Dict.keys r.registered →
    Dict.get? after.pending key = (wanted key).or (Dict.get? r.pending key)

namespace Follows

variable {after later : Registry κ ℓ} {filed more : List (String × κ)} {wanted wanted' : String → Option ℓ}

/-- It is enough to know what is pending if no loader is wanted. -/
theorem of_pending (hwanted : ∀ key, wanted key = none) (hregistered : after.registered = Dict.merge r.registered filed)
    (hpending : ∀ key, Dict.get? after.pending key =
      if key ∈ Dict.keys filed then none else Dict.get? r.pending key) : Follows r after filed wanted where
  registered := hregistered
  gone key hkey := (hpending key).trans (if_pos hkey)
  kept key hkey _ := (hpending key).trans (if_neg hkey)
  wanted key hkey _ := by rw [hpending key, if_neg hkey, hwanted, Option.none_or]

theorem refl (hwanted : ∀ key, wanted key = none) : Follows r r [] wanted :=
  of_pending hwanted rfl fun _ => rfl

theorem mem_keys (h : Follows r after filed wanted) :
    key ∈ Dict.keys after.registered ↔ key ∈ Dict.keys filed ∨ key ∈ Dict.keys r.registered := by
  rw [h.registered, Dict.mem_keys_merge]

/-- Of two changes, the second is the one that counts for what is wanted. -/
theorem trans (h : Follows r after filed wanted) (hlater : Follows after later more wanted') :
    Follows r later (filed ++ more) fun key => (wanted' key).or (wanted key) where
  registered := by rw [hlater.registered, h.registered, Dict.merge, Dict.merge, Dict.merge, List.foldl_append]
  gone key hkey := by
    rw [Dict.keys_append, List.mem_append] at hkey
    by_cases hmore : key ∈ Dict.keys more
    · exact hlater.gone key hmore
    · have hfiled := hkey.resolve_right hmore
      rw [hlater.kept key hmore (h.mem_keys.2 (.inl hfiled)), h.gone key hfiled]
  kept key hkey hold := by
    rw [Dict.keys_append, List.mem_append, not_or] at hkey
    rw [hlater.kept key hkey.2 (h.mem_keys.2 (.inr hold)), h.kept key hkey.1 hold]
  wanted key hkey hnew := by
    rw [Dict.keys_append, List.mem_append, not_or] at hkey
    have hafter : key ∉ Dict.keys after.registered := fun hmem => (h.mem_keys.1 hmem).elim hkey.1 hnew
    rw [hlater.wanted key hkey.2 hafter, h.wanted key hkey.1 hnew, Option.or_assoc]

end Follows

theorem follows_define (name : String) (thing : κ) :
    Follows r (r.register name thing) [entry (name, thing)] fun _ => none := by
  refine .of_pending (fun _ => rfl) rfl fun key => ?_
  have hkeys : Dict.keys [entry (name, thing)] = [normalize name] := rfl
  simp only [register, Dict.get?_erase, hkeys, List.mem_singleton, eq_comm]

theorem follows_defer (name : String) (loader : ℓ) :
    Follows r (r.lazyRegister name loader) [] fun key => (Deed.defer name loader : Deed κ ℓ).deferred? key := by
  have hcontains : Dict.contains r.registered (normalize name) = true ↔ normalize name ∈ Dict.keys r.registered := by
    rw [Dict.contains, Option.isSome_iff_ne_none, ne_eq, Dict.get?_eq_none_iff, not_not]
  refine ⟨?_, fun key hkey => absurd hkey List.not_mem_nil, fun key _ hkey => ?_, fun key _ hkey => ?_⟩
  · rw [lazyRegister]
    split <;> rfl
  · rw [lazyRegister]
    split
    · rfl
    · rename_i hnew
      have hother : normalize name ≠ key := fun heq => hnew (hcontains.2 (heq ▸ hkey))
      rw [Dict.get?_insert, if_neg hother]
  · rw [lazyRegister, Deed.deferred?]
    by_cases heq : normalize name = key
    · rw [if_neg fun hold => hkey (heq ▸ hcontains.1 hold), Dict.get?_insert, if_pos heq, if_pos heq, Option.some_or]
    · rw [if_neg heq, Option.none_or]
      split
      · rfl
      · rw [Dict.get?_insert, if_neg heq]

/-- A lookup files something only if a loader is called: what it defines, and then what it returns. -/
theorem follows_get (h : deed.sought? = some (normalize name)) (hdefinition : deed.definition? = none)
    (hdeferred : ∀ key, deed.deferred? key = none) :
    Follows r (r.get (delivering deliver) name).1 (filed deliver r deed) fun key => deed.deferred? key := by
  have hcalled : called? r deed = (Dict.get? r.pending (normalize name)).map (normalize name, ·) := by
    rw [called?, h]
    rfl
  cases hpending : Dict.get? r.pending (normalize name) with
  | none =>
    rw [hpending] at hcalled
    rw [fst_get_of_not_pending hpending, filed_of_not_called hcalled, hdefinition]
    exact .refl hdeferred
  | some loader =>
    rw [hpending] at hcalled
    rw [get_of_pending hpending, filed_of_called hdefinition hcalled]
    refine .of_pending hdeferred ?_ fun key => ?_
    · rw [Dict.merge, List.foldl_append, ← Dict.merge]
      simp only [registered_registerAll]
      rfl
    · have hreturned (thing : κ) : key ∈ Dict.keys [(normalize name, thing)] ↔ normalize name = key :=
        List.mem_singleton.trans eq_comm
      simp only [get?_pending_registerAll, Dict.keys_append, List.mem_append, hreturned]
      rw [taking, Dict.get?_erase]
      split
      · rename_i hdefined
        rw [if_pos (.inl hdefined)]
      · rename_i hdefined
        simp only [hdefined, false_or]

theorem follows_perform (deliver : ℓ → Registry κ ℓ → Delivery κ) (r : Registry κ ℓ) (deed : Deed κ ℓ) :
    Follows r (perform deliver r deed) (filed deliver r deed) fun key => deed.deferred? key := by
  cases deed with
  | define name thing => exact follows_define name thing
  | defer name loader => exact follows_defer name loader
  | get name => exact follows_get rfl rfl fun _ => rfl
  | find name =>
    rw [perform, find_eq]
    exact follows_get rfl rfl fun _ => rfl

/-! ## Several deeds -/

theorem follows_performAll (deliver : ℓ → Registry κ ℓ → Delivery κ) (r : Registry κ ℓ) (deeds : List (Deed κ ℓ)) :
    Follows r (performAll deliver r deeds) (filedAll deliver r deeds) fun key => lastDeferred? key deeds := by
  induction deeds generalizing r with
  | nil => exact .refl fun _ => rfl
  | cons deed rest ih =>
    have hlast (key : String) :
        lastDeferred? key (deed :: rest) = (lastDeferred? key rest).or (deed.deferred? key) := by
      rw [lastDeferred?, lastDeferred?, List.reverse_cons, List.findSome?_append, List.findSome?_singleton]
    simp only [hlast]
    exact (follows_perform deliver r deed).trans (ih (perform deliver r deed))

/-- Something is registered under a key, and nothing is pending there. -/
structure Settled (r : Registry κ ℓ) (key : String) : Prop where
  registered : key ∈ Dict.keys r.registered
  pending : Dict.get? r.pending key = none

theorem Follows.settled_of_filed {after : Registry κ ℓ} {filed : List (String × κ)} {wanted : String → Option ℓ}
    (h : Follows r after filed wanted) (hkey : key ∈ Dict.keys filed) : after.Settled key :=
  ⟨h.mem_keys.2 (.inl hkey), h.gone key hkey⟩

/-- A key that is settled stays so. -/
theorem Settled.follows {after : Registry κ ℓ} {filed : List (String × κ)} {wanted : String → Option ℓ}
    (hr : r.Settled key) (h : Follows r after filed wanted) : after.Settled key := by
  by_cases hkey : key ∈ Dict.keys filed
  · exact h.settled_of_filed hkey
  · exact ⟨h.mem_keys.2 (.inr hr.registered), (h.kept key hkey hr.registered).trans hr.pending⟩

/-! ## Calls -/

theorem mem_keys_filed : key ∈ Dict.keys (filed deliver r deed) ↔
    key ∈ Dict.keys (defined deliver r deed) ∨ key ∈ Dict.keys (called? r deed).toList := by
  rw [filed, Dict.keys_append, List.mem_append, delivered?]
  cases called? r deed with
  | none => rfl
  | some call => rfl

theorem mem_keys_filedAll {deeds : List (Deed κ ℓ)} : key ∈ Dict.keys (filedAll deliver r deeds) ↔
    key ∈ Dict.keys (definedAll deliver r deeds) ∨ key ∈ Dict.keys (calledAll deliver r deeds) := by
  induction deeds generalizing r with
  | nil => exact (or_self_iff).symm
  | cons deed rest ih =>
    rw [filedAll, definedAll, calledAll, along, along, along, ← filedAll, ← definedAll, ← calledAll]
    simp only [Dict.keys_append, List.mem_append, mem_keys_filed, ih]
    exact or_or_or_comm

theorem Settled.not_called (h : r.Settled key) : key ∉ Dict.keys (called? r deed).toList := by
  intro hkey
  cases hcalled : called? r deed with
  | none =>
    rw [hcalled] at hkey
    cases hkey
  | some call =>
    rw [hcalled] at hkey
    obtain rfl := List.mem_singleton.1 hkey
    cases h.pending.symm.trans (called?_eq_some hcalled).2

theorem Settled.not_calledAll (h : r.Settled key) (deeds : List (Deed κ ℓ)) :
    key ∉ Dict.keys (calledAll deliver r deeds) := by
  induction deeds generalizing r with
  | nil => exact List.not_mem_nil
  | cons deed rest ih =>
    rw [calledAll, along, ← calledAll, Dict.keys_append, List.mem_append, not_or]
    exact ⟨h.not_called, ih (h.follows (follows_perform deliver r deed))⟩

/-- For each key a loader is called once at most: after that, the key is settled. -/
theorem nodup_calledAll (deliver : ℓ → Registry κ ℓ → Delivery κ) (r : Registry κ ℓ) (deeds : List (Deed κ ℓ)) :
    (Dict.keys (calledAll deliver r deeds)).Nodup := by
  induction deeds generalizing r with
  | nil => exact List.nodup_nil
  | cons deed rest ih =>
    rw [calledAll, along, ← calledAll, Dict.keys_append, List.nodup_append]
    have hsettled : ∀ key ∈ Dict.keys (called? r deed).toList, (perform deliver r deed).Settled key :=
      fun key hkey => (follows_perform deliver r deed).settled_of_filed (mem_keys_filed.2 (.inr hkey))
    refine ⟨?_, ih _, fun key hkey other hother => ?_⟩
    · cases called? r deed with
      | none => exact List.nodup_nil
      | some call => exact List.pairwise_singleton _ _
    · rintro rfl
      exact (hsettled key hkey).not_calledAll rest hother

theorem calledAll_append (before after : List (Deed κ ℓ)) : calledAll deliver r (before ++ after) =
    calledAll deliver r before ++ calledAll deliver (performAll deliver r before) after := by
  induction before generalizing r with
  | nil => rfl
  | cons deed rest ih =>
    rw [List.cons_append, calledAll, along, ← calledAll, ih, ← List.append_assoc]
    rfl

theorem exists_sought_of_mem {deeds : List (Deed κ ℓ)} (h : key ∈ Dict.keys (calledAll deliver r deeds)) :
    ∃ deed ∈ deeds, deed.sought? = some key := by
  induction deeds generalizing r with
  | nil => cases h
  | cons deed rest ih =>
    rw [calledAll, along, ← calledAll, Dict.keys_append, List.mem_append] at h
    obtain h | h := h
    · obtain ⟨call, hcall, rfl⟩ := List.mem_map.1 h
      exact ⟨deed, List.mem_cons_self, (called?_eq_some (Option.mem_toList.1 hcall)).1⟩
    · obtain ⟨other, hother, hsought⟩ := ih h
      exact ⟨other, List.mem_cons_of_mem _ hother, hsought⟩

theorem lastDeferred?_of_last {before after : List (Deed κ ℓ)} {loader : ℓ}
    (h : ∀ deed ∈ after, deed.deferred? (normalize name) = none) :
    lastDeferred? (normalize name) (before ++ .defer name loader :: after) = some loader := by
  have hafter : after.reverse.findSome? (Deed.deferred? (normalize name)) = none :=
    List.findSome?_eq_none_iff.2 fun deed hdeed => h deed (List.mem_reverse.1 hdeed)
  rw [lastDeferred?, List.reverse_append, List.reverse_cons, List.append_assoc, List.findSome?_append, hafter]
  simp [Deed.deferred?]

end

/-- The key stands for a thing, and no loader is pending there. -/
structure Stands (r : Registry κ ℓ) (key : String) (thing : κ) : Prop where
  registered : Dict.get? r.registered key = some thing
  pending : Dict.get? r.pending key = none

section

variable {r : Registry κ ℓ} {deliver : ℓ → Registry κ ℓ → Delivery κ} {key : String} {thing : κ}

theorem Stands.settled (h : r.Stands key thing) : r.Settled key where
  registered := by
    by_contra hkey
    cases h.registered.symm.trans (Dict.get?_eq_none_iff.2 hkey)
  pending := h.pending

/-- What a key stands for it stands for until something is defined under it: loaders for it are called no more. -/
theorem Stands.later {deeds : List (Deed κ ℓ)} (h : r.Stands key thing)
    (hkey : key ∉ Dict.keys (definedAll deliver r deeds)) : (performAll deliver r deeds).Stands key thing := by
  have hfollows := follows_performAll deliver r deeds
  have hfiled : key ∉ Dict.keys (filedAll deliver r deeds) :=
    fun hmem => (mem_keys_filedAll.1 hmem).elim hkey (h.settled.not_calledAll deeds)
  have hreverse : Dict.get? (filedAll deliver r deeds).reverse key = none := by
    rwa [Dict.get?_eq_none_iff, Dict.keys, List.map_reverse, List.mem_reverse]
  constructor
  · rw [hfollows.registered, Dict.get?_merge, hreverse, Option.none_or, h.registered]
  · rw [hfollows.kept key hfiled h.settled.registered, h.pending]

end

/-! ## All that can be relied on -/

/-- What can be relied on after some deeds. -/
structure Orderly (deliver : ℓ → Registry κ ℓ → Delivery κ) (deeds : List (Deed κ ℓ)) (r : Registry κ ℓ) : Prop where
  /-- Nothing is pending under a key for which something is registered. -/
  apart : ∀ key, key ∉ Dict.keys r.registered ∨ key ∉ Dict.keys r.pending
  /-- The case of a name makes no difference. -/
  anyCase : ∀ (load : Loading κ ℓ Empty) name other,
    normalize name = normalize other ∨ List.Forall₂ Text.Alike name.toList other.toList →
    r.get load name = r.get load other ∧ r.find load name = r.find load other
  /-- A name that stands for a thing, whichever way it is looked up, does so until something is defined under its key. -/
  keeps : ∀ name thing,
    (r.get (delivering deliver) name).2 = .ok thing ∨ (r.find (delivering deliver) name).2 = .ok (some thing) →
    ∀ deed, deed.sought? = some (normalize name) →
    ∀ more, normalize name ∉ Dict.keys (definedAll deliver (perform deliver r deed) more) →
    let later := performAll deliver (perform deliver r deed) more
    later.get (delivering deliver) name = (later, .ok thing) ∧
      later.find (delivering deliver) name = (later, .ok (some thing))
  /-- For no key have two loaders been called, or one loader twice. -/
  once : (Dict.keys (calledAll deliver {} deeds)).Nodup
  /-- A lookup calls the loader that was wanted last for the key, provided that nothing was defined under the key and
  no loader called for it. -/
  calls : ∀ deed key loader, called? r deed = some (key, loader) ↔
    deed.sought? = some key ∧ lastDeferred? key deeds = some loader ∧
      key ∉ Dict.keys (definedAll deliver {} deeds) ∧ key ∉ Dict.keys (calledAll deliver {} deeds)
  /-- No other loader has a part in the lookup. -/
  runs : ∀ (load load' : Loading κ ℓ Empty) name, (∀ key loader, called? r (.get name) = some (key, loader) →
    load loader (r.taking key) = load' loader (r.taking key)) → r.get load name = r.get load' name
  /-- A loader that is wanted is called when the key is looked up for the first time after that, and what it returns is
  what the name stands for, unless something was defined under the key or another loader called for it. -/
  first : ∀ before name loader after, deeds = before ++ .defer name loader :: after →
    normalize name ∉ Dict.keys (calledAll deliver {} before) →
    normalize name ∉ Dict.keys (definedAll deliver {} deeds) →
    (∀ deed ∈ after, deed.sought? ≠ some (normalize name) ∧ deed.deferred? (normalize name) = none) →
    called? r (.get name) = some (normalize name, loader) ∧
      (r.get (delivering deliver) name).2 = .ok (deliver loader (r.taking (normalize name))).thing
  /-- For each key, in the order in which the keys were filed first, there is the thing that was filed last. -/
  listed : Dict.keys r.registered = (Dict.keys (filedAll deliver {} deeds)).eraseDups ∧
    r.all.map some = (Dict.keys r.registered).map (Dict.get? (filedAll deliver {} deeds).reverse)

section

variable {deliver : ℓ → Registry κ ℓ → Delivery κ} {r : Registry κ ℓ} {deeds : List (Deed κ ℓ)} {key name : String}

theorem registered_of_empty (deliver : ℓ → Registry κ ℓ → Delivery κ) (deeds : List (Deed κ ℓ)) :
    (performAll deliver {} deeds).registered = Dict.ofList (filedAll deliver {} deeds) :=
  (follows_performAll deliver {} deeds).registered

theorem pending_of_empty (deliver : ℓ → Registry κ ℓ → Delivery κ) (deeds : List (Deed κ ℓ)) (key : String) :
    Dict.get? (performAll deliver {} deeds).pending key =
      if key ∈ Dict.keys (filedAll deliver {} deeds) then none else lastDeferred? key deeds := by
  have h := follows_performAll deliver {} deeds
  split
  · rename_i hkey
    exact h.gone key hkey
  · rename_i hkey
    rw [h.wanted key hkey List.not_mem_nil]
    exact Option.or_none

theorem called?_of_empty (deed : Deed κ ℓ) (key : String) (loader : ℓ) :
    called? (performAll deliver {} deeds) deed = some (key, loader) ↔
      deed.sought? = some key ∧ lastDeferred? key deeds = some loader ∧
        key ∉ Dict.keys (definedAll deliver {} deeds) ∧ key ∉ Dict.keys (calledAll deliver {} deeds) := by
  have hpending : Dict.get? (performAll deliver {} deeds).pending key = some loader ↔
      lastDeferred? key deeds = some loader ∧
        key ∉ Dict.keys (definedAll deliver {} deeds) ∧ key ∉ Dict.keys (calledAll deliver {} deeds) := by
    rw [pending_of_empty, ← not_or, ← mem_keys_filedAll]
    split
    · rename_i hkey
      exact ⟨nofun, fun h => absurd hkey h.2⟩
    · rename_i hkey
      exact ⟨fun h => ⟨h, hkey⟩, fun h => h.1⟩
  rw [← hpending]
  refine ⟨called?_eq_some, fun ⟨hsought, hloader⟩ => ?_⟩
  rw [called?, hsought]
  simp [hloader]

theorem get_of_normalize {ε : Type*} {load : Loading κ ℓ ε} {other : String} (h : normalize name = normalize other) :
    r.get load name = r.get load other := by
  simp only [get, h]

theorem perform_of_sought {deed : Deed κ ℓ} (h : deed.sought? = some (normalize name)) :
    perform deliver r deed = (r.get (delivering deliver) name).1 := by
  cases deed with
  | define other thing => cases h
  | defer other loader => cases h
  | get other => rw [perform, get_of_normalize (Option.some.inj h)]
  | find other => rw [perform, find_eq, get_of_normalize (Option.some.inj h)]

theorem get_of_find {thing : κ} (h : (r.find (delivering deliver) name).2 = .ok (some thing)) :
    (r.get (delivering deliver) name).2 = .ok thing := by
  rw [find_eq] at h
  split at h
  · rename_i found hfound
    rw [hfound, Option.some.inj (Except.ok.inj h)]
  · cases h
  · cases h

/-- After a lookup that finds a thing, the key stands for it. -/
theorem stands_of_get {thing : κ} (h : (r.get (delivering deliver) name).2 = .ok thing) :
    (r.get (delivering deliver) name).1.Stands (normalize name) thing := by
  cases hpending : Dict.get? r.pending (normalize name) with
  | some loader =>
    rw [get_of_pending hpending] at h ⊢
    cases h
    refine ⟨by rw [Dict.get?_insert, if_pos rfl], ?_⟩
    rw [get?_pending_registerAll, taking, Dict.get?_erase, if_pos rfl, ite_self]
  | none =>
    rw [fst_get_of_not_pending hpending]
    simp only [get, hpending] at h
    cases hregistered : Dict.get? r.registered (normalize name) with
    | none =>
      rw [hregistered] at h
      cases h
    | some found =>
      rw [hregistered] at h
      cases h
      exact ⟨hregistered, hpending⟩

theorem orderly (deliver : ℓ → Registry κ ℓ → Delivery κ) (deeds : List (Deed κ ℓ)) :
    Orderly deliver deeds (performAll deliver {} deeds) where
  apart key := by
    rw [registered_of_empty, Dict.keys_ofList, List.mem_eraseDups, ← Dict.get?_eq_none_iff (d := Registry.pending _)]
    rw [pending_of_empty]
    by_cases hkey : key ∈ Dict.keys (filedAll deliver {} deeds)
    · exact .inr (if_pos hkey)
    · exact .inl hkey
  anyCase load name other hname := by
    have hsame : normalize name = normalize other := hname.elim id Text.lower_eq_of_alike
    rw [find_eq, find_eq, get_of_normalize hsame]
    exact ⟨rfl, rfl⟩
  keeps name thing hfound deed hdeed more hmore := by
    rw [perform_of_sought hdeed] at hmore ⊢
    have hstands := (stands_of_get (hfound.elim id get_of_find)).later hmore
    have hget : (performAll deliver _ more).get (delivering deliver) name = (_, .ok thing) :=
      get_of_registered hstands.pending hstands.registered
    refine ⟨hget, ?_⟩
    rw [find_eq, hget]
  once := nodup_calledAll deliver {} deeds
  calls := called?_of_empty
  runs load load' name h := get_congr h
  first before name loader after hdeeds hcalled hdefined hafter := by
    have hlast : lastDeferred? (normalize name) deeds = some loader :=
      hdeeds ▸ lastDeferred?_of_last fun deed hdeed => (hafter deed hdeed).2
    have hnotCalled : normalize name ∉ Dict.keys (calledAll deliver {} deeds) := by
      rw [hdeeds, calledAll_append, Dict.keys_append, List.mem_append, not_or]
      refine ⟨hcalled, fun hmem => ?_⟩
      obtain ⟨deed, hdeed, hsought⟩ := exists_sought_of_mem hmem
      obtain rfl | hdeed := List.mem_cons.1 hdeed
      · cases hsought
      · exact (hafter deed hdeed).1 hsought
    have hnow := (called?_of_empty (.get name) (normalize name) loader).2 ⟨rfl, hlast, hdefined, hnotCalled⟩
    exact ⟨hnow, by rw [get_of_pending (called?_eq_some hnow).2]⟩
  listed := by
    have hget : Dict.get? (Dict.ofList (filedAll deliver {} deeds)) = Dict.get? (filedAll deliver {} deeds).reverse := by
      funext key
      rw [Dict.ofList, Dict.get?_merge]
      exact Option.or_none
    rw [all, registered_of_empty, Dict.map_some_values (Dict.nodup_keys_ofList _), hget, Dict.keys_ofList]
    exact ⟨rfl, rfl⟩

end

end Registry

end NestLint
