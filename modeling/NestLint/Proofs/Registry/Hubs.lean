import Mathlib.Data.List.Nodup
import NestLint.Proofs.Outcomes
import NestLint.Proofs.Registry.History
import NestLint.Registry.Family

/-!
# What declarations do to hubs

A member that is declared below a hub is defined in the registry of the hub, under its key, and nothing else becomes of
that registry. A member that is itself a hub starts with an empty one.

A declaration is what `Registry` does with a class, and the deeds are those of `Registrant`: `register`,
`lazy_register`, `get` and `find`.

* `merge?_spec`: every ancestor, once;
* `Family.Sound`: a family in which every member is below itself and below its parents;
* `holding_declare`, `holding_setRegistry`: what is done to the registries of hubs;
* `Records`: what has been done with a hub;
* `Act`, `Chronicle.perform`, `Chronicle.performAll`: declarations and deeds, and what they are for each hub;
* `orderly_hub`: what can be relied on.
-/

namespace NestLint

/-! ## Orders of ancestors -/

namespace Ancestry

variable {α : Type} [DecidableEq α] {lists : List (List α)} {order : List α} {x y : α}

theorem merge?_cases (h : merge? lists = some order) :
    (order = [] ∧ ∀ l ∈ lists, l = []) ∨
      ∃ x rest, candidate? lists = some x ∧ merge? (advance x lists) = some rest ∧ order = x :: rest := by
  rw [merge?] at h
  split at h
  · rename_i hempty
    refine .inl ⟨(Option.some.inj h).symm, fun l hl => ?_⟩
    exact List.head?_eq_none_iff.1 (List.filterMap_eq_nil_iff.1 (List.isEmpty_iff.1 hempty) l hl)
  · split at h
    · cases h
    · rename_i x hx
      obtain ⟨rest, hrest, rfl⟩ := Option.map_eq_some_iff.1 h
      exact .inr ⟨x, rest, hx, hrest, rfl⟩

theorem not_mem_tail_of_candidate? (h : candidate? lists = some x) : ∀ l ∈ lists, x ∉ l.tail := by
  intro l hl hx
  have hfirst := List.find?_some h
  simp only [isBehind, Bool.not_eq_true', List.any_eq_false, List.contains_iff_mem] at hfirst
  exact hfirst l hl hx

theorem not_mem_advance (h : candidate? lists = some x) : ∀ l ∈ advance x lists, x ∉ l := by
  intro l hl hx
  obtain ⟨l, hlists, rfl⟩ := List.mem_map.1 hl
  have htail := not_mem_tail_of_candidate? h l hlists
  split at hx
  · exact htail hx
  · rename_i hhead
    cases l with
    | nil => cases hx
    | cons a rest =>
      obtain rfl | hx := List.mem_cons.1 hx
      · exact hhead rfl
      · exact htail hx

theorem exists_mem_iff_advance (h : candidate? lists = some x) :
    (∃ l ∈ lists, y ∈ l) ↔ y = x ∨ ∃ l ∈ advance x lists, y ∈ l := by
  constructor
  · rintro ⟨l, hl, hy⟩
    by_cases heq : y = x
    · exact .inl heq
    · refine .inr ⟨_, List.mem_map_of_mem hl, ?_⟩
      split
      · rename_i hhead
        obtain ⟨rest, rfl⟩ := List.head?_eq_some_iff.1 hhead
        exact (List.mem_cons.1 hy).resolve_left heq
      · exact hy
  · rintro (rfl | ⟨l, hl, hy⟩)
    · obtain ⟨l, hl, hhead⟩ := List.mem_filterMap.1 (mem_of_candidate? h)
      exact ⟨l, hl, List.mem_of_head? hhead⟩
    · obtain ⟨l, hlists, rfl⟩ := List.mem_map.1 hl
      refine ⟨l, hlists, ?_⟩
      split at hy
      · exact List.mem_of_mem_tail hy
      · exact hy

/-- The order has all that is in any of the lists, each once. -/
theorem merge?_spec (h : merge? lists = some order) : order.Nodup ∧ ∀ y, y ∈ order ↔ ∃ l ∈ lists, y ∈ l := by
  induction hn : total lists using Nat.strongRecOn generalizing lists order with
  | ind n ih =>
    obtain ⟨rfl, hempty⟩ | ⟨x, rest, hx, hrest, rfl⟩ := merge?_cases h
    · refine ⟨List.nodup_nil, fun y => ⟨nofun, ?_⟩⟩
      rintro ⟨l, hl, hy⟩
      rw [hempty l hl] at hy
      cases hy
    · obtain ⟨hnodup, hmem⟩ := ih _ (hn ▸ total_advance_lt (mem_of_candidate? hx)) hrest rfl
      refine ⟨List.nodup_cons.2 ⟨fun hagain => ?_, hnodup⟩, fun y => ?_⟩
      · obtain ⟨l, hl, hxl⟩ := (hmem x).1 hagain
        exact not_mem_advance hx l hl hxl
      · rw [List.mem_cons, hmem, exists_mem_iff_advance hx]

end Ancestry

namespace Family

variable {ℓ : Type} {f f' : Family ℓ} {h n user : Nat} {m m' : Member}

/-- Every member comes first in its order, and behind it come its parents and no others than members. Only members have
tables. -/
structure Sound (f : Family ℓ) : Prop where
  first : ∀ n m, f.member? n = some m → ∃ ancestors, m.order = n :: ancestors
  parents : ∀ n m, f.member? n = some m → ∀ p ∈ m.parents, p ∈ m.order
  known : ∀ n m, f.member? n = some m → ∀ i ∈ m.order, i < f.members.length
  tables : ∀ entry ∈ f.registries, entry.1 < f.members.length

/-! ## Registries of hubs -/

theorem isHub_iff : f.isHub h = true ↔ ∃ m, f.member? h = some m ∧ top ∈ m.parents := by
  rw [isHub]
  cases f.member? h with
  | none => simp
  | some m => simp

theorem order_of_member (hm : f.member? n = some m) : f.order n = m.order := by
  rw [order, hm]
  rfl

theorem lt_of_isHub (hh : f.isHub h = true) : h < f.members.length := by
  obtain ⟨m, hm, -⟩ := isHub_iff.1 hh
  exact (List.getElem?_eq_some_iff.1 hm).1

theorem table_of_hub (hf : f.Sound) (hh : f.isHub h = true) (pending : Bool) : f.table pending h = .holder h := by
  obtain ⟨m, hm, -⟩ := isHub_iff.1 hh
  obtain ⟨ancestors, horder⟩ := hf.first h m hm
  simp [table, order_of_member hm, horder, hh]

theorem holding_of_hub (hf : f.Sound) (hh : f.isHub h = true) : f.holding h = f.tablesOf h := by
  simp only [holding, table_of_hub hf hh]

theorem offers_of_hub (hf : f.Sound) (hh : f.isHub h = true) (operation : String) :
    f.offers h operation ≠ .error .noRegistry := by
  obtain ⟨m, hm, htop⟩ := isHub_iff.1 hh
  have hmem : (f.order h).contains top = true :=
    List.contains_iff_mem.2 (order_of_member hm ▸ hf.parents h m hm top htop)
  rw [offers, hmem]
  split <;> simp

theorem lookup_filter_ne {α : Type} (l : List (Nat × α)) {h k : Nat} (hne : h ≠ k) :
    (l.filter (·.1 != h)).lookup k = l.lookup k := by
  induction l with
  | nil => rfl
  | cons entry rest ih =>
    obtain ⟨i, t⟩ := entry
    by_cases hi : i = h
    · have hk : (k == i) = false := beq_false_of_ne fun heq => hne (hi ▸ heq.symm)
      rw [List.filter_cons_of_neg (by simp [hi]), ih, List.lookup_cons, hk]
    · rw [List.filter_cons_of_pos (by simp [hi]), List.lookup_cons, List.lookup_cons, ih]

theorem tablesOf_setTables (f : Family ℓ) (h k : Nat) (r : Registry Nat ℓ) :
    (f.setTables h r).tablesOf k = if h = k then r else f.tablesOf k := by
  rw [tablesOf, setTables, List.lookup_cons]
  by_cases hk : h = k
  · rw [beq_iff_eq.2 hk.symm, if_pos hk]
    rfl
  · rw [beq_false_of_ne (Ne.symm hk), if_neg hk, lookup_filter_ne _ hk]
    rfl

/-- Another family of the same members, where one hub has other tables. -/
structure Refiled (f f' : Family ℓ) (h : Nat) (r : Registry Nat ℓ) : Prop where
  members : f'.members = f.members
  tables : ∀ k, f'.tablesOf k = if h = k then r else f.tablesOf k
  entries : ∀ entry ∈ f'.registries, entry.1 = h ∨ entry ∈ f.registries

theorem refiled_setTables (f : Family ℓ) (h : Nat) (r : Registry Nat ℓ) : f.Refiled (f.setTables h r) h r where
  members := rfl
  tables k := tablesOf_setTables f h k r
  entries entry hentry := by
    obtain rfl | hentry := List.mem_cons.1 hentry
    · exact .inl rfl
    · exact .inr (List.mem_of_mem_filter hentry)

theorem refiled_setRegistry (hf : f.Sound) (hh : f.isHub h = true) (r : Registry Nat ℓ) :
    f.Refiled (f.setRegistry h r) h r := by
  have hput : f.setRegistry h r =
      let once := f.setTables h { f.tablesOf h with registered := r.registered }
      once.setTables h { once.tablesOf h with pending := r.pending } := by
    simp only [setRegistry, table_of_hub hf hh]
    rw [show (f.setTables h _).table true h = f.table true h from rfl, table_of_hub hf hh]
  rw [hput]
  refine ⟨rfl, fun k => ?_, fun entry hentry => ?_⟩
  · rw [tablesOf_setTables, tablesOf_setTables, tablesOf_setTables, if_pos rfl]
    split <;> rfl
  · obtain hentry | hentry := (refiled_setTables _ h _).entries entry hentry
    · exact .inl hentry
    · exact (refiled_setTables f h _).entries entry hentry

theorem keyOf_of_registeringKey {key : String} (hkey : f.registeringKey user n = .ok key) :
    f.keyOf n = some (.str key) := by
  obtain ⟨-, -, hkey⟩ := bind_eq_ok_iff.1 hkey
  cases hfound : f.keyOf n with
  | none =>
    rw [hfound] at hkey
    cases hkey
  | some value =>
    cases value with
    | str found =>
      rw [hfound] at hkey
      obtain ⟨-, -, hkey⟩ := bind_eq_ok_iff.1 hkey
      rw [Except.ok.inj hkey]
    | _ =>
      rw [hfound] at hkey
      cases hkey

/-- A member that could be registered in a hub has a key, and is defined there under it. -/
theorem register_of_hub (hf : f.Sound) (hh : f.isHub h = true) (hok : f.register h n = (f', .ok ())) :
    ∃ key, f.keyOf n = some (.str key) ∧ f.Refiled f' h ((f.tablesOf h).register key n) := by
  rw [register] at hok
  split at hok
  · exact absurd ‹_› (offers_of_hub hf hh "register")
  · split at hok
    · cases hok
    · rename_i key hkey
      obtain rfl := (Prod.mk.inj hok).1
      exact ⟨key, keyOf_of_registeringKey hkey, holding_of_hub hf hh ▸ refiled_setRegistry hf hh _⟩

theorem Refiled.sound {r : Registry Nat ℓ} (h' : f.Refiled f' h r) (hf : f.Sound) (hh : f.isHub h = true) :
    f'.Sound where
  first i m hm := hf.first i m (by rwa [member?, h'.members] at hm)
  parents i m hm := hf.parents i m (by rwa [member?, h'.members] at hm)
  known i m hm := h'.members ▸ hf.known i m (by rwa [member?, h'.members] at hm)
  tables entry hentry := by
    rw [h'.members]
    obtain rfl | hentry := h'.entries entry hentry
    · exact lt_of_isHub hh
    · exact hf.tables entry hentry

theorem isHub_of_members (h' : f'.members = f.members) : f'.isHub = f.isHub := by
  funext i
  rw [isHub, isHub, member?, member?, h']

theorem isHub_setRegistry (f : Family ℓ) (h : Nat) (r : Registry Nat ℓ) : (f.setRegistry h r).isHub = f.isHub := by
  refine isHub_of_members ?_
  simp only [setRegistry]
  split
  all_goals split
  all_goals rfl

theorem keyOf_of_members (h' : f'.members = f.members) : f'.keyOf = f.keyOf := by
  funext i
  simp only [keyOf, declared?, order, nameOf, member?, h']

/-- A member that could be registered in several hubs is defined in each of them under its key, and nothing becomes of
the registries of others. -/
theorem registerAll_of_hubs {users : List Nat} (hf : f.Sound) (hhubs : ∀ user ∈ users, f.isHub user = true)
    (hnodup : users.Nodup) (hok : f.registerAll n users = (f', .ok ())) :
    f'.members = f.members ∧ f'.Sound ∧
      (∀ entry ∈ f'.registries, entry.1 ∈ users ∨ entry ∈ f.registries) ∧
      (∀ h ∈ users, ∃ key, f.keyOf n = some (.str key) ∧ f'.tablesOf h = (f.tablesOf h).register key n) ∧
      ∀ h ∉ users, f'.tablesOf h = f.tablesOf h := by
  induction users generalizing f with
  | nil =>
    obtain rfl := (Prod.mk.inj hok).1
    exact ⟨rfl, hf, fun _ => .inr, nofun, fun _ _ => rfl⟩
  | cons user rest ih =>
    rw [registerAll] at hok
    split at hok
    · rename_i g hg
      have huser := hhubs user List.mem_cons_self
      obtain ⟨key, hkey, hrefiled⟩ := register_of_hub hf huser hg
      obtain ⟨hnew, hnodup⟩ := List.nodup_cons.1 hnodup
      have hrest : ∀ other ∈ rest, g.isHub other = true := fun other hother =>
        isHub_of_members hrefiled.members ▸ hhubs other (List.mem_cons_of_mem _ hother)
      obtain ⟨hmembers, hsound, hentries, hin, hout⟩ := ih (hrefiled.sound hf huser) hrest hnodup hok
      refine ⟨hmembers.trans hrefiled.members, hsound, fun entry hentry => ?_, fun h hmem => ?_, fun h hmem => ?_⟩
      · obtain hentry | hentry := hentries entry hentry
        · exact .inl (List.mem_cons_of_mem _ hentry)
        · obtain rfl | hentry := hrefiled.entries entry hentry
          · exact .inl List.mem_cons_self
          · exact .inr hentry
      · obtain rfl | hmem := List.mem_cons.1 hmem
        · exact ⟨key, hkey, by rw [hout h hnew, hrefiled.tables, if_pos rfl]⟩
        · obtain ⟨key', hkey', htables⟩ := hin h hmem
          have hother : user ≠ h := fun heq => hnew (heq ▸ hmem)
          refine ⟨key', keyOf_of_members hrefiled.members ▸ hkey', ?_⟩
          rw [htables, hrefiled.tables, if_neg hother]
      · obtain ⟨hother, hmem⟩ := not_or.1 (mt List.mem_cons.2 hmem)
        rw [hout h hmem, hrefiled.tables, if_neg (Ne.symm hother)]
    · rename_i hfailed
      exact (hfailed _ hok).elim

/-! ## Declarations -/

theorem parents_of_admitted (h : m.admitted = .ok m') : m'.parents = m.parents := by
  obtain ⟨fields, -, h⟩ := bind_eq_ok_iff.1 h
  -- whatever is checked, in the end there are only fields more
  dsimp only at h
  split at h
  · cases h
  · split at h
    · split at h <;> cases h
      rfl
    · split at h <;> cases h
      rfl
    · cases h

/-- Every parent of a new member is above it, and no others than members are, each once. -/
theorem ancestorsFor_spec (hf : f.Sound) {ancestors : List Nat} (h : f.ancestorsFor m = .ok ancestors)
    (hparents : ∀ p ∈ m.parents, p < f.members.length) :
    ancestors.Nodup ∧ (∀ p ∈ m.parents, p ∈ ancestors) ∧ ∀ i ∈ ancestors, i < f.members.length := by
  have horder : Ancestry.order? m.parents (m.parents.map f.order) = some ancestors := by
    rw [ancestorsFor] at h
    dsimp only at h
    split at h
    · cases h
    · split at h
      · cases h
      · rename_i found hfound
        split at h <;> cases h
        exact hfound
  obtain ⟨hnodup, hmem⟩ := Ancestry.merge?_spec horder
  refine ⟨hnodup, fun p hp => ?_, fun i hi => ?_⟩
  · exact (hmem p).2 ⟨m.parents, by simp, hp⟩
  · obtain ⟨l, hl, hil⟩ := (hmem i).1 hi
    obtain hl | hl := List.mem_append.1 hl
    · obtain ⟨p, hp, rfl⟩ := List.mem_map.1 hl
      obtain ⟨parent, hparent⟩ : ∃ parent, f.member? p = some parent :=
        ⟨_, List.getElem?_eq_getElem (hparents p hp)⟩
      exact hf.known p parent hparent i (order_of_member hparent ▸ hil)
    · rw [List.mem_singleton.1 hl] at hil
      exact hparents i hil

/-- The family with a new member, which has not been registered anywhere yet. -/
def extended (f : Family ℓ) (m : Member) (ancestors : List Nat) : Family ℓ :=
  { f with members := f.members ++ [{ m with order := f.members.length :: ancestors }] }

section

variable {ancestors : List Nat}

theorem member?_extended (h : n < f.members.length) : (f.extended m ancestors).member? n = f.member? n :=
  List.getElem?_append_left h

theorem member?_extended_length :
    (f.extended m ancestors).member? f.members.length = some { m with order := f.members.length :: ancestors } := by
  rw [member?, extended, List.getElem?_append_right (Nat.le_refl _), Nat.sub_self]
  rfl

theorem member?_extended_cases (h : (f.extended m ancestors).member? n = some m') :
    f.member? n = some m' ∨ n = f.members.length ∧ m' = { m with order := f.members.length :: ancestors } := by
  obtain hlt | heq | hgt := Nat.lt_trichotomy n f.members.length
  · exact .inl (member?_extended hlt ▸ h)
  · subst heq
    exact .inr ⟨rfl, (Option.some.inj (member?_extended_length.symm.trans h)).symm⟩
  · have hlength : (f.extended m ancestors).members.length = f.members.length + 1 := by simp [extended]
    have := (List.getElem?_eq_some_iff.1 h).1
    omega

theorem sound_extended (hf : f.Sound) (hparents : ∀ p ∈ m.parents, p ∈ ancestors)
    (hknown : ∀ i ∈ ancestors, i < f.members.length) : (f.extended m ancestors).Sound := by
  have hlength : (f.extended m ancestors).members.length = f.members.length + 1 := by simp [extended]
  refine ⟨fun n m' hm' => ?_, fun n m' hm' p hp => ?_, fun n m' hm' i hi => ?_, fun entry hentry => ?_⟩
  · obtain hm' | ⟨rfl, rfl⟩ := member?_extended_cases hm'
    · exact hf.first n m' hm'
    · exact ⟨ancestors, rfl⟩
  · obtain hm' | ⟨rfl, rfl⟩ := member?_extended_cases hm'
    · exact hf.parents n m' hm' p hp
    · exact List.mem_cons_of_mem _ (hparents p hp)
  · rw [hlength]
    obtain hm' | ⟨rfl, rfl⟩ := member?_extended_cases hm'
    · exact Nat.lt_succ_of_lt (hf.known n m' hm' i hi)
    · obtain rfl | hi := List.mem_cons.1 hi
      · exact Nat.lt_succ_self _
      · exact Nat.lt_succ_of_lt (hknown i hi)
  · rw [hlength]
    exact Nat.lt_succ_of_lt (hf.tables entry hentry)

end

theorem declare_cases (h : f.declare m = (f', .ok n)) : n = f.members.length ∧
    ∃ m' ancestors, m.admitted = .ok m' ∧ f.ancestorsFor m' = .ok ancestors ∧
      (f.extended m' ancestors).registerAll n (ancestors.filter (f.extended m' ancestors).isHub) = (f', .ok ()) := by
  rw [declare] at h
  split at h
  · cases h
  · rename_i m' ancestors hchecked
    obtain ⟨admitted, hadmitted, hchecked⟩ := bind_eq_ok_iff.1 hchecked
    obtain ⟨found, hfound, hchecked⟩ := bind_eq_ok_iff.1 hchecked
    cases hchecked
    cases hregistered : (f.extended m' ancestors).registerAll f.members.length
      (ancestors.filter (f.extended m' ancestors).isHub) with
    | mk after result =>
      simp only [extended] at hregistered
      simp only [hregistered] at h
      cases result with
      | error fault => cases h
      | ok _ =>
        cases h
        exact ⟨rfl, m', ancestors, hadmitted, hfound, hregistered⟩

theorem admitted_plain {name : String} {parents : List Nat} (hname : '\x00' ∉ name.toList) :
    ({ name, parents } : Member).admitted = .ok { name, parents } := by
  have hcontains : name.contains '\x00' = false := by simpa using hname
  simp [Member.admitted, Member.fields, hcontains, Dict.get?, Dict.contains, Member.reservedNames, bind, Except.bind,
    pure, Except.pure]

/-- A member without attributes is declared if the orders of its parents agree, and if it can be registered in the hubs
above it. -/
theorem declare_plain {name : String} {parents ancestors : List Nat} (hname : '\x00' ∉ name.toList)
    (hparents : parents.Nodup) (horder : Ancestry.order? parents (parents.map f.order) = some ancestors)
    (hquiet : (ancestors.any fun i => (f.member? i).any (·.has Member.listener)) = false)
    (hregistered : (f.extended { name, parents } ancestors).registerAll f.members.length
      (ancestors.filter (f.extended { name, parents } ancestors).isHub) = (f', .ok ())) :
    f.declare { name, parents } = (f', .ok f.members.length) := by
  have hancestors : f.ancestorsFor { name, parents } = .ok ancestors := by
    simp [ancestorsFor, hparents, horder, hquiet, pure, Except.pure]
  simp only [extended] at hregistered
  simp only [declare, admitted_plain hname, hancestors, hregistered, bind, Except.bind, pure, Except.pure, Except.map]

/-- A member that is declared is defined in the registries of the hubs above it, under its key, and nothing becomes of
the registries of other hubs. If it is a hub itself, its registry is empty; no other member becomes one. -/
theorem holding_declare (hf : f.Sound) (hparents : ∀ p ∈ m.parents, p < f.members.length)
    (hd : f.declare m = (f', .ok n)) :
    f'.Sound ∧ (f'.isHub n = true → f'.holding n = {}) ∧ (∀ h, f'.isHub h = true → h = n ∨ f.isHub h = true) ∧
    ∀ h, f.isHub h = true → f'.isHub h = true ∧
      (h ∈ f'.order n → ∃ key, f'.keyOf n = some (.str key) ∧ f'.holding h = (f.holding h).register key n) ∧
      (h ∉ f'.order n → f'.holding h = f.holding h) := by
  obtain ⟨rfl, m', ancestors, hadmitted, hancestors, hregistered⟩ := declare_cases hd
  have hparents' := parents_of_admitted hadmitted
  rw [← hparents'] at hparents
  obtain ⟨hnodup, habove, hknown⟩ := ancestorsFor_spec hf hancestors hparents
  have hextended := sound_extended hf habove hknown
  obtain ⟨hmembers, hsound, hentries, hin, hout⟩ := registerAll_of_hubs hextended
    (fun user huser => (List.mem_filter.1 huser).2) (hnodup.filter _) hregistered
  have horder : f'.order f.members.length = f.members.length :: ancestors := by
    rw [order_of_member ((congrArg (·[f.members.length]?) hmembers).trans member?_extended_length)]
  refine ⟨hsound, fun hhub => ?_, fun h hhub => ?_, fun h hh => ?_⟩
  · rw [holding_of_hub hsound hhub]
    have hnone : f'.registries.lookup f.members.length = none := by
      rw [List.lookup_eq_none_iff]
      intro entry hentry
      have hlt : entry.1 < f.members.length := (hentries entry hentry).elim
        (fun huser => hknown _ (List.mem_filter.1 huser).1) (hf.tables entry)
      exact bne_iff_ne.2 (Nat.ne_of_gt hlt)
    rw [tablesOf, hnone]
    rfl
  · rw [isHub_of_members hmembers] at hhub
    obtain ⟨found, hfound, htop⟩ := isHub_iff.1 hhub
    obtain hold | ⟨hnew, -⟩ := member?_extended_cases hfound
    · exact .inr (isHub_iff.2 ⟨found, hold, htop⟩)
    · exact .inl hnew
  · have hlt := lt_of_isHub hh
    have hhub : (f.extended m' ancestors).isHub h = true := by
      rw [isHub, member?_extended hlt]
      exact hh
    have hhub' : f'.isHub h = true := isHub_of_members hmembers ▸ hhub
    have hiff : h ∈ f'.order f.members.length ↔ h ∈ ancestors.filter (f.extended m' ancestors).isHub := by
      rw [horder, List.mem_cons, List.mem_filter]
      exact ⟨fun hmem => ⟨hmem.resolve_left (Nat.ne_of_lt hlt), hhub⟩, fun hmem => .inr hmem.1⟩
    rw [hiff, holding_of_hub hsound hhub', holding_of_hub hf hh, keyOf_of_members hmembers]
    exact ⟨hhub', hin h, hout h⟩

theorem sound_empty : ({} : Family ℓ).Sound :=
  ⟨fun _ _ h => (by cases h), fun _ _ h => (by cases h), fun _ _ h => (by cases h), nofun⟩

/-- What is done with the registry of one hub leaves those of the others as they are. -/
theorem holding_setRegistry (hf : f.Sound) (hh : f.isHub h = true) (r : Registry Nat ℓ) {k : Nat}
    (hk : f.isHub k = true) :
    (f.setRegistry h r).Sound ∧ (f.setRegistry h r).isHub k = true ∧
      (f.setRegistry h r).holding k = if h = k then r else f.holding k := by
  have hrefiled := refiled_setRegistry hf hh r
  have hsound := hrefiled.sound hf hh
  have hhub : (f.setRegistry h r).isHub k = true := isHub_of_members hrefiled.members ▸ hk
  refine ⟨hsound, hhub, ?_⟩
  rw [holding_of_hub hsound hhub, holding_of_hub hf hk, hrefiled.tables]

/-! ## Histories of hubs -/

/-- The registry of a hub is what some deeds have made of an empty one. -/
def Records (deliver : ℓ → Registry Nat ℓ → Registry.Delivery Nat) (f : Family ℓ) (h : Nat)
    (deeds : List (Registry.Deed Nat ℓ)) : Prop :=
  f.isHub h = true ∧ f.holding h = Registry.performAll deliver {} deeds

variable {deliver : ℓ → Registry Nat ℓ → Registry.Delivery Nat} {deeds : List (Registry.Deed Nat ℓ)}

/-- What is done with the registry of a hub is one deed more for this hub, and none for the others. -/
theorem Records.setRegistry (hr : f.Records deliver h deeds) (hf : f.Sound) (deed : Registry.Deed Nat ℓ) :
    let f' := f.setRegistry h (Registry.perform deliver (f.holding h) deed)
    f'.Sound ∧ f'.Records deliver h (deeds ++ [deed]) ∧
      ∀ other deeds, other ≠ h → f.Records deliver other deeds → f'.Records deliver other deeds := by
  intro f'
  obtain ⟨hsound, hhub, hholding⟩ := holding_setRegistry hf hr.1 (Registry.perform deliver (f.holding h) deed) hr.1
  refine ⟨hsound, ⟨hhub, ?_⟩, fun other deeds hne hother => ?_⟩
  · rw [hholding, if_pos rfl, hr.2, Registry.performAll, Registry.performAll, List.foldl_append]
    rfl
  · obtain ⟨-, hhub, hholding⟩ := holding_setRegistry hf hr.1 (Registry.perform deliver (f.holding h) deed) hother.1
    exact ⟨hhub, by rw [hholding, if_neg (Ne.symm hne), hother.2]⟩

/-- A declaration defines the new member in the hubs above it, and does nothing to the other hubs. -/
theorem Records.declare (hr : f.Records deliver h deeds) (hf : f.Sound)
    (hparents : ∀ p ∈ m.parents, p < f.members.length) (hd : f.declare m = (f', .ok n)) :
    (h ∈ f'.order n → ∃ key, f'.keyOf n = some (.str key) ∧ f'.Records deliver h (deeds ++ [.define key n])) ∧
      (h ∉ f'.order n → f'.Records deliver h deeds) := by
  obtain ⟨-, -, -, hhubs⟩ := holding_declare hf hparents hd
  obtain ⟨hhub, hbelow, hbeside⟩ := hhubs h hr.1
  refine ⟨fun hmem => ?_, fun hmem => ⟨hhub, (hbeside hmem).trans hr.2⟩⟩
  obtain ⟨key, hkey, hholding⟩ := hbelow hmem
  refine ⟨key, hkey, hhub, ?_⟩
  rw [hholding, hr.2, Registry.performAll, Registry.performAll, List.foldl_append]
  rfl

/-! ## Runs -/

/-- What can be done with a family: a member is declared, or something is done with the registry of a hub. -/
inductive Act (ℓ : Type) where
  | declare (m : Member)
  | deed (hub : Nat) (deed : Registry.Deed Nat ℓ)

/-- The parents of what is declared are there, and nothing keeps it from being declared; what is used is a hub. -/
def Act.Fits (f : Family ℓ) : Act ℓ → Prop
  | .declare m => (∀ p ∈ m.parents, p < f.members.length) ∧ ∃ n, (f.declare m).2 = .ok n
  | .deed hub _ => f.isHub hub = true

/-- A family after an act. -/
def perform (deliver : ℓ → Registry Nat ℓ → Registry.Delivery Nat) (f : Family ℓ) : Act ℓ → Family ℓ
  | .declare m => (f.declare m).1
  | .deed hub deed => f.setRegistry hub (Registry.perform deliver (f.holding hub) deed)

/-- What an act is for the registry of a hub. A declaration is a definition for every hub above the new member. -/
def deedsOf (deliver : ℓ → Registry Nat ℓ → Registry.Delivery Nat) (f : Family ℓ) (h : Nat) (act : Act ℓ) :
    List (Registry.Deed Nat ℓ) :=
  match act with
  | .declare _ =>
    let n := f.members.length
    let f' := f.perform deliver act
    match f'.keyOf n with
    | some (.str key) => if f.isHub h && (f'.order n).contains h then [.define key n] else []
    | _ => []
  | .deed hub deed => if hub = h then [deed] else []

/-- A family after several acts. -/
def performAll (deliver : ℓ → Registry Nat ℓ → Registry.Delivery Nat) (f : Family ℓ) (acts : List (Act ℓ)) :
    Family ℓ := acts.foldl (perform deliver) f

/-- Each of several acts fits when its turn comes. -/
def AllFit (deliver : ℓ → Registry Nat ℓ → Registry.Delivery Nat) : Family ℓ → List (Act ℓ) → Prop
  | _, [] => True
  | f, act :: rest => act.Fits f ∧ AllFit deliver (f.perform deliver act) rest

/-- What several acts are for the registry of a hub. -/
def deedsOfAll (deliver : ℓ → Registry Nat ℓ → Registry.Delivery Nat) : Family ℓ → Nat → List (Act ℓ) →
    List (Registry.Deed Nat ℓ)
  | _, _, [] => []
  | f, h, act :: rest => f.deedsOf deliver h act ++ deedsOfAll deliver (f.perform deliver act) h rest

/-- The registry of each hub is what its history has made of an empty one, and nothing else has a history. -/
structure Chronicle (deliver : ℓ → Registry Nat ℓ → Registry.Delivery Nat) (f : Family ℓ)
    (history : Nat → List (Registry.Deed Nat ℓ)) : Prop where
  sound : f.Sound
  records : ∀ h, f.isHub h = true → f.Records deliver h (history h)
  blank : ∀ h, f.isHub h = false → history h = []

variable {history : Nat → List (Registry.Deed Nat ℓ)} {act : Act ℓ} {acts : List (Act ℓ)}

theorem deedsOf_declare_of_not_hub (hh : f.isHub h = false) (m : Member) : f.deedsOf deliver h (.declare m) = [] := by
  rw [deedsOf]
  split
  · rw [hh]
    rfl
  · rfl

/-- What is done with a hub goes down in its history, and in no other. -/
theorem Chronicle.perform_deed (c : f.Chronicle deliver history) (hh : f.isHub h = true)
    (deed : Registry.Deed Nat ℓ) : (f.perform deliver (.deed h deed)).Chronicle deliver fun other =>
      history other ++ f.deedsOf deliver other (.deed h deed) := by
  obtain ⟨hsound, hthere, helse⟩ := (c.records h hh).setRegistry c.sound deed
  have hhubs : (f.perform deliver (.deed h deed)).isHub = f.isHub := isHub_setRegistry ..
  refine ⟨hsound, fun other hother => ?_, fun other hother => ?_⟩
  · rw [hhubs] at hother
    by_cases heq : h = other
    · subst heq
      rw [deedsOf, if_pos rfl]
      exact hthere
    · rw [deedsOf, if_neg heq, List.append_nil]
      exact helse other _ (Ne.symm heq) (c.records other hother)
  · rw [hhubs] at hother
    have hne : h ≠ other := by
      rintro rfl
      rw [hh] at hother
      cases hother
    rw [deedsOf, if_neg hne, c.blank other hother]
    rfl

/-- A declaration goes down in the history of each hub above the new member. A hub that is new has no history. -/
theorem Chronicle.perform_declare (c : f.Chronicle deliver history) (hfits : (Act.declare m : Act ℓ).Fits f) :
    (f.perform deliver (.declare m)).Chronicle deliver fun h => history h ++ f.deedsOf deliver h (.declare m) := by
  obtain ⟨hparents, n, hn⟩ := hfits
  have hd : f.declare m = (f.perform deliver (.declare m), .ok n) := Prod.ext rfl hn
  obtain ⟨rfl, -⟩ := declare_cases hd
  obtain ⟨hsound, hfresh, hnew, hold⟩ := holding_declare c.sound hparents hd
  refine ⟨hsound, fun h hh => ?_, fun h hh => ?_⟩
  · cases hbefore : f.isHub h with
    | false =>
      -- it is the new member
      obtain rfl := (hnew h hh).resolve_right (by simp [hbefore])
      refine ⟨hh, ?_⟩
      rw [hfresh hh, c.blank _ hbefore, deedsOf_declare_of_not_hub hbefore]
      rfl
    | true =>
      obtain ⟨hbelow, hbeside⟩ := (c.records h hbefore).declare c.sound hparents hd
      rw [deedsOf]
      by_cases hmem : h ∈ (f.perform deliver (.declare m)).order f.members.length
      · obtain ⟨key, hkey, hrecords⟩ := hbelow hmem
        simpa [hkey, hbefore, hmem] using hrecords
      · have hrecords := hbeside hmem
        split
        · simpa [hmem] using hrecords
        · simpa using hrecords
  · have hbefore : f.isHub h = false := by
      rw [Bool.eq_false_iff]
      intro hhub
      rw [(hold h hhub).1] at hh
      cases hh
    rw [c.blank h hbefore, deedsOf_declare_of_not_hub hbefore]
    rfl

/-- An act goes down in the history of each hub that it is something for. -/
theorem Chronicle.perform (c : f.Chronicle deliver history) (hact : act.Fits f) :
    (f.perform deliver act).Chronicle deliver fun h => history h ++ f.deedsOf deliver h act := by
  cases act with
  | declare m => exact c.perform_declare hact
  | deed h deed => exact c.perform_deed hact deed

theorem Chronicle.performAll (c : f.Chronicle deliver history) (hacts : AllFit deliver f acts) :
    (f.performAll deliver acts).Chronicle deliver fun h => history h ++ deedsOfAll deliver f h acts := by
  induction acts generalizing f history with
  | nil =>
    simp only [deedsOfAll, List.append_nil]
    exact c
  | cons act rest ih =>
    have hrest := ih (c.perform hacts.1) hacts.2
    simp only [List.append_assoc] at hrest
    exact hrest

theorem chronicle_empty : ({} : Family ℓ).Chronicle deliver fun _ => [] where
  sound := sound_empty
  records h hh := by cases hh
  blank _ _ := rfl

/-- Whatever hubs there are and whatever has been done with them, their registries are orderly. A hub starts with an
empty registry. A declaration defines the new member in the hubs above it, under its key, and does nothing to the other
hubs; and what is done with one hub does nothing to the others. So after any declarations and any deeds, the registry of
each hub is what the declarations below it and the deeds on it have made of an empty one, in the order in which they
were done. -/
theorem orderly_hub (deliver : ℓ → Registry Nat ℓ → Registry.Delivery Nat) :
    (∀ (f : Family ℓ) h deeds, f.Records deliver h deeds → Registry.Orderly deliver deeds (f.holding h)) ∧
    ({} : Family ℓ).Sound ∧
    (∀ (f f' : Family ℓ) m n, f.Sound → (∀ p ∈ m.parents, p < f.members.length) → f.declare m = (f', .ok n) →
      f'.Sound ∧ (f'.isHub n = true → f'.Records deliver n []) ∧
      ∀ h deeds, f.Records deliver h deeds →
        (h ∈ f'.order n → ∃ key, f'.keyOf n = some (.str key) ∧ f'.Records deliver h (deeds ++ [.define key n])) ∧
        (h ∉ f'.order n → f'.Records deliver h deeds)) ∧
    (∀ (f : Family ℓ) h deeds deed, f.Sound → f.Records deliver h deeds →
      let f' := f.setRegistry h (Registry.perform deliver (f.holding h) deed)
      f'.Sound ∧ f'.Records deliver h (deeds ++ [deed]) ∧
        ∀ other deeds, other ≠ h → f.Records deliver other deeds → f'.Records deliver other deeds) ∧
    ∀ acts, AllFit deliver ({} : Family ℓ) acts →
      let f := performAll deliver {} acts
      f.Sound ∧ ∀ h, f.isHub h = true →
        f.Records deliver h (deedsOfAll deliver {} h acts) ∧
        Registry.Orderly deliver (deedsOfAll deliver {} h acts) (f.holding h) := by
  have horderly (f : Family ℓ) h deeds (hr : f.Records deliver h deeds) :
      Registry.Orderly deliver deeds (f.holding h) := hr.2 ▸ Registry.orderly deliver deeds
  refine ⟨horderly, sound_empty, fun f f' m n hf hparents hd => ?_, fun f h deeds deed hf hr => hr.setRegistry hf deed,
    fun acts hacts => ?_⟩
  · obtain ⟨hsound, hfresh, -⟩ := holding_declare hf hparents hd
    exact ⟨hsound, fun hhub => ⟨hhub, hfresh hhub⟩, fun h deeds hr => hr.declare hf hparents hd⟩
  · have c := chronicle_empty.performAll hacts
    refine ⟨c.sound, fun h hh => ?_⟩
    have hrecords : (performAll deliver {} acts).Records deliver h (deedsOfAll deliver {} h acts) := c.records h hh
    exact ⟨hrecords, horderly _ _ _ hrecords⟩

/-- A member is declared below a hub, and a loader is kept for the hub. When the hub is asked for the name for the first
time, whatever the case, the loader defines a member under another name, which is then registered before the one that
the loader returns. -/
theorem orderly_hub_late :
    let deliver : String → Registry Nat String → Registry.Delivery Nat := fun _ _ => ⟨[("Other", 3)], 4⟩
    let acts : List (Act String) :=
      [.declare { name := "Registrant" }, .declare { name := "Base", parents := [0] },
        .declare { name := "Early", parents := [1] }, .deed 1 (.defer "late_impl" "module"), .deed 1 (.find "missing"),
        .deed 1 (.get "LATE_IMPL")]
    let deeds : List (Registry.Deed Nat String) :=
      [.define "Early" 2, .defer "late_impl" "module", .find "missing", .get "LATE_IMPL"]
    let f := performAll deliver {} acts
    AllFit deliver {} acts ∧ f.isHub 1 = true ∧ f.Records deliver 1 deeds ∧
      Registry.Orderly deliver deeds (f.holding 1) ∧
      (f.holding 1).registered = [("early", 2), ("other", 3), ("late_impl", 4)] ∧
      Registry.calledAll deliver {} deeds = [("late_impl", "module")] := by
  intro deliver acts deeds f
  let top : Member := { name := "Registrant", order := [0] }
  let base : Member := { name := "Base", parents := [0], order := [1, 0] }
  let early : Member := { name := "Early", parents := [1], order := [2, 1, 0] }
  let declared : Family String := ⟨[top, base, early], [(1, ({} : Registry Nat String).register "Early" 2)]⟩
  have htop : ({} : Family String).declare { name := "Registrant" } = (⟨[top], []⟩, .ok 0) := by
    have horder : Ancestry.order? [] ([] : List (List Nat)) = some [] := by decide +kernel
    exact declare_plain (by decide +kernel) .nil horder rfl rfl
  have hbase : (⟨[top], []⟩ : Family String).declare { name := "Base", parents := [0] } =
      (⟨[top, base], []⟩, .ok 1) := by
    have horder : Ancestry.order? [0] [[0]] = some [0] := by decide +kernel
    exact declare_plain (by decide +kernel) (List.nodup_singleton 0) horder rfl rfl
  have hearly : (⟨[top, base], []⟩ : Family String).declare { name := "Early", parents := [1] } =
      (declared, .ok 2) := by
    have horder : Ancestry.order? [1] [[1, 0]] = some [1, 0] := by decide +kernel
    exact declare_plain (by decide +kernel) (List.nodup_singleton 1) horder rfl rfl
  have hdeclared : declared.isHub 1 = true := rfl
  have hacts : AllFit deliver {} acts := by
    simp only [acts, AllFit, Act.Fits, perform, htop, hbase, hearly, isHub_setRegistry, hdeclared, and_true]
    exact ⟨⟨nofun, 0, rfl⟩, ⟨by decide, 1, rfl⟩, by decide, 2, rfl⟩
  have hhub : f.isHub 1 = true := by
    simp only [f, acts, performAll, List.foldl, perform, htop, hbase, hearly, isHub_setRegistry, hdeclared]
  have hdeeds : deedsOfAll deliver {} 1 acts = deeds := by
    simp only [acts, deedsOfAll, deedsOf, perform, htop, hbase, hearly]
    rfl
  obtain ⟨-, hall⟩ := (orderly_hub deliver).2.2.2.2 acts hacts
  have hone := hall 1 hhub
  rw [hdeeds] at hone
  refine ⟨hacts, hhub, hone.1, hone.2, ?_, rfl⟩
  rw [hone.1.2]
  rfl

end Family

end NestLint
