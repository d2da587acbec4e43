import NestLint.Proofs.Json.Numbers

/-!
# Values that can be stored

What a program keeps as a value of JSON can be stored in a text: its numbers are as every number is kept, its whole
numbers are not too long for a text, and objects have each name once. All that is ever read is of this kind.

* `Storable`: the values;
* `Storable.readable`: they are read back;
* `Storable.insert`, `Storable.getD`, `Storable.parts`: their parts;
* `storable_of_parse`: whatever is read can be stored again.
-/

namespace NestLint.Json

/-- The value can be stored in a text: its whole numbers are not too long, its other numbers are kept as every number
is, and no object has a name twice. -/
inductive Storable : Json → Prop where
  | null : Storable .null
  | bool (b : Bool) : Storable (.bool b)
  | int {n : Int} : isTooLong n = false → Storable (.int n)
  | float {x : Binary64} : x.Canonical → Storable (.float x)
  | str (text : String) : Storable (.str text)
  | list {items : List Json} : (∀ item ∈ items, Storable item) → Storable (.list items)
  | object {members : List (String × Json)} : (Dict.keys members).Nodup → (∀ member ∈ members, Storable member.2) →
    Storable (.object members)

theorem Storable.nil : Storable (.list []) := .list nofun

theorem Storable.empty : Storable (.object []) := .object List.nodup_nil nofun

theorem Storable.readable {value : Json} (h : value.Storable) : value.Readable := by
  induction h with
  | null => exact .null
  | bool b => exact .bool b
  | int hn => exact .int hn
  | float hx => exact .float (readsAs_float hx)
  | str text => exact .str text
  | list _ ih => exact .list ih
  | object hnodup _ ih => exact .object hnodup ih

/-! ## Parts of values -/

theorem mem_insert {entries : Dict Json} {key : String} {value : Json} {entry : String × Json}
    (h : entry ∈ Dict.insert entries key value) : entry ∈ entries ∨ entry.2 = value := by
  induction entries with
  | nil =>
    rw [Dict.insert, List.mem_singleton] at h
    exact .inr (h ▸ rfl)
  | cons first rest ih =>
    obtain ⟨k, v⟩ := first
    rw [Dict.insert] at h
    split at h
    · rcases List.mem_cons.1 h with rfl | hrest
      · exact .inr rfl
      · exact .inl (List.mem_cons_of_mem _ hrest)
    · rcases List.mem_cons.1 h with rfl | hrest
      · exact .inl List.mem_cons_self
      · exact (ih hrest).imp (List.mem_cons_of_mem _) id

theorem Storable.insert {members : Dict Json} (h : Storable (.object members)) (key : String) {value : Json}
    (hvalue : value.Storable) : Storable (.object (Dict.insert members key value)) := by
  cases h with
  | object hnodup hmembers =>
    refine .object (Dict.nodup_keys_insert hnodup key value) fun member hmember => ?_
    rcases mem_insert hmember with hold | hnew
    · exact hmembers member hold
    · exact hnew ▸ hvalue

theorem storable_of_get? {members : Dict Json} (h : ∀ member ∈ members, member.2.Storable) {key : String}
    {value : Json} (hget : Dict.get? members key = some value) : value.Storable := by
  induction members with
  | nil => cases hget
  | cons member rest ih =>
    obtain ⟨k, v⟩ := member
    rw [Dict.get?] at hget
    split at hget
    · obtain rfl := Option.some.inj hget
      exact h (k, v) List.mem_cons_self
    · exact ih (fun member hmember => h member (List.mem_cons_of_mem _ hmember)) hget

theorem Storable.getD {members : Dict Json} (h : Storable (.object members)) (key : String) {fallback : Json}
    (hfallback : fallback.Storable) : (Dict.getD members key fallback).Storable := by
  cases h with
  | object _ hmembers =>
    rw [Dict.getD]
    cases hget : Dict.get? members key with
    | none => exact hfallback
    | some value => exact storable_of_get? hmembers hget

theorem Storable.parts {value : Json} (h : value.Storable) {items : List Json} (hparts : value.parts? = some items) :
    ∀ item ∈ items, item.Storable := by
  cases h with
  | list hitems => exact Option.some.inj hparts ▸ hitems
  | str text =>
    obtain rfl := Option.some.inj hparts
    intro item hitem
    obtain ⟨c, -, rfl⟩ := List.mem_map.1 hitem
    exact .str _
  | object hnodup hmembers =>
    obtain rfl := Option.some.inj hparts
    intro item hitem
    obtain ⟨member, -, rfl⟩ := List.mem_map.1 hitem
    exact .str _
  | _ => cases hparts

/-! ## Numbers that are read -/

theorem isDigit_spanDigits (cs : List Char) : ∀ c ∈ (spanDigits cs).1, c.isDigit :=
  fun _ hc => List.mem_takeWhile_imp hc

theorem isDigit_parseWhole {cs ds rest : List Char} (h : parseWhole cs = some (ds, rest)) : ∀ c ∈ ds, c.isDigit := by
  rw [parseWhole.eq_def] at h
  split at h
  · cases h
    exact isDigit_zeros 1
  · dsimp only at h
    split at h
    · cases h
    · cases h
      exact isDigit_spanDigits _

theorem natOfDigits_lt_pow {ds : List Char} (h : ∀ c ∈ ds, c.isDigit) : natOfDigits ds < 10 ^ ds.length := by
  induction ds using List.reverseRecOn with
  | nil => decide
  | append_singleton ds d ih =>
    have hfront := ih fun c hc => h c (List.mem_append_left _ hc)
    have hlast : natOfDigits [d] < 10 := by
      have hd := (Char.isDigit_iff_toNat.1 (h d (List.mem_append_right _ List.mem_cons_self))).2
      have hnine : '9'.toNat = '0'.toNat + 9 := rfl
      show 0 * 10 + (d.toNat - '0'.toNat) < 10
      omega
    rw [natOfDigits_append, List.length_append, List.length_singleton, Nat.pow_succ]
    omega

theorem natOfDigits_lt {ds : List Char} (h : ∀ c ∈ ds, c.isDigit) {k : Nat} (hk : ds.length ≤ k) :
    natOfDigits ds < Nat.pow 10 k :=
  (natOfDigits_lt_pow h).trans_le (Nat.pow_le_pow_right (by decide) hk)

theorem isTooLong_of_natAbs_lt {n : Int} (h : n.natAbs < Nat.pow 10 digitLimit) : isTooLong n = false := by
  rw [isTooLong]
  exact decide_eq_false (Nat.not_le.2 h)

/-- A whole number that is read has at most as many digits as it is written with, and any other number is rounded. -/
theorem storable_parseNumber {negative : Bool} {cs rest : List Char} {value : Json}
    (h : parseNumber negative cs = .ok (value, rest)) : value.Storable := by
  simp only [parseNumber, bind, Except.bind, pure, Except.pure] at h
  split at h
  · rename_i whole behind hwhole
    split at h
    · split at h
      · cases h
      · rename_i hlength
        cases h
        have hlt := natOfDigits_lt (isDigit_parseWhole hwhole) (Nat.not_lt.1 hlength)
        refine .int (isTooLong_of_natAbs_lt ?_)
        cases negative with
        | false => exact hlt
        | true => exact (Int.natAbs_neg _).symm ▸ hlt
    · cases h
      exact .float (Binary64.canonical_ofDecimal ..)
  · cases h

theorem storable_parseName {cs rest : List Char} {value : Json} (h : parseName cs = some (value, rest)) :
    value.Storable := by
  simp only [parseName, Option.orElse_eq_orElse, Option.orElse_eq_or, Option.or_eq_some_iff, Option.map_eq_some_iff,
    Prod.mk.injEq] at h
  obtain ⟨-, -, rfl, -⟩ | ⟨-, ⟨-, -, rfl, -⟩ | ⟨-, ⟨-, -, rfl, -⟩ | ⟨-, ⟨-, -, rfl, -⟩ | ⟨-, ⟨-, -, rfl, -⟩ |
    ⟨-, -, -, rfl, -⟩⟩⟩⟩⟩ := h
  · exact .null
  · exact .bool true
  · exact .bool false
  · exact .float trivial
  · exact .float trivial
  · exact .float trivial

theorem storable_parseAtom {cs rest : List Char} {value : Json} (h : parseAtom cs = .ok (value, rest)) :
    value.Storable := by
  rw [parseAtom.eq_def] at h
  split at h
  · rename_i found hname
    cases h
    exact storable_parseName hname
  · split at h
    · exact storable_parseNumber h
    · exact storable_parseNumber h

/-! ## Documents that are read -/

/-- Members that are read one after the other make an object that can be stored. -/
theorem storable_ofList {entries : List (String × Json)} (h : ∀ entry ∈ entries, entry.2.Storable) :
    Storable (.object (Dict.ofList entries)) := by
  suffices hmerge : ∀ d : Dict Json, Storable (.object d) → Storable (.object (Dict.merge d entries)) from
    hmerge [] .empty
  induction entries with
  | nil => exact fun d hd => hd
  | cons entry rest ih =>
    intro d hd
    exact ih (fun entry hentry => h entry (List.mem_cons_of_mem _ hentry)) _
      (hd.insert entry.1 (h entry List.mem_cons_self))

theorem exists_of_map_eq_ok {ε α β : Type} {x : Except ε α} {f : α → β} {b : β} (h : x.map f = .ok b) :
    ∃ a, x = .ok a ∧ f a = b := by
  cases x with
  | error fault => cases h
  | ok a => exact ⟨a, rfl, Except.ok.inj h⟩

/-- Whatever is read, with any fuel, can be stored: a value, the items of a list and the members of an object. -/
theorem storable_of_fuel (fuel : Nat) :
    (∀ {cs value rest}, parseValue fuel cs = .ok (value, rest) → value.Storable) ∧
      (∀ {cs items rest}, parseItems fuel cs = .ok (items, rest) → ∀ item ∈ items, item.Storable) ∧
        ∀ {cs members rest}, parseMembers fuel cs = .ok (members, rest) → ∀ member ∈ members, member.2.Storable := by
  induction fuel with
  | zero =>
    refine ⟨fun h => ?_, fun h => ?_, fun h => ?_⟩
    · rw [parseValue] at h
      cases h
    · rw [parseItems] at h
      cases h
    · rw [parseMembers] at h
      cases h
  | succ fuel ih =>
    obtain ⟨hvalue, hitems, hmembers⟩ := ih
    refine ⟨fun h => ?_, fun h => ?_, fun h => ?_⟩
    · rw [parseValue.eq_def] at h
      dsimp only at h
      split at h
      · split at h
        · cases h
          exact .str _
        · cases h
      · split at h
        · cases h
          exact .nil
        · obtain ⟨⟨items, behind⟩, hread, heq⟩ := exists_of_map_eq_ok h
          cases heq
          exact .list (hitems hread)
      · split at h
        · cases h
          exact .empty
        · obtain ⟨⟨members, behind⟩, hread, heq⟩ := exists_of_map_eq_ok h
          cases heq
          exact storable_ofList (hmembers hread)
      · exact storable_parseAtom h
    · rw [parseItems.eq_def] at h
      dsimp only at h
      split at h
      · cases h
      · rename_i item behind hitem
        split at h
        · cases h
          exact List.forall_mem_singleton.2 (hvalue hitem)
        · obtain ⟨⟨more, behind⟩, hread, heq⟩ := exists_of_map_eq_ok h
          cases heq
          exact List.forall_mem_cons.2 ⟨hvalue hitem, hitems hread⟩
        · cases h
    · rw [parseMembers.eq_def] at h
      dsimp only at h
      split at h
      · split at h
        · cases h
        split at h
        · split at h
          · cases h
          · rename_i value behind hmember
            split at h
            · cases h
              exact List.forall_mem_singleton.2 (hvalue hmember)
            · obtain ⟨⟨more, behind⟩, hread, heq⟩ := exists_of_map_eq_ok h
              cases heq
              exact List.forall_mem_cons.2 ⟨hvalue hmember, hmembers hread⟩
            · cases h
        · cases h
      · cases h

/-- Whatever is read from a text can be stored in one again. -/
theorem storable_of_parse {text : String} {value : Json} (h : parse text = .ok value) : value.Storable := by
  rw [parse, parseList] at h
  split at h
  · rename_i found rest hread
    split at h
    · cases h
      exact (storable_of_fuel _).1 hread
    · cases h
  · cases h

end NestLint.Json
