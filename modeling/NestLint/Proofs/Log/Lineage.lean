import NestLint.Log.Hub

/-!
# Channels and what is above them

Asking for a channel can make several others wait, move those that waited, and replace the one that
was found. None of this reaches a channel of the program's own: once there is one, it stays as it
is, with the same channels above it and the same level, until its level or that of a channel above
it is changed.

* `Hub.Sound`: the hubs on which the program alone asks for channels;
* `Hub.Grows`: what stays when channels are asked for;
* `Hub.asked_own`: everything there is to know about asking for a channel;
* `Hub.Grows.isEnabled`: what is said on a channel does not change by asking for others.
-/

namespace NestLint.Hub

/-! ## Settled channels -/

/-- The channel above all others, or one of the program's own. -/
def Settled (h : Hub) (n : Nat) : Prop := ∃ c, h.channel? n = some c ∧ (n = top ∨ c.keepsContext = true)

/-- A channel of the program's own. -/
def Kept (h : Hub) (n : Nat) : Prop := ∃ c, h.channel? n = some c ∧ c.keepsContext = true

/-- The program alone has asked for channels: what has a name is its own, and so is all above, up to
the channel above all others. -/
structure Sound (h : Hub) : Prop where
  /-- There is a channel above all others, and it is not of the program's making. -/
  top : ∃ c, h.channel? top = some c ∧ c.above = none ∧ c.keepsContext = false
  named : ∀ {name n}, Dict.get? h.names name = some (.channel n) → h.Kept n
  above : ∀ {n c p}, h.channel? n = some c → c.keepsContext = true → c.above = some p → p < n ∧ h.Settled p
  /-- Only channels that have been replaced still wait. -/
  waiting : ∀ {name below}, Dict.get? h.names name = some (.waiting below) →
    ∀ i ∈ below, i < h.channels.length ∧ ¬ h.Settled i

/-- The settled channels stay as they are, and no other channel becomes one. -/
structure Grows (h h' : Hub) : Prop where
  length : h.channels.length ≤ h'.channels.length
  settled : ∀ {n}, h.Settled n → h'.channel? n = h.channel? n
  unsettled : ∀ {n}, n < h.channels.length → h'.Settled n → h.Settled n

theorem Kept.settled {h : Hub} {n : Nat} (kept : h.Kept n) : h.Settled n := by
  obtain ⟨c, hc, hkeeps⟩ := kept
  exact ⟨c, hc, .inr hkeeps⟩

theorem Settled.lt {h : Hub} {n : Nat} (settled : h.Settled n) : n < h.channels.length := by
  obtain ⟨c, hc, -⟩ := settled
  exact (List.getElem?_eq_some_iff.1 hc).1

theorem Sound.settled_top {h : Hub} (sound : h.Sound) : h.Settled Hub.top := by
  obtain ⟨c, hc, -, -⟩ := sound.top
  exact ⟨c, hc, .inl rfl⟩

/-- Channels may be new and others be moved, but the settled ones are the same as before. -/
structure Moves (h h' : Hub) : Prop where
  length : h.channels.length ≤ h'.channels.length
  settled : ∀ {n}, h.Settled n → h'.channel? n = h.channel? n
  plain : ∀ {n}, h'.Settled n → h.Settled n

variable {h h' h'' : Hub}

namespace Grows

theorem refl (h : Hub) : h.Grows h := ⟨Nat.le_refl _, fun _ => rfl, fun _ settled => settled⟩

theorem of_settled (grows : h.Grows h') {n : Nat} (settled : h.Settled n) : h'.Settled n := by
  have hsame := grows.settled settled
  obtain ⟨c, hc, hown⟩ := settled
  exact ⟨c, hsame.trans hc, hown⟩

theorem of_kept (grows : h.Grows h') {n : Nat} (kept : h.Kept n) : h'.Kept n := by
  have hsame := grows.settled kept.settled
  obtain ⟨c, hc, hkeeps⟩ := kept
  exact ⟨c, hsame.trans hc, hkeeps⟩

theorem trans (first : h.Grows h') (second : h'.Grows h'') : h.Grows h'' where
  length := Nat.le_trans first.length second.length
  settled settled := (second.settled (first.of_settled settled)).trans (first.settled settled)
  unsettled hn settled := first.unsettled hn (second.unsettled (Nat.lt_of_lt_of_le hn first.length) settled)

end Grows

namespace Moves

theorem grows (moves : h.Moves h') : h.Grows h' := ⟨moves.length, moves.settled, fun _ settled => moves.plain settled⟩

theorem trans (first : h.Moves h') (second : h'.Moves h'') : h.Moves h'' where
  length := Nat.le_trans first.length second.length
  settled settled := (first.grows.trans second.grows).settled settled
  plain settled := first.plain (second.plain settled)

/-- A channel that is new is none of the settled ones. -/
theorem not_settled (moves : h.Moves h') : ¬ h'.Settled h.channels.length := fun settled =>
  Nat.lt_irrefl _ (moves.plain settled).lt

end Moves

theorem channel?_change (h : Hub) (n : Nat) (f : Channel → Channel) (m : Nat) :
    (h.change n f).channel? m = (h.channel? m).map fun c => if n = m then f c else c := by
  rw [channel?, change, List.getElem?_modify]
  by_cases hm : n = m
  · simp only [hm, if_true]
    rfl
  · simp only [hm, if_false]
    rfl

/-- Channels that are not settled may be changed, as long as none of them becomes one of the
program's own. -/
theorem moves_of_map {f : Nat → Channel → Channel} (hmap : ∀ n, h'.channel? n = (h.channel? n).map (f n))
    (hlength : h'.channels.length = h.channels.length) (hkeeps : ∀ n c, (f n c).keepsContext = c.keepsContext)
    (hsettled : ∀ {n c}, h.Settled n → f n c = c) : h.Moves h' where
  length := Nat.le_of_eq hlength.symm
  settled {n} settled := by
    obtain ⟨c, hc, -⟩ := id settled
    rw [hmap, hc, Option.map_some, hsettled settled]
  plain {n} settled := by
    obtain ⟨d, hd, hown⟩ := settled
    rw [hmap, Option.map_eq_some_iff] at hd
    obtain ⟨c, hc, rfl⟩ := hd
    exact ⟨c, hc, hown.imp_right fun hkept => (hkeeps n c).symm.trans hkept⟩

/-! ## Channels above -/

theorem lineageUpTo_none (h : Hub) (fuel : Nat) : h.lineageUpTo fuel none = [] := by
  cases fuel with
  | zero => rfl
  | succ fuel => rfl

/-- What is above a settled channel is settled too, so that a hub that grows from this one finds the
same channels above, however far it looks. -/
theorem lineageUpTo_eq (sound : h.Sound) (grows : h.Grows h') {n : Nat} (settled : h.Settled n)
    {fuel fuel' : Nat} (hfuel : n < fuel) (hfuel' : n < fuel') :
    h'.lineageUpTo fuel' (some n) = h.lineageUpTo fuel (some n) := by
  -- What is above a channel of the program's own was there before it, so it has a smaller number.
  induction n using Nat.strongRecOn generalizing fuel fuel' with
  | ind n ih =>
    obtain ⟨fuel, rfl⟩ : ∃ less, fuel = less + 1 := ⟨fuel - 1, by omega⟩
    obtain ⟨fuel', rfl⟩ : ∃ less, fuel' = less + 1 := ⟨fuel' - 1, by omega⟩
    obtain ⟨c, hc, hown⟩ := id settled
    simp only [lineageUpTo, grows.settled settled, hc, List.cons.injEq, true_and]
    cases habove : c.above with
    | none => rw [lineageUpTo_none, lineageUpTo_none]
    | some p =>
      obtain rfl | hkeeps := hown
      · obtain ⟨d, hd, hnone, -⟩ := sound.top
        obtain rfl : c = d := Option.some.inj (hc.symm.trans hd)
        rw [hnone] at habove
        cases habove
      · obtain ⟨hlt, hp⟩ := sound.above hc hkeeps habove
        exact ih p hlt hp (by omega) (by omega)

/-- What is said on a settled channel does not change when others are asked for. -/
theorem Grows.isEnabled (sound : h.Sound) (grows : h.Grows h') {n : Nat} (settled : h.Settled n) (level : Int) :
    h'.isEnabled n level = h.isEnabled n level := by
  have hlineage : h'.lineage n = h.lineage n :=
    lineageUpTo_eq sound grows settled settled.lt (grows.of_settled settled).lt
  rw [Hub.isEnabled, Hub.isEnabled, effectiveLevel, effectiveLevel, hlineage]

/-! ## Names above -/

theorem length_lt_of_mem_startsOf {backwards : List Char} :
    ∀ start ∈ startsOf backwards, start.length < backwards.length := by
  have hshorter {c : Char} {rest : List Char} {backwards : List Char}
      (hrest : backwards.dropWhile (· != '.') = c :: rest) : rest.length < backwards.length := by
    have hle := (List.dropWhile_suffix (l := backwards) (· != '.')).length_le
    rw [hrest] at hle
    exact hle
  induction backwards using startsOf.induct with
  | case1 backwards hnone =>
    rw [startsOf, hnone]
    nofun
  | case2 backwards c rest hrest hempty =>
    rw [startsOf, hrest]
    simp only [hempty, if_true]
    nofun
  | case3 backwards c rest hrest hempty ih =>
    intro start hstart
    rw [startsOf, hrest] at hstart
    simp only [hempty, Bool.false_eq_true, if_false, List.mem_cons] at hstart
    have hlt := hshorter hrest
    obtain rfl | hstart := hstart
    · rwa [List.length_reverse]
    · have hrec := ih start hstart
      rw [List.length_tail] at hrec
      omega

/-- No name is above itself. -/
theorem not_mem_namesAbove (name : String) : name ∉ namesAbove name := by
  intro hmem
  obtain ⟨start, hstart, hname⟩ := List.mem_map.1 hmem
  have hlt := length_lt_of_mem_startsOf start hstart
  rw [List.length_reverse, ← hname, String.toList_ofList] at hlt
  exact Nat.lt_irrefl _ hlt

/-- What comes of finding the channel above channel `n` among the names. -/
structure Attached (n : Nat) (starts : List String) (names names' : Dict Standing) (above : Nat) : Prop where
  channels : ∀ {name m}, Dict.get? names' name = some (.channel m) ↔ Dict.get? names name = some (.channel m)
  waiting : ∀ {name below}, Dict.get? names' name = some (.waiting below) → ∀ i ∈ below,
    i = n ∨ ∃ below, Dict.get? names name = some (.waiting below) ∧ i ∈ below
  above : above = top ∨ ∃ start ∈ starts, Dict.get? names start = some (.channel above)

/-- A name that stands for no channel may be given more that wait. -/
theorem Attached.cons {n : Nat} {start : String} {starts : List String} {names names' : Dict Standing} {above : Nat}
    {below : List Nat} (hfree : ∀ m, Dict.get? names start ≠ some (.channel m))
    (hbelow : ∀ i ∈ below, i = n ∨ ∃ below, Dict.get? names start = some (.waiting below) ∧ i ∈ below)
    (attached : Attached n starts (Dict.insert names start (.waiting below)) names' above) :
    Attached n (start :: starts) names names' above := by
  have hchannel (name : String) (m : Nat) : Dict.get? (Dict.insert names start (.waiting below)) name =
      some (.channel m) ↔ Dict.get? names name = some (.channel m) := by
    rw [Dict.get?_insert]
    split
    · rename_i heq
      subst heq
      exact iff_of_false (by simp) (hfree m)
    · exact Iff.rfl
  refine ⟨attached.channels.trans (hchannel _ _), fun {name below'} hname i hi => ?_, ?_⟩
  · obtain rfl | ⟨below'', hget, hmem⟩ := attached.waiting hname i hi
    · exact .inl rfl
    · rw [Dict.get?_insert] at hget
      split at hget
      · rename_i heq
        subst heq
        cases hget
        exact hbelow i hmem
      · exact .inr ⟨below'', hget, hmem⟩
  · obtain hsame | ⟨other, hother, hget⟩ := attached.above
    · exact .inl hsame
    · exact .inr ⟨other, List.mem_cons_of_mem _ hother, (hchannel _ _).1 hget⟩

theorem attached (n : Nat) (starts : List String) (names : Dict Standing) :
    Attached n starts names (attach n starts names).1 (attach n starts names).2 := by
  induction starts generalizing names with
  | nil => exact ⟨Iff.rfl, fun hname i hi => .inr ⟨_, hname, hi⟩, .inl rfl⟩
  | cons start starts ih =>
    rw [attach]
    match hstart : Dict.get? names start with
    | none =>
      refine (ih _).cons (fun m => by rw [hstart]; nofun) fun i hi => ?_
      exact .inl (List.mem_singleton.1 hi)
    | some (.waiting below) =>
      refine (ih _).cons (fun m => by rw [hstart]; nofun) fun i hi => ?_
      obtain hi | hi := List.mem_append.1 hi
      · exact .inr ⟨below, hstart, hi⟩
      · exact .inl (List.mem_singleton.1 hi)
    | some (.channel m) =>
      exact ⟨Iff.rfl, fun hname i hi => .inr ⟨_, hname, hi⟩, .inr ⟨start, List.mem_cons_self, hstart⟩⟩

/-! ## Looking up -/

/-- The names of the channel above all others. -/
def isTop (name : String) : Bool := name = "" || name = topName

/-- There is a channel for the name that is found each time: the channel above all others, or one
that has the name. -/
def Held (h : Hub) (name : String) : Prop := isTop name = true ∨ ∃ n, Dict.get? h.names name = some (.channel n)

/-- What comes of looking up a name, if the channel that is found is not the program's own. -/
structure Found (h : Hub) (name : String) (h' : Hub) (n : Nat) : Prop where
  moves : h.Moves h'
  channel : ∃ c, h'.channel? n = some c ∧ c.keepsContext = false ∧ ∀ p, c.above = some p → h.Settled p
  named : ∀ {other m}, name ≠ other →
    (Dict.get? h'.names other = some (.channel m) ↔ Dict.get? h.names other = some (.channel m))
  waiting : ∀ {other below}, Dict.get? h'.names other = some (.waiting below) →
    ∀ i ∈ below, i < h'.channels.length ∧ ¬ h'.Settled i
  generation : h'.generation = h.generation
  flags : h'.flags = h.flags

/-- The hub with one more channel, for which a name stands from then on. -/
def enlist (h : Hub) (name : String) (c : Channel) : Hub :=
  { (h.append c).1 with names := Dict.insert h.names name (.channel h.channels.length) }

/-- The hub with channel `n` below the nearest channel whose name is a start of its own. -/
def hang (h : Hub) (n : Nat) (name : String) : Hub :=
  { h.change n fun c => { c with above := some (attach n (namesAbove name) h.names).2 } with
    names := (attach n (namesAbove name) h.names).1 }

/-- A new channel is put among the others, above those that waited for it, and below another one. -/
theorem create_eq (h : Hub) (name : String) (below : List Nat) : h.create name below =
    (((h.enlist name { name }).adopt h.channels.length name below).hang h.channels.length name, h.channels.length) :=
  rfl

theorem length_enlist (h : Hub) (name : String) (c : Channel) :
    (h.enlist name c).channels.length = h.channels.length + 1 := List.length_append

theorem get?_names_enlist (h : Hub) (name : String) (c : Channel) (other : String) :
    Dict.get? (h.enlist name c).names other =
      if name = other then some (.channel h.channels.length) else Dict.get? h.names other := Dict.get?_insert ..

theorem channel?_enlist (h : Hub) (name : String) (c : Channel) :
    (h.enlist name c).channel? h.channels.length = some c := List.getElem?_concat_length

theorem grows_enlist (h : Hub) (name : String) (c : Channel) : h.Grows (h.enlist name c) where
  length := by rw [length_enlist]; exact Nat.le_succ _
  settled settled := List.getElem?_append_left settled.lt
  unsettled hn settled := by
    obtain ⟨d, hd, hown⟩ := settled
    exact ⟨d, (List.getElem?_append_left hn).symm.trans hd, hown⟩

/-- The last channel is the new one, and all others were there before. -/
theorem eq_or_settled_of_enlist {name : String} {c : Channel} {n : Nat} (settled : (h.enlist name c).Settled n) :
    n = h.channels.length ∨ h.Settled n := by
  have hlt := settled.lt
  rw [length_enlist] at hlt
  by_cases hn : n = h.channels.length
  · exact .inl hn
  · exact .inr ((grows_enlist h name c).unsettled (by omega) settled)

theorem moves_enlist (sound : h.Sound) (name : String) {c : Channel} (hplain : c.keepsContext = false) :
    h.Moves (h.enlist name c) where
  length := (grows_enlist h name c).length
  settled settled := (grows_enlist h name c).settled settled
  plain {n} settled := by
    refine (eq_or_settled_of_enlist settled).resolve_left ?_
    rintro rfl
    obtain ⟨d, hd, hown⟩ := settled
    obtain rfl := Option.some.inj ((channel?_enlist h name c).symm.trans hd)
    obtain htop | hkeeps := hown
    · have hpos := sound.settled_top.lt
      rw [htop] at hpos
      exact Nat.lt_irrefl _ hpos
    · rw [hplain] at hkeeps
      cases hkeeps

theorem moves_adopt {below : List Nat} (hbelow : ∀ i ∈ below, ¬ h.Settled i) (n : Nat) (name : String) :
    h.Moves (h.adopt n name below) := by
  refine moves_of_map (fun i => List.getElem?_mapIdx ..) (List.length_mapIdx ..) (fun i c => ?_)
    (fun {i c} settled => ?_)
  · split
    · split
      · rfl
      · rfl
    · rfl
  · have hnot : below.contains i = false := by
      rw [Bool.eq_false_iff, Ne, List.contains_iff_mem]
      exact fun hmem => hbelow i hmem settled
    rw [hnot]
    split
    · rfl
    · rfl

theorem channel?_hang (h : Hub) (n : Nat) (name : String) (m : Nat) : (h.hang n name).channel? m =
    (h.channel? m).map fun c =>
      if n = m then { c with above := some (attach n (namesAbove name) h.names).2 } else c := channel?_change ..

theorem moves_hang {n : Nat} (hn : ¬ h.Settled n) (name : String) : h.Moves (h.hang n name) := by
  refine moves_of_map (channel?_hang h n name) (List.length_modify ..) (fun i c => ?_) (fun {i c} settled => if_neg ?_)
  · split
    · rfl
    · rfl
  · rintro rfl
    exact hn settled

theorem above_hang {n : Nat} {name : String} {c : Channel} (hc : (h.hang n name).channel? n = some c) :
    c.above = some (attach n (namesAbove name) h.names).2 := by
  rw [channel?_hang, Option.map_eq_some_iff] at hc
  obtain ⟨d, -, rfl⟩ := hc
  rw [if_pos rfl]

theorem length_create (h : Hub) (name : String) (below : List Nat) :
    (h.create name below).1.channels.length = h.channels.length + 1 := by
  simp [create_eq, hang, change, adopt, enlist, append]

/-- A new channel has a settled one above it, and those that waited for it were not settled. -/
theorem found_create (sound : h.Sound) {name : String} {below : List Nat} (hbelow : ∀ i ∈ below, ¬ h.Settled i) :
    Found h name (h.create name below).1 (h.create name below).2 := by
  have henlist := moves_enlist sound name (c := { name }) rfl
  have hadopt := henlist.trans
    (moves_adopt (fun i hi settled => hbelow i hi (henlist.plain settled)) h.channels.length name)
  have moves := hadopt.trans (moves_hang hadopt.not_settled name)
  have hattached := attached h.channels.length (namesAbove name)
    ((h.enlist name { name }).adopt h.channels.length name below).names
  have hnames (other : String) :
      Dict.get? ((h.enlist name { name }).adopt h.channels.length name below).names other =
        if name = other then some (.channel h.channels.length) else Dict.get? h.names other :=
    get?_names_enlist h name { name } other
  have hlength := length_create h name below
  rw [create_eq] at hlength ⊢
  refine ⟨moves, ?_, fun {other m} hne => ?_, fun {other below'} hother i hi => ?_, rfl, rfl⟩
  · obtain ⟨c, hc⟩ :
        ∃ c, (((h.enlist name { name }).adopt h.channels.length name below).hang h.channels.length name).channel?
          h.channels.length = some c :=
      ⟨_, List.getElem?_eq_getElem (by rw [hlength]; exact Nat.lt_succ_self _)⟩
    refine ⟨c, hc, ?_, fun p hp => ?_⟩
    · rw [Bool.eq_false_iff]
      exact fun hkeeps => moves.not_settled ⟨c, hc, .inr hkeeps⟩
    · obtain rfl := Option.some.inj ((above_hang hc).symm.trans hp)
      obtain htop | ⟨start, hstart, hget⟩ := hattached.above
      · rw [htop]
        exact sound.settled_top
      -- The channel above was there before: a name does not stand above itself.
      · have hne : name ≠ start := by
          rintro rfl
          exact not_mem_namesAbove _ hstart
        rw [hnames, if_neg hne] at hget
        exact (sound.named hget).settled
  · refine hattached.channels.trans ?_
    rw [hnames, if_neg hne]
  · dsimp only
    rw [hlength]
    obtain rfl | ⟨below'', hget, hmem⟩ := hattached.waiting hother i hi
    · exact ⟨Nat.lt_succ_self _, moves.not_settled⟩
    · rw [hnames] at hget
      split at hget
      · cases hget
      · obtain ⟨hlt, hnot⟩ := sound.waiting hget i hmem
        exact ⟨Nat.lt_succ_of_lt hlt, fun settled => hnot (moves.plain settled)⟩

/-! ## Asking for channels -/

/-- The channels of before are there under their names, as they were. -/
structure Extends (h h' : Hub) : Prop where
  sound : h'.Sound
  grows : h.Grows h'
  named : ∀ {name n}, isTop name = false → Dict.get? h.names name = some (.channel n) →
    Dict.get? h'.names name = some (.channel n)
  generation : h'.generation = h.generation

/-- What comes of asking for a channel under a name. -/
structure Asked (h : Hub) (name : String) (h' : Hub) (n : Nat) : Prop extends Extends h h' where
  kept : h'.Kept n
  owned : isTop name = false → Dict.get? h'.names name = some (.channel n)
  flags : h'.flags = h.flags

/-- Asking for a channel that is there already changes nothing. -/
theorem own_of_named (sound : h.Sound) {name : String} (hname : isTop name = false) {n : Nat}
    (hget : Dict.get? h.names name = some (.channel n)) (level : Int) (isTruth : Bool) :
    h.own name level isTruth = (h, n) := by
  obtain ⟨c, hc, hkeeps⟩ := sound.named hget
  have hlook : h.lookUp name = (h, n) := by
    rw [isTop] at hname
    rw [lookUp, hname, hget]
    rfl
  rw [own, hlook]
  simp only [hc, hkeeps, if_true]

/-- The program's own channel in the place of another one, at least at a level. -/
def succeeding (c : Channel) (level : Int) (isTruth : Bool) : Channel :=
  if level ≤ c.level then replacing c c.level c.isTruth else replacing c level isTruth

theorem succeeding_keepsContext (c : Channel) (level : Int) (isTruth : Bool) :
    (succeeding c level isTruth).keepsContext = true := by
  rw [succeeding]
  split
  · rfl
  · rfl

theorem succeeding_above (c : Channel) (level : Int) (isTruth : Bool) :
    (succeeding c level isTruth).above = c.above := by
  rw [succeeding]
  split
  · rfl
  · rfl

/-- A channel that is found and is not the program's own is replaced. -/
theorem own_of_plain {name : String} {c : Channel} (hc : (h.lookUp name).1.channel? (h.lookUp name).2 = some c)
    (hplain : c.keepsContext = false) (level : Int) (isTruth : Bool) : h.own name level isTruth =
      ((h.lookUp name).1.enlist name (succeeding c level isTruth), (h.lookUp name).1.channels.length) := by
  rw [own]
  simp only [hc, hplain]
  rfl

theorem lookUp_of_isTop {name : String} (hname : isTop name = true) (h : Hub) : h.lookUp name = (h, Hub.top) := by
  rw [isTop] at hname
  rw [lookUp, if_pos hname]

/-- A name that stands for no channel of the program's own is looked up among the others, or is new. -/
theorem found_lookUp (sound : h.Sound) {name : String}
    (hfree : isTop name = true ∨ ∀ n, Dict.get? h.names name ≠ some (.channel n)) :
    Found h name (h.lookUp name).1 (h.lookUp name).2 := by
  by_cases hname : isTop name = true
  · obtain ⟨c, hc, habove, hplain⟩ := sound.top
    rw [lookUp_of_isTop hname]
    refine ⟨⟨Nat.le_refl _, fun _ => rfl, id⟩, ⟨c, hc, hplain, fun p hp => ?_⟩, fun _ => Iff.rfl, sound.waiting, rfl,
      rfl⟩
    rw [habove] at hp
    cases hp
  · have hnone := hfree.resolve_left hname
    rw [isTop] at hname
    rw [lookUp, if_neg hname]
    match hget : Dict.get? h.names name with
    | none => exact found_create sound nofun
    | some (.waiting below) => exact found_create sound fun i hi => (sound.waiting hget i hi).2
    | some (.channel n) => exact absurd hget (hnone n)

/-- A channel of the program's own takes the place of one that was found. -/
theorem asked_of_found (sound : h.Sound) {name : String}
    (hfree : isTop name = true ∨ ∀ n, Dict.get? h.names name ≠ some (.channel n)) {n : Nat}
    (found : Found h name h' n) {new : Channel} (hkeeps : new.keepsContext = true)
    (habove : ∀ p, new.above = some p → h.Settled p) :
    Asked h name (h'.enlist name new) h'.channels.length := by
  have henlist := grows_enlist h' name new
  have grows := found.moves.grows.trans henlist
  have hnew := channel?_enlist h' name new
  have hnames := get?_names_enlist h' name new
  refine ⟨⟨⟨?_, fun {other m} hother => ?_, fun {m c p} hc hown hp => ?_, fun {other below} hother i hi => ?_⟩, grows,
    fun {other m} hproper hother => ?_, found.generation⟩, ⟨new, hnew, hkeeps⟩, fun _ => ?_, found.flags⟩
  · rw [grows.settled sound.settled_top]
    exact sound.top
  · rw [hnames] at hother
    split at hother
    · cases hother
      exact ⟨new, hnew, hkeeps⟩
    · rename_i hne
      exact grows.of_kept (sound.named ((found.named hne).1 hother))
  · obtain rfl | settled := eq_or_settled_of_enlist ⟨c, hc, .inr hown⟩
    · obtain rfl := Option.some.inj (hnew.symm.trans hc)
      exact ⟨Nat.lt_of_lt_of_le (habove p hp).lt found.moves.length, grows.of_settled (habove p hp)⟩
    · rw [henlist.settled settled, found.moves.settled (found.moves.plain settled)] at hc
      obtain ⟨hlt, hsettled⟩ := sound.above hc hown hp
      exact ⟨hlt, grows.of_settled hsettled⟩
  · rw [hnames] at hother
    split at hother
    · cases hother
    · obtain ⟨hlt, hnot⟩ := found.waiting hother i hi
      exact ⟨Nat.lt_of_lt_of_le hlt henlist.length, fun settled => hnot (henlist.unsettled hlt settled)⟩
  · have hne : name ≠ other := by
      rintro rfl
      obtain hname | hnone := hfree
      · rw [hproper] at hname
        cases hname
      · exact hnone m hother
    rw [hnames, if_neg hne]
    exact (found.named hne).2 hother
  · rw [hnames, if_pos rfl]

/-- Asking for a channel gives one of the program's own. The others stay as they are, and so does
everything that is above them. -/
theorem asked_own (sound : h.Sound) (name : String) (level : Int) (isTruth : Bool) :
    Asked h name (h.own name level isTruth).1 (h.own name level isTruth).2 := by
  -- Only the channel above all others is replaced each time it is asked for.
  by_cases hnamed : isTop name = false ∧ ∃ n, Dict.get? h.names name = some (.channel n)
  · obtain ⟨hname, n, hget⟩ := hnamed
    rw [own_of_named sound hname hget]
    exact ⟨⟨sound, Grows.refl h, fun _ hother => hother, rfl⟩, sound.named hget, fun _ => hget, rfl⟩
  · have hfree : isTop name = true ∨ ∀ n, Dict.get? h.names name ≠ some (.channel n) := by
      by_cases hname : isTop name = true
      · exact .inl hname
      · exact .inr fun n hget => hnamed ⟨Bool.eq_false_iff.2 hname, n, hget⟩
    have found := found_lookUp sound hfree
    obtain ⟨c, hc, hplain, habove⟩ := found.channel
    rw [own_of_plain hc hplain]
    refine asked_of_found sound hfree found (succeeding_keepsContext c level isTruth) ?_
    rw [succeeding_above]
    exact habove

/-- The program's channels are asked for at the start, and nobody has asked before. -/
theorem sound_initial : initial.Sound := by
  have hall : ∀ (names : List String) {h : Hub}, h.Sound → (names.foldl (fun h name => (h.own name).1) h).Sound := by
    intro names
    induction names with
    | nil => exact id
    | cons name rest ih => exact fun sound => ih (asked_own sound name _ _).sound
  refine hall ownNames ⟨⟨_, rfl, rfl, rfl⟩, nofun, fun {n c p} hc hkeeps _ => ?_, nofun⟩
  rw [channel?] at hc
  obtain rfl := List.mem_singleton.1 (List.mem_of_getElem? hc)
  cases hkeeps

/-! ## Changing levels -/

theorem channel?_setLevel (h : Hub) (n : Nat) (level : Int) (isTruth : Bool) (m : Nat) :
    (h.setLevel n level isTruth).channel? m =
      (h.channel? m).map fun c => if n = m then c.withLevel level isTruth else c := channel?_change ..

/-- Another level changes nothing about what is above what. -/
theorem sound_setLevel (sound : h.Sound) (n : Nat) (level : Int) (isTruth : Bool) :
    (h.setLevel n level isTruth).Sound := by
  have hback {m : Nat} {d : Channel} (hd : (h.setLevel n level isTruth).channel? m = some d) :
      ∃ c, h.channel? m = some c ∧ d.above = c.above ∧ d.keepsContext = c.keepsContext := by
    rw [channel?_setLevel, Option.map_eq_some_iff] at hd
    obtain ⟨c, hc, rfl⟩ := hd
    refine ⟨c, hc, ?_⟩
    split
    · exact ⟨rfl, rfl⟩
    · exact ⟨rfl, rfl⟩
  have hforth {m : Nat} {c : Channel} (hc : h.channel? m = some c) :
      ∃ d, (h.setLevel n level isTruth).channel? m = some d ∧ d.above = c.above ∧ d.keepsContext = c.keepsContext := by
    rw [channel?_setLevel, hc, Option.map_some]
    refine ⟨_, rfl, ?_⟩
    split
    · exact ⟨rfl, rfl⟩
    · exact ⟨rfl, rfl⟩
  have hlength : (h.setLevel n level isTruth).channels.length = h.channels.length := List.length_modify ..
  refine ⟨?_, fun hget => ?_, fun hd hkeeps hp => ?_, fun hget i hi => ?_⟩
  · obtain ⟨c, hc, habove, hplain⟩ := sound.top
    obtain ⟨d, hd, habove', hplain'⟩ := hforth hc
    exact ⟨d, hd, habove'.trans habove, hplain'.trans hplain⟩
  · obtain ⟨c, hc, hkeeps⟩ := sound.named hget
    obtain ⟨d, hd, -, hkeeps'⟩ := hforth hc
    exact ⟨d, hd, hkeeps'.trans hkeeps⟩
  · obtain ⟨c, hc, habove, hkeeps'⟩ := hback hd
    obtain ⟨hlt, c', hc', hown⟩ := sound.above hc (hkeeps'.symm.trans hkeeps) (habove.symm.trans hp)
    obtain ⟨d', hd', -, hkeeps''⟩ := hforth hc'
    exact ⟨hlt, d', hd', hown.imp_right hkeeps''.trans⟩
  · obtain ⟨hlt, hnot⟩ := sound.waiting hget i hi
    rw [hlength]
    refine ⟨hlt, fun ⟨d, hd, hown⟩ => hnot ?_⟩
    obtain ⟨c, hc, -, hkeeps⟩ := hback hd
    exact ⟨c, hc, hown.imp_right hkeeps.symm.trans⟩

theorem sound_bump (sound : h.Sound) : h.bump.Sound := ⟨sound.top, sound.named, sound.above, sound.waiting⟩

end NestLint.Hub
