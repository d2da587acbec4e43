import NestLint.Proofs.Log.Lineage

/-!
# Flags are never out of date

A flag keeps its answer until levels have changed, which one number tells for all flags and all
channels. That is enough. Asking for a channel changes no answer that a flag may have kept, and a
flag that is found out makes its own channel first if there is none. A channel that is given a
level changes the answers of all channels below it, and makes all kept answers old. A name that is
no level's changes nothing.

The flags are `LevelFlag`s, channels are asked for by `getLogger`, and levels are given by
`set_level`.

* `Hub.tells`: the answer without any flag;
* `Hub.Current`: what makes a kept answer right;
* `Flagged.performAll`: channels are asked for, levels are given, and flags are found out, in any
  order;
* `Flagged.test_answer`: every flag tells what its channel would answer.
-/

namespace NestLint

namespace Hub

variable {h h' : Hub}

/-! ## Answers -/

/-- Whether the program's own channel with a name is enabled for a level. -/
def tells (h : Hub) (name : String) (level : Int) : Bool := (h.own name).1.isEnabled (h.own name).2 level

theorem tells_of_named (sound : h.Sound) {name : String} (hname : isTop name = false) {n : Nat}
    (hget : Dict.get? h.names name = some (.channel n)) (level : Int) : h.tells name level = h.isEnabled n level := by
  rw [tells, own_of_named sound hname hget]

/-- What replaces the channel above all others has a level of its own. -/
theorem tells_of_isTop {name : String} (hname : isTop name = true) {c : Channel} (hc : h.channel? top = some c)
    (hplain : c.keepsContext = false) (level : Int) :
    h.tells name level = (decide (0 < level) && decide ((succeeding c defaultLevel false).level ≤ level)) := by
  have hlevel : (succeeding c defaultLevel false).level ≠ Note.inheritedLevel := by
    rw [succeeding]
    split
    · rename_i hle
      exact Int.ne_of_gt (Int.lt_of_lt_of_le (by decide) hle)
    · exact (by decide : defaultLevel ≠ Note.inheritedLevel)
  have hown : h.own name = (h.enlist name (succeeding c defaultLevel false), h.channels.length) := by
    have hlook := lookUp_of_isTop hname h
    rw [own_of_plain (by rw [hlook]; exact hc) hplain, hlook]
  rw [tells, hown, isEnabled, effectiveLevel_of_level (channel?_enlist ..) hlevel]

/-- The answer does not change when other channels are asked for. -/
theorem Extends.tells (sound : h.Sound) (more : h.Extends h') {name : String} (held : h.Held name) (level : Int) :
    h'.tells name level = h.tells name level := by
  by_cases hname : isTop name = true
  · obtain ⟨c, hc, -, hplain⟩ := sound.top
    rw [tells_of_isTop hname hc hplain,
      tells_of_isTop hname ((more.grows.settled sound.settled_top).trans hc) hplain]
  · have hname := Bool.eq_false_iff.2 hname
    obtain ⟨m, hget⟩ := held.resolve_left fun htop => by rw [hname] at htop; cases htop
    rw [tells_of_named sound hname hget, tells_of_named more.sound hname (more.named hname hget),
      more.grows.isEnabled sound (sound.named hget).settled]

theorem Extends.held (more : h.Extends h') {name : String} (held : h.Held name) : h'.Held name := by
  by_cases hname : isTop name = true
  · exact .inl hname
  · obtain ⟨m, hget⟩ := held.resolve_left hname
    exact .inr ⟨m, more.named (Bool.eq_false_iff.2 hname) hget⟩

/-- A channel that has been asked for gives the same answer when it is asked for again. -/
theorem tells_own (sound : h.Sound) (name : String) (level : Int) :
    (h.own name).1.Held name ∧ (h.own name).1.tells name level = h.tells name level := by
  have asked := asked_own sound name defaultLevel false
  by_cases hname : isTop name = true
  · exact ⟨.inl hname, asked.toExtends.tells sound (.inl hname) level⟩
  · have hget := asked.owned (Bool.eq_false_iff.2 hname)
    exact ⟨.inr ⟨_, hget⟩, tells_of_named asked.sound (Bool.eq_false_iff.2 hname) hget level⟩

/-! ## Kept answers -/

/-- No answer is from a time to come, and one of this time is right. -/
structure Current (h : Hub) (f : LevelFlag) : Prop where
  past : ∀ {generation}, f.generation = some generation → generation ≤ h.generation
  held : f.generation = some h.generation → h.Held f.channel
  answer : f.generation = some h.generation → f.answer = h.tells f.channel f.level

/-- A flag that has not been found out yet keeps no answer. -/
theorem current_of_new (h : Hub) {f : LevelFlag} (hnew : f.generation = none) : h.Current f := by
  refine ⟨?_, ?_, ?_⟩
  all_goals
    rw [hnew]
    nofun

theorem Current.of_extends (sound : h.Sound) (more : h.Extends h') {f : LevelFlag} (current : h.Current f) :
    h'.Current f := by
  refine ⟨?_, ?_, ?_⟩
  all_goals rw [more.generation]
  · exact current.past
  · exact fun hnow => more.held (current.held hnow)
  · intro hnow
    rw [more.tells sound (current.held hnow)]
    exact current.answer hnow

/-- When levels have changed, all answers are old. -/
theorem Current.bump {f : LevelFlag}
    (past : ∀ {generation}, f.generation = some generation → generation ≤ h.generation) : h.bump.Current f := by
  have hold : f.generation ≠ some h.bump.generation := fun hnow =>
    absurd (past hnow) (Int.not_le.2 (Int.lt_succ h.generation))
  exact ⟨fun hthen => Int.le_trans (past hthen) (Int.le_of_lt (Int.lt_succ h.generation)), fun hnow => absurd hnow hold,
    fun hnow => absurd hnow hold⟩

/-- A flag tells what its channel would answer. -/
theorem Current.test {f : LevelFlag} (current : h.Current f) : (h.test f).2.answer = h.tells f.channel f.level := by
  rw [Hub.test]
  split
  · rename_i hnow
    exact current.answer hnow
  · rfl

/-! ## Steps -/

/-- All kept answers stay right, and the flags that belong to channels are the same as before. -/
structure Preserves (h h' : Hub) : Prop where
  sound : h'.Sound
  current : ∀ {f}, h.Current f → h'.Current f
  flags : h'.flags = h.flags

theorem preserves_own (sound : h.Sound) (name : String) (level : Int) (isTruth : Bool) :
    h.Preserves (h.own name level isTruth).1 := by
  have asked := asked_own sound name level isTruth
  exact ⟨asked.sound, Current.of_extends sound asked.toExtends, asked.flags⟩

/-- A flag that is found out keeps a right answer from then on. -/
theorem preserves_test (sound : h.Sound) {f : LevelFlag} (current : h.Current f) :
    h.Preserves (h.test f).1 ∧ (h.test f).1.Current (h.test f).2 := by
  rw [Hub.test]
  split
  · exact ⟨⟨sound, id, rfl⟩, current⟩
  · obtain ⟨held, hanswer⟩ := tells_own sound f.channel f.level
    refine ⟨preserves_own sound f.channel defaultLevel false, fun hthen => ?_, fun _ => held, fun _ => hanswer.symm⟩
    obtain rfl := Option.some.inj hthen
    exact Int.le_refl _

/-- Wherever a level is changed, no answer is kept that it could make wrong. -/
theorem preserves_setLevel? (sound : h.Sound) {name levelName : String} (hset : h.setLevel? name levelName = some h') :
    h.Preserves h' := by
  rw [setLevel?, Option.map_eq_some_iff] at hset
  obtain ⟨level, -, rfl⟩ := hset
  have asked := asked_own sound name level false
  refine ⟨sound_bump (sound_setLevel asked.sound _ _ _), fun current => Current.bump fun hthen => ?_, asked.flags⟩
  exact Int.le_trans (current.past hthen) (Int.le_of_eq asked.generation.symm)

/-- The flags that belong to channels are of no account for what is told. -/
theorem extends_flags (sound : h.Sound) (flags : List ((Nat × Int) × LevelFlag)) : h.Extends { h with flags } where
  sound := ⟨sound.top, sound.named, sound.above, sound.waiting⟩
  grows := ⟨Nat.le_refl _, fun _ => rfl, fun _ settled => settled⟩
  named _ hget := hget
  generation := rfl

/-- The flag that belongs to a channel, or a new one. -/
def ownFlag (h : Hub) (n : Nat) (level : Int) : LevelFlag :=
  match h.flags.find? fun entry => entry.1 == (n, level) with
  | some (_, flag) => flag
  | none => { channel := ((h.channel? n).map Channel.name).getD "", level }

theorem testOwn_eq (h : Hub) (n : Nat) (level : Int) : h.testOwn n level =
    ({ (h.test (h.ownFlag n level)).1 with
        flags := (h.test (h.ownFlag n level)).1.flags.filter (fun entry => entry.1 != (n, level)) ++
          [((n, level), (h.test (h.ownFlag n level)).2)] },
      (h.test (h.ownFlag n level)).2.answer) := rfl

theorem preserves_testOwn (sound : h.Sound) (hall : ∀ entry ∈ h.flags, h.Current entry.2) (n : Nat) (level : Int) :
    (h.testOwn n level).1.Sound ∧ (∀ {f}, h.Current f → (h.testOwn n level).1.Current f) ∧
      ∀ entry ∈ (h.testOwn n level).1.flags, (h.testOwn n level).1.Current entry.2 := by
  have hflag : h.Current (h.ownFlag n level) := by
    rw [ownFlag]
    split
    · rename_i key flag hfind
      exact hall _ (List.mem_of_find?_eq_some hfind)
    · exact current_of_new h rfl
  obtain ⟨tested, hnew⟩ := preserves_test sound hflag
  rw [testOwn_eq]
  have more := extends_flags tested.sound ((h.test (h.ownFlag n level)).1.flags.filter
    (fun entry => entry.1 != (n, level)) ++ [((n, level), (h.test (h.ownFlag n level)).2)])
  have hkeep {f : LevelFlag} (current : (h.test (h.ownFlag n level)).1.Current f) :=
    Current.of_extends tested.sound more current
  refine ⟨more.sound, fun current => hkeep (tested.current current), fun entry hentry => hkeep ?_⟩
  obtain hold | hlast := List.mem_append.1 hentry
  · have hmem := (List.mem_filter.1 hold).1
    rw [tested.flags] at hmem
    exact tested.current (hall entry hmem)
  · obtain rfl := List.mem_singleton.1 hlast
    exact hnew

end Hub

/-! ## Any order -/

/-- A hub, and the flags that belong to none of its channels. -/
structure Flagged where
  hub : Hub := .initial
  flags : List LevelFlag := []

namespace Flagged

/-- What is done with channels and flags. -/
inductive Deed where
  /-- A channel is asked for, at a level if it is new. -/
  | ask (name : String) (level : Int) (isTruth : Bool)
  /-- A channel is given the level with a name. -/
  | setLevel (name levelName : String)
  /-- There is one more flag. -/
  | flag (channel : String) (level : Int)
  /-- The truth of a flag is wanted. -/
  | test (place : Nat)
  /-- The truth of the flag that belongs to a channel is wanted. -/
  | testOwn (name : String) (level : Int)

/-- All flags. -/
def all (s : Flagged) : List LevelFlag := s.flags ++ s.hub.flags.map Prod.snd

/-- What comes of a deed, and what is reported if it goes wrong. -/
def perform (s : Flagged) : Deed → Flagged × Option String
  | .ask name level isTruth => ({ s with hub := (s.hub.own name level isTruth).1 }, none)
  | .setLevel name levelName =>
    match s.hub.setLevel? name levelName with
    | some hub => ({ s with hub }, none)
    | none => (s, some (Note.unknownLevelMessage levelName))
  | .flag channel level => ({ s with flags := s.flags ++ [{ channel, level }] }, none)
  | .test place =>
    match s.flags[place]? with
    | some f => ({ hub := (s.hub.test f).1, flags := s.flags.set place (s.hub.test f).2 }, none)
    | none => (s, none)
  | .testOwn name level =>
    let (hub, n) := s.hub.own name
    ({ s with hub := (hub.testOwn n level).1 }, none)

/-- What comes of several deeds, whether or not some of them go wrong. -/
def performAll (s : Flagged) (deeds : List Deed) : Flagged := deeds.foldl (fun s deed => (s.perform deed).1) s

/-- All answers that are kept are right. -/
structure Sound (s : Flagged) : Prop where
  hub : s.hub.Sound
  loose : ∀ f ∈ s.flags, s.hub.Current f
  own : ∀ entry ∈ s.hub.flags, s.hub.Current entry.2

variable {s : Flagged}

theorem Sound.current (sound : s.Sound) : ∀ f ∈ s.all, s.hub.Current f := by
  intro f hf
  obtain hf | hf := List.mem_append.1 hf
  · exact sound.loose f hf
  · obtain ⟨entry, hentry, rfl⟩ := List.mem_map.1 hf
    exact sound.own entry hentry

theorem Sound.of_preserves (sound : s.Sound) {h : Hub} (kept : s.hub.Preserves h) {flags : List LevelFlag}
    (hflags : ∀ f ∈ flags, f ∈ s.flags ∨ h.Current f) : Sound { hub := h, flags } where
  hub := kept.sound
  loose f hf := (hflags f hf).elim (fun hold => kept.current (sound.loose f hold)) id
  own entry hentry := kept.current (sound.own entry (by rwa [← kept.flags]))

theorem perform_testOwn (s : Flagged) (name : String) (level : Int) : (s.perform (.testOwn name level)).1 =
    { s with hub := ((s.hub.own name).1.testOwn (s.hub.own name).2 level).1 } := rfl

theorem sound_perform (sound : s.Sound) (deed : Deed) : (s.perform deed).1.Sound := by
  cases deed with
  | ask name level isTruth =>
    exact sound.of_preserves (Hub.preserves_own sound.hub name level isTruth) fun f hf => .inl hf
  | setLevel name levelName =>
    rw [perform]
    split
    · rename_i hub hset
      exact sound.of_preserves (Hub.preserves_setLevel? sound.hub hset) fun f hf => .inl hf
    · exact sound
  | flag channel level =>
    refine sound.of_preserves ⟨sound.hub, id, rfl⟩ fun f hf => (List.mem_append.1 hf).imp_right fun hnew => ?_
    obtain rfl := List.mem_singleton.1 hnew
    exact Hub.current_of_new _ rfl
  | test place =>
    rw [perform]
    split
    · rename_i f hf
      obtain ⟨kept, hnew⟩ := Hub.preserves_test sound.hub (sound.loose f (List.mem_of_getElem? hf))
      refine sound.of_preserves kept fun g hg => (List.mem_or_eq_of_mem_set hg).imp_right ?_
      rintro rfl
      exact hnew
    · exact sound
  | testOwn name level =>
    have asked := Hub.preserves_own sound.hub name Hub.defaultLevel false
    have hall : ∀ entry ∈ (s.hub.own name).1.flags, (s.hub.own name).1.Current entry.2 := by
      intro entry hentry
      rw [asked.flags] at hentry
      exact asked.current (sound.own entry hentry)
    obtain ⟨htested, hkept, hown⟩ := Hub.preserves_testOwn asked.sound hall (s.hub.own name).2 level
    rw [perform_testOwn]
    exact ⟨htested, fun f hf => hkept (asked.current (sound.loose f hf)), hown⟩

theorem sound_performAll (sound : s.Sound) (deeds : List Deed) : (s.performAll deeds).Sound := by
  induction deeds generalizing s with
  | nil => exact sound
  | cons deed rest ih => exact ih (sound_perform sound deed)

theorem sound_start : Sound {} where
  hub := Hub.sound_initial
  loose := nofun
  own := by
    have hnone : Hub.initial.flags = [] := by decide +kernel
    rw [hnone]
    nofun

theorem perform_setLevel_of_unknown {levelName : String} (hlevel : Note.levelNamed? levelName = none) (s : Flagged)
    (name : String) : s.perform (.setLevel name levelName) = (s, some (Note.unknownLevelMessage levelName)) := by
  have hset : s.hub.setLevel? name levelName = none := by rw [Hub.setLevel?, hlevel, Option.map_none]
  rw [perform, hset]

theorem perform_setLevel_of_known {levelName : String} {level : Int} (hlevel : Note.levelNamed? levelName = some level)
    (s : Flagged) (name : String) : (s.perform (.setLevel name levelName)).2 = none := by
  obtain ⟨hub, hset⟩ : ∃ hub, s.hub.setLevel? name levelName = some hub := by
    rw [Hub.setLevel?, hlevel, Option.map_some]
    exact ⟨_, rfl⟩
  rw [perform, hset]

/-- Whatever has been done, every flag tells what its channel would answer without it. Giving a
channel a level goes wrong exactly if no level has the name, and then nothing changes. -/
theorem test_answer (deeds : List Deed) :
    (∀ f ∈ (performAll {} deeds).all, ((performAll {} deeds).hub.test f).2.answer =
      (performAll {} deeds).hub.tells f.channel f.level) ∧
    ∀ name levelName, ((performAll {} deeds).perform (.setLevel name levelName)).2 =
        (if (Note.levelNamed? levelName).isSome then none else some (Note.unknownLevelMessage levelName)) ∧
      (((performAll {} deeds).perform (.setLevel name levelName)).2.isSome →
        ((performAll {} deeds).perform (.setLevel name levelName)).1 = performAll {} deeds) := by
  have sound := sound_performAll sound_start deeds
  refine ⟨fun f hf => (sound.current f hf).test, fun name levelName => ?_⟩
  cases hlevel : Note.levelNamed? levelName with
  | none =>
    rw [perform_setLevel_of_unknown hlevel]
    exact ⟨rfl, fun _ => rfl⟩
  | some level =>
    rw [perform_setLevel_of_known hlevel]
    exact ⟨rfl, nofun⟩

/-- A flag on a channel without a level of its own, found out before the channel above gets another
level. -/
theorem test_answer_inherited :
    ∃ deeds f, deeds = [.ask "IfCollapse.lints.else" 0 false, .flag "IfCollapse.lints.else" 10, .test 0,
        .setLevel "IfCollapse.lints" "debug"] ∧
      f ∈ (performAll {} deeds).all ∧ f.answer = false ∧ ((performAll {} deeds).hub.test f).2.answer = true ∧
      ((performAll {} deeds).perform (.setLevel "IfCollapse.lints" "loud")).2 = some "Unknown logging level: loud" ∧
      ((performAll {} deeds).perform (.setLevel "IfCollapse.lints" "loud")).1 = performAll {} deeds := by
  have hright := test_answer [.ask "IfCollapse.lints.else" 0 false, .flag "IfCollapse.lints.else" 10, .test 0,
    .setLevel "IfCollapse.lints" "debug"]
  refine ⟨_, { channel := "IfCollapse.lints.else", level := 10, generation := some 0, answer := false }, rfl, ?hmem,
    rfl, (hright.1 _ ?hmem).trans ?_, (hright.2 "IfCollapse.lints" "loud").1.trans ?_,
    (hright.2 "IfCollapse.lints" "loud").2 ?_⟩
  · decide +kernel
  · decide +kernel
  · decide +kernel
  · decide +kernel

end Flagged

end NestLint
