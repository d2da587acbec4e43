import NestLint.Lint.Document
import NestLint.Lint.Session
import NestLint.Proofs.Lint.Contexts
import NestLint.Proofs.Outcomes

/-!
# Which passes run

A pass is governed by the first rule for its key or, if there is none, by the first rule for the name of its lint. A
pass that no rule governs runs at the level of its lint. One whose rule is switched off does not run, whatever else the
rule says; one whose rule is switched on runs at the level that the rule asks for, if it asks for one, unless that is
the level at which nothing is reported.

The passes are chosen by `_instantiate_passes` of `LintDriver`, and the levels are read by `Level.parse`.

* `governor?`, `inForce?`, `running?`: the rule for a pass, its level, and the pass as it runs;
* `find?_eq`, `place_eq`: rules with a name, and what becomes of one pass;
* `Pass.OwnLint`: a pass that finds nothing of other lints than its own;
* `select_governed`: what becomes of all passes, and of their findings.
-/

namespace NestLint

/-! ## Rules -/

namespace Rule

/-- Whether a rule is for a name, whatever the case. -/
def isFor (r : Rule) (name : String) : Bool :=
  match r.name with
  | .str text => decide (Text.lower text = Text.lower name)
  | _ => false

/-- The rule has a text for a name or none, and its options are an object. -/
structure WellFormed (r : Rule) : Prop where
  name : r.name = .null ∨ ∃ text, r.name = .str text
  config : ∃ members, r.config = .object members

/-- The level that the options of the rule name, if they name one. -/
def named? (r : Rule) : Option Level :=
  match r.config.get? "level" with
  | some (.str text) => Level.ofText? text
  | _ => none

/-- What is wrong with the level in the options of the rule: it is no text, or one that names no level. -/
def levelFault? (r : Rule) : Option Fault :=
  match r.config.get? "level" with
  | some (.str text) => if (Level.ofText? text).isNone then some (.unknownLevel text) else none
  | some _ => some .levelNotText
  | none => none

theorem find?_eq {rules : List Rule} (h : ∀ r ∈ rules, r.WellFormed) (name : String) :
    find? rules name = .ok (rules.find? fun r => r.isFor name) := by
  induction rules with
  | nil => rfl
  | cons r rest ih =>
    have hrest := ih fun r hr => h r (List.mem_cons_of_mem _ hr)
    rw [find?, List.find?_cons, isFor]
    obtain hname | ⟨text, hname⟩ := (h r List.mem_cons_self).name
    · simp only [hname, hrest]
    · by_cases heq : Text.lower text = Text.lower name <;> simp [hname, heq, hrest]

theorem find?_of_ok {rules : List Rule} {name : String} {found : Option Rule} (h : find? rules name = .ok found) :
    rules.find? (fun r => r.isFor name) = found := by
  induction rules with
  | nil => exact Except.ok.inj h
  | cons r rest ih =>
    rw [find?] at h
    rw [List.find?_cons, isFor]
    split at h
    · rename_i hname
      simpa only [hname] using ih h
    · rename_i text hname
      by_cases heq : Text.lower text = Text.lower name
      · simpa [hname, heq] using h
      · rw [if_neg heq] at h
        simpa [hname, heq] using ih h
    · cases h

theorem level?_of_object {r : Rule} {members : Dict Json} (h : r.config = .object members) :
    r.level? = match r.levelFault? with
      | some fault => .error fault
      | none => .ok r.named? := by
  have hget : (Json.object members).get? "level" = Dict.get? members "level" := rfl
  simp only [level?, h, mentionsLevel, Dict.contains, levelFault?, named?, hget]
  cases hlevel : Dict.get? members "level" with
  | none => rfl
  | some value =>
    cases value with
    | str text =>
      cases htext : Level.ofText? text with
      | none =>
        simp [bind, Except.bind, htext]
        rfl
      | some level =>
        simp [bind, Except.bind, htext]
        rfl
    | _ => rfl

/-- A level that is found is the one that the options name, and nothing is wrong with it. -/
theorem level?_of_ok {r : Rule} {level : Option Level} (h : r.level? = .ok level) :
    r.levelFault? = none ∧ level = r.named? := by
  cases hconfig : r.config with
  | object members =>
    rw [level?_of_object hconfig] at h
    split at h
    · cases h
    · rename_i hnone
      exact ⟨hnone, (Except.ok.inj h).symm⟩
  | _ =>
    have hget : r.config.get? "level" = none := by rw [hconfig]; rfl
    simp only [levelFault?, named?, hget, true_and]
    rw [level?] at h
    cases hmentions : mentionsLevel r.config with
    | error fault =>
      rw [hmentions] at h
      cases h
    | ok mentioned =>
      rw [hmentions] at h
      cases mentioned with
      | false => exact (Except.ok.inj h).symm
      | true =>
        rw [hconfig] at h
        cases h

end Rule

/-! ## One pass -/

/-- The pass as it runs at a level: as it is declared, but for the level of its lint. At the level at which nothing is
reported it does not run. -/
def Pass.runningAt? (p : Pass) (level : Level) : Option Pass :=
  if level = .allow then none else some { p with lint := { p.lint with level } }

theorem Pass.runningAt?_getD (p : Pass) (level : Option Level) :
    (if (p.atLevel level).lint.level = .allow then none else some (p.atLevel level)) =
      p.runningAt? (level.getD p.lint.level) := by
  cases level <;> rfl

namespace Session

/-- The rule for a pass: the first for its key or, if there is none, the first for the name of its lint. -/
def governor? (rules : List Rule) (p : Pass) : Option Rule :=
  (rules.find? fun r => r.isFor p.key).or (rules.find? fun r => r.isFor p.lint.name)

/-- The level in force for a pass, unless its rule is switched off. -/
def inForce? (rules : List Rule) (p : Pass) : Option Level :=
  match governor? rules p with
  | none => some p.lint.level
  | some r => if r.isActivated.truthy then some (r.named?.getD p.lint.level) else none

/-- What is wrong with the rule for a pass, which is looked at only if it is switched on. -/
def trouble? (rules : List Rule) (p : Pass) : Option Rule.Fault :=
  (governor? rules p).bind fun r => if r.isActivated.truthy then r.levelFault? else none

/-- The pass as it runs, if it does. -/
def running? (rules : List Rule) (p : Pass) : Option Pass := (inForce? rules p).bind p.runningAt?

section

variable {rules : List Rule} {p : Pass} {r : Rule}

theorem mem_of_governor? (h : governor? rules p = some r) : r ∈ rules := by
  rw [governor?, Option.or_eq_some_iff] at h
  obtain h | ⟨-, h⟩ := h
  · exact List.mem_of_find?_eq_some h
  · exact List.mem_of_find?_eq_some h

theorem governingRule_eq (h : ∀ r ∈ rules, r.WellFormed) (p : Pass) :
    governingRule rules p = .ok (governor? rules p) := by
  rw [governingRule, Rule.find?_eq h, governor?]
  cases hkey : rules.find? fun r => r.isFor p.key with
  | none => exact Rule.find?_eq h _
  | some r => rfl

theorem governor?_of_ok {found : Option Rule} (h : governingRule rules p = .ok found) : governor? rules p = found := by
  rw [governingRule] at h
  cases hkey : Rule.find? rules p.key with
  | error fault =>
    rw [hkey] at h
    cases h
  | ok byKey =>
    rw [hkey] at h
    rw [governor?, Rule.find?_of_ok hkey]
    cases byKey with
    | none => exact Rule.find?_of_ok h
    | some r => exact Except.ok.inj h

/-- What is noted about a pass that is switched off. -/
def offNote (p : Pass) : Note := .info Note.sessionChannel ("Lint pass " ++ p.lint.name ++ " is deactivated")

theorem place_ungoverned (h : governingRule rules p = .ok none) :
    place rules p = .ok ([], p.runningAt? p.lint.level) := by
  rw [place, h]
  rfl

theorem place_off (h : governingRule rules p = .ok (some r)) (hoff : r.isActivated.truthy = false) :
    place rules p = .ok ([offNote p], none) := by
  simp only [place, h, bind, Except.bind, hoff]
  rfl

theorem place_on (h : governingRule rules p = .ok (some r)) (hon : r.isActivated.truthy = true) :
    place rules p = r.level?.map fun level => ([], p.runningAt? (level.getD p.lint.level)) := by
  simp only [place, h, bind, Except.bind, hon]
  cases r.level? with
  | error fault => rfl
  | ok level =>
    show Except.ok ([], if (p.atLevel level).lint.level = .allow then none else some (p.atLevel level)) = _
    rw [Pass.runningAt?_getD]
    rfl

/-- What becomes of a pass under rules whose parts are of the right kinds. -/
theorem place_eq (h : ∀ r ∈ rules, r.WellFormed) (p : Pass) :
    (place rules p).map Prod.snd = match trouble? rules p with
      | some fault => .error fault
      | none => .ok (running? rules p) := by
  have hgoverning := governingRule_eq h p
  rw [trouble?, running?, inForce?]
  cases hgovernor : governor? rules p with
  | none =>
    rw [hgovernor] at hgoverning
    rw [place_ungoverned hgoverning]
    rfl
  | some r =>
    rw [hgovernor] at hgoverning
    obtain ⟨members, hconfig⟩ := (h r (mem_of_governor? hgovernor)).config
    cases hactivated : r.isActivated.truthy with
    | false =>
      rw [place_off hgoverning hactivated]
      simp [hactivated, Except.map]
    | true =>
      rw [place_on hgoverning hactivated, Rule.level?_of_object hconfig]
      cases hfault : r.levelFault? <;> simp [hactivated, hfault, Except.map]

/-- Whatever the parts of the rules are: if a pass can be placed, nothing is wrong with its rule, and it runs as it
should. -/
theorem place_of_ok {notes : List Note} {placed : Option Pass} (h : place rules p = .ok (notes, placed)) :
    trouble? rules p = none ∧ placed = running? rules p := by
  cases hgoverning : governingRule rules p with
  | error fault =>
    rw [place, hgoverning] at h
    cases h
  | ok found =>
    rw [trouble?, running?, inForce?, governor?_of_ok hgoverning]
    cases found with
    | none =>
      rw [place_ungoverned hgoverning] at h
      cases h
      exact ⟨rfl, rfl⟩
    | some r =>
      cases hactivated : r.isActivated.truthy with
      | false =>
        rw [place_off hgoverning hactivated] at h
        cases h
        simp [hactivated]
      | true =>
        rw [place_on hgoverning hactivated] at h
        cases hlevel : r.level? with
        | error fault =>
          rw [hlevel] at h
          cases h
        | ok level =>
          rw [hlevel] at h
          cases h
          obtain ⟨hfault, rfl⟩ := Rule.level?_of_ok hlevel
          simp [hactivated, hfault]

/-! ## All passes -/

theorem snd_select (rules : List Rule) (passes : List Pass) : (select rules passes).2 = (placeAll rules passes).2 := by
  rw [select]
  split <;> simp_all

theorem snd_placeAll_cons (p : Pass) (rest : List Pass) : (placeAll rules (p :: rest)).2 =
    match (place rules p).map Prod.snd with
    | .error fault => .error fault
    | .ok placed => (placeAll rules rest).2.map (placed.toList ++ ·) := by
  rw [placeAll]
  cases place rules p with
  | error fault => rfl
  | ok outcome => rfl

theorem snd_placeAll (h : ∀ r ∈ rules, r.WellFormed) (passes : List Pass) : (placeAll rules passes).2 =
    match passes.findSome? (trouble? rules) with
    | some fault => .error fault
    | none => .ok (passes.filterMap (running? rules)) := by
  induction passes with
  | nil => rfl
  | cons p rest ih =>
    rw [snd_placeAll_cons, place_eq h, List.findSome?_cons, List.filterMap_cons, ih]
    cases trouble? rules p with
    | some fault => rfl
    | none =>
      cases rest.findSome? (trouble? rules) with
      | some fault => rfl
      | none => cases running? rules p <;> rfl

theorem placeAll_of_ok {passes selected : List Pass} (h : (placeAll rules passes).2 = .ok selected) :
    passes.findSome? (trouble? rules) = none ∧ selected = passes.filterMap (running? rules) := by
  induction passes generalizing selected with
  | nil => exact ⟨rfl, (Except.ok.inj h).symm⟩
  | cons p rest ih =>
    rw [snd_placeAll_cons] at h
    cases hplace : place rules p with
    | error fault =>
      rw [hplace] at h
      cases h
    | ok outcome =>
      obtain ⟨notes, placed⟩ := outcome
      obtain ⟨htrouble, rfl⟩ := place_of_ok hplace
      cases hrest : (placeAll rules rest).2 with
      | error fault =>
        rw [hplace, hrest] at h
        cases h
      | ok others =>
        rw [hplace, hrest] at h
        obtain ⟨hothers, rfl⟩ := ih hrest
        rw [List.findSome?_cons, htrouble, List.filterMap_cons]
        refine ⟨hothers, (Except.ok.inj h).symm.trans ?_⟩
        cases running? rules p <;> rfl

/-! ## Rules that are switched off -/

/-- The rule with other options, if it is switched off. -/
def changedOff (change : Rule → Json) (r : Rule) : Rule :=
  if r.isActivated.truthy then r else { r with config := change r }

theorem name_changedOff (change : Rule → Json) (r : Rule) : (changedOff change r).name = r.name := by
  rw [changedOff]
  split <;> rfl

theorem isActivated_changedOff (change : Rule → Json) (r : Rule) :
    (changedOff change r).isActivated = r.isActivated := by
  rw [changedOff]
  split <;> rfl

theorem find?_changedOff (change : Rule → Json) (rules : List Rule) (name : String) :
    Rule.find? (rules.map (changedOff change)) name = (Rule.find? rules name).map (Option.map (changedOff change)) := by
  induction rules with
  | nil => rfl
  | cons r rest ih =>
    rw [List.map_cons, Rule.find?, Rule.find?, name_changedOff, ih]
    split
    · rfl
    · split <;> rfl
    · rfl

theorem governingRule_changedOff (change : Rule → Json) (rules : List Rule) (p : Pass) :
    governingRule (rules.map (changedOff change)) p =
      (governingRule rules p).map (Option.map (changedOff change)) := by
  rw [governingRule, governingRule, find?_changedOff, find?_changedOff]
  cases Rule.find? rules p.key with
  | error fault => rfl
  | ok found => cases found <;> rfl

theorem place_changedOff (change : Rule → Json) (rules : List Rule) (p : Pass) :
    place (rules.map (changedOff change)) p = place rules p := by
  have hchanged := governingRule_changedOff change rules p
  cases hgoverning : governingRule rules p with
  | error fault =>
    rw [hgoverning] at hchanged
    rw [place, place, hchanged, hgoverning]
    rfl
  | ok found =>
    rw [hgoverning] at hchanged
    cases found with
    | none => rw [place_ungoverned hgoverning, place_ungoverned hchanged]
    | some r =>
      cases hactivated : r.isActivated.truthy with
      | false => rw [place_off hgoverning hactivated, place_off hchanged (isActivated_changedOff change r ▸ hactivated)]
      | true =>
        have hsame : changedOff change r = r := if_pos hactivated
        rw [Except.map, Option.map_some, hsame] at hchanged
        rw [place_on hgoverning hactivated, place_on hchanged hactivated]

theorem select_changedOff (change : Rule → Json) (rules : List Rule) (passes : List Pass) :
    select (rules.map (changedOff change)) passes = select rules passes := by
  have hall : placeAll (rules.map (changedOff change)) passes = placeAll rules passes := by
    induction passes with
    | nil => rfl
    | cons p rest ih => rw [placeAll, placeAll, place_changedOff, ih]
  rw [select, select, hall]

end

end Session

/-! ## What the passes report -/

namespace Pass

/-- Whatever the handler finds is of the lint that it is given. -/
def OwnLint (p : Pass) : Prop :=
  ∀ lint source number site captures d, (p.handle lint source number site captures).2 = .result (.diagnostic d) →
    d.lint = lint

theorem ownLint_collapsibleIf : collapsibleIf.OwnLint := by
  intro lint source number site captures d hreply
  obtain ⟨h, hhandle, hsettles⟩ := Collapsible.settles_handle lint source number site captures
  rw [show collapsibleIf.handle lint source number site captures = _ from hhandle] at hreply
  obtain ⟨guard, told, reply⟩ | ⟨found, told, reply, own⟩ | ⟨fault, missing, told, reply⟩ := hsettles
  · cases reply.symm.trans hreply
  · cases reply.symm.trans hreply
    exact own
  · cases reply.symm.trans hreply

/-- Whatever a declared pass finds is of the lint that it is given. -/
theorem lint_of_behave {j : Json} {lint : Lint} {site : Site} {d : Diagnostic}
    (h : (behave j lint site).2 = .result (.diagnostic d)) : d.lint = lint := by
  simp only [behave] at h
  split at h
  · cases h
  · cases h
  · split at h <;> cases h
  · split at h
    · cases h
      rfl
    · cases h
  · cases h

theorem ownLint_ofDocument {j : Json} {p : Pass} (h : (ofDocument j).2 = .ok p) : p.OwnLint := by
  intro lint source number site captures d hreply
  obtain ⟨patterns, -, h⟩ := bind_eq_ok_iff.1 h
  obtain ⟨own, -, h⟩ := bind_eq_ok_iff.1 h
  obtain ⟨⟨title, key⟩, -, h⟩ := bind_eq_ok_iff.1 h
  cases h
  exact lint_of_behave hreply

end Pass

namespace Session

variable {rules : List Rule} {passes : List Pass} {context : Context} {root : Node} {source : SourceText} {sink : Sink}
  {d : Diagnostic}

/-- All that is found comes from the handler of a pass, with the lint that the pass runs with. -/
theorem handled_of_mem_check (h : d ∈ (check passes context root source sink).1) :
    ∃ p ∈ passes, ∃ number site captures,
      (p.handle p.lint source number site captures).2 = .result (.diagnostic d) := by
  rw [findings_check, List.mem_flatMap] at h
  obtain ⟨site, -, h⟩ := h
  obtain ⟨p, hp, h⟩ := List.mem_flatMap.1 h
  obtain ⟨f, hf, hd⟩ := List.mem_filterMap.1 h
  obtain ⟨number, captures, hreply⟩ := Scheme.mem_results hf
  cases f with
  | value v => cases hd
  | diagnostic found =>
    obtain rfl := Option.some.inj hd
    exact ⟨p, hp, number, site, captures, hreply⟩

theorem running?_eq_some {p q : Pass} (h : running? rules p = some q) :
    ∃ level, inForce? rules p = some level ∧ level ≠ .allow ∧ q = { p with lint := { p.lint with level } } := by
  obtain ⟨level, hlevel, h⟩ := Option.bind_eq_some_iff.1 h
  rw [Pass.runningAt?] at h
  split at h
  · cases h
  · rename_i hreports
    exact ⟨level, hlevel, hreports, (Option.some.inj h).symm⟩

theorem lint_of_mem_check (h : d ∈ (check (passes.filterMap (running? rules)) context root source sink).1) :
    ∃ p ∈ passes, ∃ level, inForce? rules p = some level ∧ level ≠ .allow ∧
      (∃ number site captures,
        (p.handle { p.lint with level } source number site captures).2 = .result (.diagnostic d)) ∧
      (p.OwnLint → d.lint = { p.lint with level }) := by
  obtain ⟨q, hq, number, site, captures, hreply⟩ := handled_of_mem_check h
  obtain ⟨p, hp, hrunning⟩ := List.mem_filterMap.1 hq
  obtain ⟨level, hlevel, hreports, rfl⟩ := running?_eq_some hrunning
  exact ⟨p, hp, level, hlevel, hreports, ⟨number, site, captures, hreply⟩, fun hown => hown _ _ _ _ _ _ hreply⟩

/-- Under rules of the right kinds the passes that run are, in order, those that are in force above the level at which
nothing is reported, unless something is wrong with the rule for a pass: then the first such fault is all there is.
Whatever the rules are, only those passes run. Their handlers are given the lint as it is declared, but at the level in
force, and that is the lint of all that is found by the known passes and by those that documents declare. What a rule
says that is switched off makes no difference. -/
theorem select_governed (rules : List Rule) (passes : List Pass) :
    ((∀ r ∈ rules, r.WellFormed) → (select rules passes).2 = match passes.findSome? (trouble? rules) with
      | some fault => .error fault
      | none => .ok (passes.filterMap (running? rules))) ∧
    (∀ selected, (select rules passes).2 = .ok selected →
      passes.findSome? (trouble? rules) = none ∧ selected = passes.filterMap (running? rules) ∧
      ∀ context root source sink, ∀ d ∈ (check selected context root source sink).1,
        ∃ p ∈ passes, ∃ level, inForce? rules p = some level ∧ level ≠ .allow ∧
          (∃ number site captures,
            (p.handle { p.lint with level } source number site captures).2 = .result (.diagnostic d)) ∧
          (p.OwnLint → d.lint = { p.lint with level })) ∧
    collapsibleIf.OwnLint ∧ (∀ j p, (Pass.ofDocument j).2 = .ok p → p.OwnLint) ∧
    (∀ change : Rule → Json, select (rules.map (changedOff change)) passes = select rules passes) := by
  refine ⟨fun hrules => ?_, fun selected hselected => ?_, Pass.ownLint_collapsibleIf,
    fun j p => Pass.ownLint_ofDocument, fun change => select_changedOff change rules passes⟩
  · rw [snd_select, snd_placeAll hrules]
  · rw [snd_select] at hselected
    obtain ⟨htrouble, rfl⟩ := placeAll_of_ok hselected
    exact ⟨htrouble, rfl, fun context root source sink d hd => lint_of_mem_check hd⟩

/-- A rule for the name of the lint is passed over because a later one is for the key of the pass, and a rule that is
switched off may ask for a level that does not exist. -/
theorem select_governed_shadowed :
    let rule (name level : String) (on : Bool) : Rule := ⟨.str name, .bool on, .object [("level", .str level)]⟩
    let rules : List Rule :=
      [rule "collapsible_if" "allow" true, rule "RAISING" "loud" false, rule "COLLAPSIBLEIF" "Deny" true,
        rule "collapsibleif" "allow" true]
    let strict : Pass := { collapsibleIf with lint := { Collapsible.lint with level := .deny } }
    (∀ r ∈ rules, r.WellFormed) ∧ (select rules [raisingPass, collapsibleIf]).2 = .ok [strict] ∧
      (∀ d ∈ (check [strict] [] nestedTree nestedText .silent).1, d.lint.level = .deny) ∧
      (select [rule "raising" "loud" true] [collapsibleIf, raisingPass]).2 = .error (.unknownLevel "loud") := by
  intro rule rules strict
  have hrule (name level : String) (on : Bool) : (rule name level on).WellFormed := ⟨.inr ⟨name, rfl⟩, _, rfl⟩
  have hrules : ∀ r ∈ rules, r.WellFormed := by simp [rules, hrule]
  have hselect : (select rules [raisingPass, collapsibleIf]).2 = .ok [strict] :=
    ((select_governed rules _).1 hrules).trans rfl
  refine ⟨hrules, hselect, fun d hd => ?_, ((select_governed _ _).1 (by simp [hrule])).trans rfl⟩
  obtain ⟨p, hp, level, hlevel, -, -, hown⟩ :=
    ((select_governed rules _).2.1 _ hselect).2.2 [] nestedTree nestedText .silent d hd
  obtain rfl | rfl : p = raisingPass ∨ p = collapsibleIf := by simpa using hp
  · cases hlevel
  · cases hlevel
    exact congrArg Lint.level (hown Pass.ownLint_collapsibleIf)

end Session

end NestLint
