import NestLint.Json.Fold
import NestLint.Json.Misfit
import NestLint.Registry.Roster

/-!
# Registries in documents

A document tells step by step which members are declared, what is registered, and what is looked up.
Members are called by labels, a member that is declared without one by its name.

* `Roster.perform`: one step;
* `FamilyFault.misfit?`: what is wrong with a member, as what is wrong with the values that describe it.
-/

namespace NestLint

/-- What is wrong with a member, as what is wrong with the values that describe it. -/
def FamilyFault.misfit? : FamilyFault → Option Misfit
  | .badName | .takenField _ => some .unknown
  | .badTitle | .badFields | .reserved _ | .repeated | .disagreement | .unheard | .hidden _ | .notStore =>
    some .wrongKind
  | .keyNotText | .noRegistry | .notTable => some .lacking
  | .circular => none

/-- What keeps a step from being performed. -/
inductive StepFault where
  | misfit (fault : Misfit)
  /-- What is to be loaded is not there. -/
  | notLoaded (target : Label)
  /-- A member would be put below one that it is above of. -/
  | circular
  deriving DecidableEq, Repr, Inhabited

namespace StepFault

/-- The text of a fault. -/
def message : StepFault → String
  | .misfit _ => ""
  | .notLoaded target => "cannot load " ++ target.shown
  | .circular => "Refusing to create an inheritance cycle"

/-- What keeps a step from being performed, by what is wrong with a member. -/
def ofFamily (fault : FamilyFault) : StepFault := (fault.misfit?.map misfit).getD circular

/-- What keeps a step from being performed, by what keeps the roster from being used. -/
def ofRoster : RosterFault → StepFault
  | .family fault => ofFamily fault
  | .unknown => misfit .missing
  | .notLoaded target => notLoaded target
  | .badTarget => misfit .wrongKind

end StepFault

namespace Roster

/-- A step of a roster. One that fails keeps what it has done up to then. -/
abbrev Step : Type → Type := ExceptT StepFault (StateM Roster)

/-- Something that has to fit. -/
def fitting {α : Type} (read : Fitting α) : Step α := liftM (read.mapError .misfit : Except StepFault α)

/-- Something that a family has to allow. -/
def allowed {α : Type} (result : Except FamilyFault α) : Step α :=
  liftM (result.mapError .ofFamily : Except StepFault α)

/-- The member that a value stands for. -/
def named (r : Roster) (value : Json) : Fitting Nat := do Misfit.missing.orElse (r.find? (← value.needLabel))

/-- The member that is called by what stands at `key`. -/
def memberAt (step : Json) (key : String) : Step Nat := do
  fitting ((← get).named (← fitting (step.need key)))

/-- A member has an operation, be it the one from the top or something that hides it. What is missing
in a step is noticed after that, and what hides an operation only when the operation is used. -/
def having (user : Nat) (operation : String) : Step Unit := do
  match (← get).family.offers user operation with
  | .error .noRegistry => allowed (.error .noRegistry)
  | _ => return ()

/-- The label at `key`, or a name. -/
def labelAt (step : Json) (key : String) (name : String) : Fitting Label :=
  ((step.get? key).getD (.str name)).needLabel

/-- Declare a member, and tell its ancestors. -/
def declaring (step : Json) : Step Json := do
  let bases ← fitting (do (← step.need "bases").needParts)
  let parents ← bases.mapM fun base => do fitting ((← get).named base)
  let name ← fitting (step.needText "name" .wrongKind)
  let attributes ← fitting (Misfit.wrongKind.orElse ((step.get? "attrs").getD (.object [])).members?)
  let (family, result) := (← get).family.declare { name, parents, attributes }
  modify fun r => { r with family }
  let n ← allowed result
  let label ← fitting (labelAt step "as" name)
  modify fun r => r.nameMember label n
  return Json.ofStrings ((← get).ancestry n)

/-- Look up a member by the name at `name`, with an operation of another one and those that it needs
itself. -/
def looking (step : Json) (user : Nat) (operation : String) (more : List String) : Step (Option Nat) := do
  having user operation
  let given ← fitting (step.need "name")
  allowed ((← get).family.offersAll user (operation :: more ++ ["normalize_key"]))
  let name ← fitting (Misfit.lacking.orElse given.str?)
  allowed ((← get).family.canTake user)
  let (r, result) := (← get).look user name
  set r
  match result with
  | .ok n => return some n
  | .error .unknown => return none
  | .error fault => throw (.ofRoster fault)

/-- Make a view of what is registered, and show it. -/
def viewing (step : Json) (user : Nat) : Step Json := do
  let r ← get
  having user "filter"
  let first ← fitting (step.need "attrs")
  allowed (r.family.offers user "filter")
  let holder ← allowed (r.family.registeredBy user)
  let more ← fitting (step.partsAt "then")
  let tests ← fitting ((first :: more).mapM fun test => Misfit.lacking.orElse test.members?)
  let view : View := tests.foldl View.restrict ⟨holder, []⟩
  let label ← fitting (labelAt step "as" "v")
  set (r.nameView label view)
  return .list [.str view.text, r.listing (view.members r.family)]

/-- What a member uses as its registry. -/
def telling (user : Nat) : Step Json := do
  let r ← get
  let holder ← allowed (r.family.registeredBy user)
  let entries := (r.family.tablesOf holder).registered.map fun entry => Json.list [.str entry.1, r.shown entry.2]
  let pending ← match r.family.table true user with
    | .holder i => pure (Json.ofStrings (Dict.keys (r.family.tablesOf i).pending))
    | .value value => Json.list <$> fitting value.needParts
    | .nothing => throw (.misfit .lacking)
  return .object [("registry", .list entries), ("lazy", pending)]

/-- Empty what a member uses as the table of what is registered. -/
def clearing (user : Nat) : Step Json := do
  let r ← get
  match r.family.table false user with
  | .value (.list _) => pure ()
  | _ => let _ ← allowed (r.family.registeredBy user)
  set { r with family := r.family.setRegistry user (r.family.holding user).clear }
  return .null

/-- Take a step with the registry of a member. -/
def acting (step : Json) (user : Nat) : Step Json := do
  let r ← get
  match step.textAt "do" with
  | "get" =>
    let found ← looking step user "get" []
    return r.shown (← fitting (Misfit.missing.orElse found))
  | "find" =>
    let found ← looking step user "find" ["get"]
    return (found.map r.shown).getD .null
  | "lazy" =>
    let name ← fitting (step.needText "name" .wrongKind)
    let target ← fitting (step.need "target")
    allowed (r.family.offersAll user ["lazy_register", "normalize_key"])
    set (← allowed (r.defer user name target))
    return .null
  | "all" =>
    allowed (r.family.offers user "all")
    return r.listing (r.family.tablesOf (← allowed (r.family.registeredBy user))).all
  | "register" =>
    let n ← memberAt step "class"
    let (family, result) := r.family.register user n
    set { r with family }
    allowed result
    return .null
  | "keyof" =>
    having user "keyof"
    let n ← memberAt step "class"
    allowed (r.family.offers user "keyof")
    return (← fitting (Misfit.wrongKind.orElse (r.family.keyOf n))).tagged
  | "clear" => clearing user
  | "filter" => viewing step user
  | "view" =>
    let view ← fitting (do Misfit.missing.orElse (r.view? (← labelAt step "as" "v")))
    return r.listing (view.members r.family)
  | _ => telling user

/-- One step, and what comes of it. -/
def taking (step : Json) : Step Json := do
  match step.textAt "do" with
  | "class" => declaring step
  | "normalize" => return .str (Registry.normalize (← fitting (step.needText "key" .lacking)))
  | _ => acting step (← memberAt step "hub")

/-- Perform a step: the roster after it, and what comes of it. -/
def perform (r : Roster) (step : Json) : Roster × Except StepFault Json :=
  let (result, r) := (taking step).run.run r
  (r, result)

end Roster

end NestLint
