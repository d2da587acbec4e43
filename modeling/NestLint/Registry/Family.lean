import NestLint.Registry.Ancestry
import NestLint.Registry.Basic
import NestLint.Registry.Member

/-!
# Families with registries

Members of a family are declared one after the other, each with parents. A member that has the top
of the family as a parent is a hub: it has a registry of its own, and everything declared below it
is registered there. A member that brings tables of its own uses those, but is no hub. What a member
has under the name of an operation hides the operation from everything below it.

The top is `Registrant`, declaring a member is what `Registry` does with a class, and the name of a
member is that of `keyof`.

* `Family.declare`: one member more;
* `Family.keyOf`: the name under which a member is registered, which it may have from an ancestor;
* `Family.holding`: the registry that a member uses.
-/

namespace NestLint

/-- The members by number, the first being the top, and the tables by the number of the member that
holds them. -/
structure Family (ℓ : Type) where
  members : List Member := []
  registries : List (Nat × Registry Nat ℓ) := []
  deriving Repr

/-- What a member has where it should have a table. -/
inductive TableOf where
  /-- The table of a member, of itself or of an ancestor. -/
  | holder (n : Nat)
  /-- A value that is no table. -/
  | value (found : Json)
  | nothing
  deriving Repr, Inhabited

namespace Family

variable {ℓ : Type}

/-- The member above all others. -/
def top : Nat := 0

/-- The attribute that says under which name a member is registered. -/
def keyAttribute : String := "registrant_name"

/-- The attribute that holds what is registered. -/
def registeredAttribute : String := "registry"

/-- The attribute that holds what is loaded later. -/
def pendingAttribute : String := "lazy_registry"

/-- The member with a number. -/
def member? (f : Family ℓ) (n : Nat) : Option Member := f.members[n]?

/-- The name of a member. -/
def nameOf (f : Family ℓ) (n : Nat) : String := ((f.member? n).map Member.name).getD ""

/-- A member with its ancestors. -/
def order (f : Family ℓ) (n : Nat) : List Nat := ((f.member? n).map Member.order).getD []

/-- Whether a member has a registry of its own. -/
def isHub (f : Family ℓ) (n : Nat) : Bool := (f.member? n).any fun m => m.parents.contains top

/-- What is declared under a name, in a member or else in its nearest ancestor with such a thing: a
value, or something that is none. -/
def declared? (f : Family ℓ) (n : Nat) (key : String) : Option (Option Json) :=
  (f.order n).findSome? fun i => (f.member? i).bind fun m =>
    if m.others.contains key then some none else (Dict.get? m.attributes key).map some

/-- The name under which a member is registered, if it is a value at all. -/
def keyOf (f : Family ℓ) (n : Nat) : Option Json := (f.declared? n keyAttribute).getD (some (.str (f.nameOf n)))

/-- An operation of a member can be used if it has it from the top, and not something else that
hides it. -/
def offers (f : Family ℓ) (n : Nat) (operation : String) : Except FamilyFault Unit :=
  if ((f.order n).takeWhile (· != top)).any fun i => (f.member? i).any (·.has operation) then
    .error (.hidden operation)
  else if (f.order n).contains top then .ok () else .error .noRegistry

/-- All of several operations can be used. -/
def offersAll (f : Family ℓ) (n : Nat) (operations : List String) : Except FamilyFault Unit :=
  operations.forM (f.offers n)

/-! ## Registries -/

/-- The tables that a member holds. -/
def tablesOf (f : Family ℓ) (n : Nat) : Registry Nat ℓ := (f.registries.lookup n).getD {}

/-- The family with the tables of a member changed. -/
def setTables (f : Family ℓ) (n : Nat) (r : Registry Nat ℓ) : Family ℓ :=
  { f with registries := (n, r) :: f.registries.filter (·.1 != n) }

/-- What a member uses as a table, the pending one or that of what is registered: what the nearest
has that has something under the name of the table. Hubs and the top hold a table; what else a
member has under the name is a table only if it is an object. -/
def table (f : Family ℓ) (pending : Bool) (n : Nat) : TableOf :=
  let key := if pending then pendingAttribute else registeredAttribute
  let found (i : Nat) : Option TableOf :=
    if f.isHub i || i == top then some (.holder i)
    else ((f.member? i).bind fun m => Dict.get? m.attributes key).map fun value =>
      if value.members?.isSome then .holder i else .value value
  ((f.order n).findSome? found).getD .nothing

/-- The registry that a member uses. What it does not use as a table is empty. -/
def holding (f : Family ℓ) (n : Nat) : Registry Nat ℓ :=
  let tables (pending : Bool) : Registry Nat ℓ := match f.table pending n with
    | .holder i => f.tablesOf i
    | _ => {}
  ⟨(tables false).registered, (tables true).pending⟩

/-- The family with the registry that a member uses changed, as far as it has tables. -/
def setRegistry (f : Family ℓ) (n : Nat) (r : Registry Nat ℓ) : Family ℓ :=
  let put (f : Family ℓ) (pending : Bool) (change : Registry Nat ℓ → Registry Nat ℓ) : Family ℓ :=
    match f.table pending n with
    | .holder i => f.setTables i (change (f.tablesOf i))
    | _ => f
  put (put f false fun t => { t with registered := r.registered }) true fun t => { t with pending := r.pending }

/-- The member that holds what is registered, for looking at all of it. -/
def registeredBy (f : Family ℓ) (n : Nat) : Except FamilyFault Nat :=
  match f.table false n with
  | .holder i => .ok i
  | .value _ => .error .notTable
  | .nothing => .error .noRegistry

/-- Something is taken out of the pending table before anything is registered or looked up. A list
has something of that name to do, but it does not do the same. -/
def canTake (f : Family ℓ) (n : Nat) : Except FamilyFault Unit :=
  match f.table true n with
  | .holder _ => .ok ()
  | .value (.list _) => .error .notStore
  | .value _ => .error .notTable
  | .nothing => .error .noRegistry

/-- Something is put into the table of what is registered, or looked up there. -/
def canStore (f : Family ℓ) (n : Nat) : Except FamilyFault Unit :=
  match f.table false n with
  | .holder _ => .ok ()
  | .value _ => .error .notStore
  | .nothing => .error .noRegistry

/-- The name under which a member is to be registered, if nothing keeps it from being registered. -/
def registeringKey (f : Family ℓ) (user n : Nat) : Except FamilyFault String := do
  f.offersAll user ["register", "keyof", "normalize_key"]
  match f.keyOf n with
  | some (.str key) =>
    f.canTake user
    return key
  | _ => throw .keyNotText

/-- Register a member in the registry that another one uses. One that is outside of the family uses
none, and takes anything that it is not below of. -/
def register (f : Family ℓ) (user n : Nat) : Family ℓ × Except FamilyFault Unit :=
  match f.offers user "register" with
  | .error .noRegistry =>
    (f, if user != n && (f.order user).contains n then .error .circular else .ok ())
  | _ =>
    match f.registeringKey user n with
    | .error fault => (f, .error fault)
    | .ok key => (f.setRegistry user ((f.holding user).register key n), f.canStore user)

/-- Register a member in several registries, up to the first that it cannot be registered in. -/
def registerAll (f : Family ℓ) (n : Nat) : List Nat → Family ℓ × Except FamilyFault Unit
  | [] => (f, .ok ())
  | user :: rest =>
    match f.register user n with
    | (f, .ok ()) => f.registerAll n rest
    | failed => failed

/-- The ancestors of a new member in order. -/
def ancestorsFor (f : Family ℓ) (m : Member) : Except FamilyFault (List Nat) := do
  if !decide m.parents.Nodup then throw .repeated
  match Ancestry.order? m.parents (m.parents.map f.order) with
  | none => throw .disagreement
  | some ancestors =>
    if ancestors.any fun i => (f.member? i).any (·.has Member.listener) then throw .unheard
    return ancestors

/-- Declare a member. It is registered in every hub above it; if that cannot be done, it stays in the
hubs where it was registered before. -/
def declare (f : Family ℓ) (m : Member) : Family ℓ × Except FamilyFault Nat :=
  match (do let m ← m.admitted; return (m, ← f.ancestorsFor m)) with
  | .error fault => (f, .error fault)
  | .ok (m, ancestors) =>
    let n := f.members.length
    let f := { f with members := f.members ++ [{ m with order := n :: ancestors }] }
    let (f, result) := f.registerAll n (ancestors.filter f.isHub)
    (f, result.map fun () => n)

/-- Several declarations after each other. -/
def declareAll (f : Family ℓ) (members : List Member) : Family ℓ :=
  members.foldl (fun f m => (f.declare m).1) f

/-- The operations that every member has from the top. -/
def operations : List String :=
  ["get", "find", "all", "filter", "register", "lazy_register", "keyof", "normalize_key"]

/-- The members that every program starts with: the top, the base of schemes, the hub of the lint
passes, and the pass for collapsible conditionals. -/
def initial : Family ℓ :=
  declareAll {}
    [{ name := "Registrant", others := "__doc__" :: "__annotations__" :: operations },
      { name := "Scheme",
        others := ["__doc__", "SchemeType", "accepts", "on_matched_item", "on_tree_iteration_start",
          "on_tree_iteration_end"] },
      { name := "LintPass", parents := [1, 0],
        others := ["__doc__", "__annotations__", "name", "is_candidate", "reject", "span_lint_and_sugg"] },
      { name := "CollapsibleIf", parents := [2],
        others := ["__doc__", "lint", "check_collapsible_no_if_let", "check_collapsible_else_if"] }]

/-! ## What members have -/

/-- What a member has under a name, null standing for nothing at all. It is none if there is
something that is no value. What is said about a member itself is never that of an ancestor. -/
def value? (f : Family ℓ) (n : Nat) (key : String) : Option Json :=
  let own (fallback : Json) : Option Json :=
    (f.member? n).bind fun m =>
      if m.others.contains key then none else some (Dict.getD m.attributes key fallback)
  let entries {α : Type} (t : Dict α) : Json := .object (t.map fun entry => (entry.1, .null))
  let used (pending : Bool) (shown : Registry Nat ℓ → Json) : Option Json := match f.table pending n with
    | .holder i => some (shown (f.tablesOf i))
    | .value value => some value
    | .nothing => some .null
  match key with
  | "__name__" => some (.str (f.nameOf n))
  | "__qualname__" => own (.str (f.nameOf n))
  | "__doc__" => own .null
  | "__annotations__" => own (.object [])
  | "__module__" => (f.member? n).bind fun m => Dict.get? m.attributes key
  | _ =>
    if Member.fixedNames.contains key then none
    else if key == registeredAttribute then used false fun t => entries t.registered
    else if key == pendingAttribute then used true fun t => entries t.pending
    else (f.declared? n key).getD (if Member.commonNames.contains key then none else some .null)

end Family

end NestLint
