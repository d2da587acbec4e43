import NestLint.Json.Basic
import NestLint.Text.Word

/-!
# Members of a family

A member has parents, and attributes that are values. It may also say which fields each thing of the
member has: the member then has something under the name of each field that is no value.

* `Member.admitted`: a member that can be declared, with its fields;
* `Member.fixedNames`, `Member.commonNames`: what every member has, whatever is declared.
-/

namespace NestLint

/-- A member of a family: its parents, and itself with all its ancestors in order. -/
structure Member where
  name : String
  parents : List Nat := []
  order : List Nat := []
  attributes : Dict Json := []
  /-- Names under which it has something that is no value. -/
  others : List String := []
  deriving Repr, Inhabited

/-- What keeps a member from being declared, or from being used for its registry. -/
inductive FamilyFault where
  /-- The name cannot be the name of a member. -/
  | badName
  /-- The full name is no text. -/
  | badTitle
  /-- The fields are not given as names. -/
  | badFields
  /-- A field has the name of an attribute. -/
  | takenField (name : String)
  /-- There is an attribute that no member can have. -/
  | reserved (name : String)
  /-- A parent is given twice. -/
  | repeated
  /-- The orders of the parents do not agree. -/
  | disagreement
  /-- An ancestor keeps something else where it would be told of new members. -/
  | unheard
  /-- The name to register under is no text. -/
  | keyNotText
  /-- There is no registry to use. -/
  | noRegistry
  /-- An operation is hidden behind something else of its name. -/
  | hidden (operation : String)
  /-- What should be a table is another value. -/
  | notTable
  /-- What should be a table is another value, and nothing can be put into it or looked up there. -/
  | notStore
  /-- A member would be put below one that it is above of. -/
  | circular
  deriving DecidableEq, Repr, Inhabited

namespace Member

/-- Whether a member itself has something under a name. -/
def has (m : Member) (key : String) : Bool := Dict.contains m.attributes key || m.others.contains key

/-- The attribute with the full name of a member. -/
def titleAttribute : String := "__qualname__"

/-- The attribute with the names of the fields. -/
def fieldsAttribute : String := "__slots__"

/-- What is told of new members. -/
def listener : String := "__init_subclass__"

/-- Attributes that no member can have. -/
def reservedNames : List String := ["__classcell__"]

/-- Fields that all things have, so that no member adds them. -/
def givenFields : List String := ["__dict__", "__weakref__"]

/-- What every member has of its own, and what is no value, whatever its attributes are. -/
def fixedNames : List String :=
  ["_abc_impl", "__abstractmethods__", "__base__", "__bases__", "__basicsize__", "__class__", "__dict__",
    "__dictoffset__", "__flags__", "__itemsize__", "__mro__", "__weakrefoffset__"]

/-- What every member has that does not hide it behind an attribute, and what is no value. -/
def commonNames : List String :=
  ["__call__", "__delattr__", "__dir__", "__eq__", "__format__", "__ge__", "__getattribute__", "__getstate__", "__gt__",
    "__hash__", "__init__", "__init_subclass__", "__instancecheck__", "__le__", "__lt__", "__ne__", "__new__",
    "__or__", "__prepare__", "__reduce__", "__reduce_ex__", "__repr__", "__ror__", "__setattr__", "__sizeof__",
    "__str__", "__subclasscheck__", "__subclasses__", "__subclasshook__", "__weakref__", "_abc_caches_clear",
    "_abc_registry_clear", "_dump_registry", "mro", "register"]

/-- Whether a text can be the name of a field. -/
def isFieldName (text : String) : Bool :=
  match text.toList with
  | [] => false
  | c :: rest => Text.isWordChar c && !Text.isDecimal c && rest.all Text.isWordChar

/-- The name under which a member has a field. One that starts with two low lines, and does not end
with two, is told apart from the fields of the same name in other members. -/
def fieldName (m : Member) (field : String) : String :=
  let owner := m.name.toList.dropWhile (· == '_')
  if "__".isPrefixOf field && !field.endsWith "__" && !owner.isEmpty then "_" ++ String.ofList owner ++ field else field

/-- The fields of a member. -/
def fields (m : Member) : Except FamilyFault (List String) := do
  let named : Json → Except FamilyFault String
    | .str field => if isFieldName field && !givenFields.contains field then .ok field else .error .badFields
    | _ => .error .badFields
  let given ← match Dict.get? m.attributes fieldsAttribute with
    | none => .ok []
    | some (.str field) => .ok [.str field]
    | some value => (value.parts?.map .ok).getD (.error .badFields)
  let fields := (← given.mapM named).map m.fieldName
  match fields.find? fun field => field != titleAttribute && Dict.contains m.attributes field with
  | some field => throw (.takenField field)
  | none => return fields

/-- The member with its fields, if it can be declared. -/
def admitted (m : Member) : Except FamilyFault Member := do
  let fields ← m.fields
  if m.name.contains '\x00' then throw .badName
  match Dict.get? m.attributes titleAttribute with
  | none | some (.str _) => pure ()
  | some _ => throw .badTitle
  match reservedNames.find? (Dict.contains m.attributes) with
  | some name => throw (.reserved name)
  | none => return { m with others := m.others ++ fields }

end Member

end NestLint
