import NestLint.Tree.Operator

/-!
# Concrete trees

What a parser of the grammar delivers: every token and every construct as a node with the type the
grammar gives it, its range in bytes, its flags, and the field that it fills in its parent. Ranges
count from the brace that wraps the text.

`_named` gives the parts, `_is_type_like` says which of them hold no expression, `_first_error`
finds the first fault, and `collect` finds the targets.

* `parts`: the named children that carry meaning;
* `targets`: the expressions found below a node when patterns, arms and other constructs are looked
  through;
* `targets_lt`: such an expression is smaller than the node.
-/

namespace NestLint

/-- A node of a concrete tree. -/
inductive Concrete where
  | mk (type : String) (start stop : Nat) (named isError missing hasError : Bool) (field : Option String)
    (children : List Concrete)
  deriving Repr, Inhabited

namespace Concrete

/-- The type that the grammar gives to the node. -/
def type : Concrete → String
  | mk t .. => t

/-- The first byte of the node. -/
def start : Concrete → Nat
  | mk _ n .. => n

/-- The byte behind the node. -/
def stop : Concrete → Nat
  | mk _ _ n .. => n

/-- Whether the node is a construct and not a mere token. -/
def named : Concrete → Bool
  | mk _ _ _ b .. => b

/-- Whether the node is text that the grammar could not place. -/
def isError : Concrete → Bool
  | mk _ _ _ _ b .. => b

/-- Whether the node was supplied by the parser and is not in the text. -/
def missing : Concrete → Bool
  | mk _ _ _ _ _ b .. => b

/-- Whether there is a syntax error at the node or below it. -/
def hasError : Concrete → Bool
  | mk _ _ _ _ _ _ b .. => b

/-- The field that the node fills in its parent. -/
def field : Concrete → Option String
  | mk _ _ _ _ _ _ _ f _ => f

/-- All children, tokens included. -/
def children : Concrete → List Concrete
  | mk _ _ _ _ _ _ _ _ cs => cs

/-! ## The types of the grammar -/

/-- Comments. -/
def commentTypes : List String := ["line_comment", "block_comment"]

/-- Attributes. -/
def attributeTypes : List String := ["attribute_item", "inner_attribute_item"]

/-- Literals. -/
def literalTypes : List String :=
  ["boolean_literal", "char_literal", "float_literal", "integer_literal", "raw_string_literal", "string_literal",
    "unit_expression"]

/-- Names of values. -/
def pathTypes : List String := ["identifier", "scoped_identifier", "self", "super", "crate", "metavariable"]

/-- Expressions that have a kind of node of their own, besides literals and names. -/
def shapedTypes : List String :=
  ["if_expression", "if_let_expression", "block", "binary_expression", "unary_expression", "reference_expression",
    "parenthesized_expression", "call_expression", "field_expression", "generic_function", "type_cast_expression",
    "assignment_expression", "compound_assignment_expr", "range_expression", "try_expression", "closure_expression",
    "macro_invocation"]

/-- Expressions without a kind of node of their own. -/
def otherTypes : List String :=
  ["array_expression", "async_block", "await_expression", "break_expression", "const_block", "continue_expression",
    "for_expression", "gen_block", "index_expression", "loop_expression", "match_expression", "return_expression",
    "struct_expression", "tuple_expression", "unsafe_block", "while_expression", "yield_expression"]

/-- Constructs that never hold an expression. -/
def barrenTypes : List String :=
  ["field_identifier", "label", "lifetime", "mutable_specifier", "type_arguments", "type_identifier",
    "type_parameters", "visibility_modifier"]

/-- Whether the node is a comment. -/
def isComment (c : Concrete) : Bool := commentTypes.contains c.type

/-- Whether the node carries meaning: it is a construct, no comment and no attribute. -/
def isPart (c : Concrete) : Bool := c.named && !c.isComment && !attributeTypes.contains c.type

/-- Whether nothing inside the node is an expression. -/
def isBarren (c : Concrete) : Bool := barrenTypes.contains c.type || "_type".toList.isSuffixOf c.type.toList

/-- Whether the node is an expression. -/
def isExpr (c : Concrete) : Bool :=
  shapedTypes.contains c.type || literalTypes.contains c.type || pathTypes.contains c.type || otherTypes.contains c.type

/-- The children that carry meaning. -/
def parts (c : Concrete) : List Concrete := c.children.filter isPart

/-- The first child that fills field `name`. -/
def child? (c : Concrete) (name : String) : Option Concrete := c.children.find? fun d => d.field == some name

/-- The first child of a type. -/
def childOfType? (c : Concrete) (type : String) : Option Concrete := c.children.find? fun d => d.type == type

mutual

/-- The expressions found below a node when everything that is no expression is looked through, in
order. -/
def targets : Concrete → List Concrete
  | mk _ _ _ _ _ _ _ _ cs => targetsIn cs

/-- The expressions found in a list of children. -/
def targetsIn : List Concrete → List Concrete
  | [] => []
  | c :: rest =>
    (if !c.isPart || c.isBarren then [] else if c.isExpr then [c] else targets c) ++ targetsIn rest

end

/-! ## Syntax errors -/

mutual

/-- The first place of a syntax error, a node before its children. Only children that report an
error are entered. -/
def firstError? : Concrete → Option Concrete
  | mk t start stop named isError missing hasError field cs =>
    if isError || missing then some (mk t start stop named isError missing hasError field cs) else firstErrorIn? cs

/-- The first place of a syntax error in a list of children. -/
def firstErrorIn? : List Concrete → Option Concrete
  | [] => none
  | c :: rest =>
    if c.hasError || c.missing then
      match firstError? c with
      | some found => some found
      | none => firstErrorIn? rest
    else firstErrorIn? rest

end

/-! ## Sizes -/

theorem sizeOf_lt_of_mem {c d : Concrete} (h : d ∈ c.children) : sizeOf d < sizeOf c := by
  obtain ⟨t, start, stop, named, isError, missing, hasError, field, cs⟩ := c
  have := List.sizeOf_lt_of_mem (show d ∈ cs from h)
  simp only [mk.sizeOf_spec]
  omega

theorem child?_lt {c d : Concrete} {name : String} (h : c.child? name = some d) : sizeOf d < sizeOf c :=
  sizeOf_lt_of_mem (List.mem_of_find?_eq_some h)

theorem childOfType?_lt {c d : Concrete} {type : String} (h : c.childOfType? type = some d) : sizeOf d < sizeOf c :=
  sizeOf_lt_of_mem (List.mem_of_find?_eq_some h)

theorem parts_lt {c d : Concrete} (h : d ∈ c.parts) : sizeOf d < sizeOf c := sizeOf_lt_of_mem (List.mem_filter.1 h).1

mutual

theorem targets_lt : ∀ (c : Concrete) {d : Concrete}, d ∈ c.targets → sizeOf d < sizeOf c
  | mk _ _ _ _ _ _ _ _ cs, d, h => by
    have := targetsIn_lt cs h
    simp only [mk.sizeOf_spec]
    omega

theorem targetsIn_lt : ∀ (cs : List Concrete) {d : Concrete}, d ∈ targetsIn cs → sizeOf d < sizeOf cs
  | [], d, h => by simp [targetsIn] at h
  | c :: rest, d, h => by
    simp only [targetsIn, List.mem_append] at h
    simp only [List.cons.sizeOf_spec]
    rcases h with h | h
    · split at h
      · simp at h
      · split at h
        · simp only [List.mem_singleton] at h; subst h; omega
        · have := targets_lt c h; omega
    · have := targetsIn_lt rest h; omega

end

end Concrete

end NestLint
