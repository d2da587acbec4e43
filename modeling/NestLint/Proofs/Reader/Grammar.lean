import Mathlib.Data.List.Perm.Basic
import NestLint.Proofs.Reader.Weave

/-!
# Conditionals in concrete trees

Where an expression may stand in a concrete tree is said by a walk that passes through everything but
comments, attributes, types, the text of macros, and the patterns of bindings and closures. The rules
do not walk: each picks the children in certain fields. That this is the same thing rests on the
grammar, which says what fills the fields of a construct, and it fails at one place, the block of a
`let` with `else`.

* `inside`, `conditionals`: the walk and what it finds;
* `lowered`, `hidden`: what it finds outside and inside the blocks of `let` with `else`;
* `Regular`, `Grammatical`: what the grammar guarantees;
* `entered_perm`: the fields of a construct against the walk.
-/

namespace NestLint

namespace Concrete

/-! ## The walk -/

/-- The fields of a construct that hold a pattern, a type or the name of a field. -/
def skippedFields : String → List String
  | "if_let_expression" => ["pattern"]
  | "closure_expression" => ["parameters", "return_type"]
  | "type_cast_expression" => ["type"]
  | "field_expression" => ["field"]
  | _ => []

/-- Whether the walk passes into a child, if these fields are skipped. -/
def enters (skipped : List String) (d : Concrete) : Bool := d.isPart && !d.isBarren && !d.field.any skipped.contains

/-- The children that the walk passes into, if these fields are skipped. -/
def entered (skipped : List String) (c : Concrete) : List Concrete := c.children.filter (enters skipped)

/-- A `let` that is the condition of an `if` is passed through, its pattern left out. -/
def throughLet (d : Concrete) : List Concrete :=
  if d.type = "let_condition" && d.field == some "condition" then d.entered ["pattern"] else [d]

/-- A binding in a block is passed through, its pattern and its type left out. -/
def throughBinding (d : Concrete) : List Concrete :=
  if d.type = "let_declaration" then d.entered ["pattern", "type"] else [d]

/-- Where the walk goes on from a node. In a block these are the statements. -/
def inside (c : Concrete) : List Concrete :=
  if c.type = "block" then (c.parts.filter fun d => d.type != "label").flatMap throughBinding
  else if c.type = "macro_invocation" then []
  else if c.type = "if_expression" then (c.entered []).flatMap throughLet
  else c.entered (skippedFields c.type)

theorem entered_lt {skipped : List String} {c d : Concrete} (h : d ∈ c.entered skipped) : sizeOf d < sizeOf c :=
  sizeOf_lt_of_mem (List.mem_filter.1 h).1

theorem throughLet_le {d e : Concrete} (h : e ∈ throughLet d) : sizeOf e ≤ sizeOf d := by
  rw [throughLet] at h
  split at h
  · exact Nat.le_of_lt (entered_lt h)
  · exact Nat.le_of_eq (congrArg sizeOf (List.mem_singleton.1 h))

theorem throughBinding_le {d e : Concrete} (h : e ∈ throughBinding d) : sizeOf e ≤ sizeOf d := by
  rw [throughBinding] at h
  split at h
  · exact Nat.le_of_lt (entered_lt h)
  · exact Nat.le_of_eq (congrArg sizeOf (List.mem_singleton.1 h))

theorem inside_lt {c d : Concrete} (h : d ∈ c.inside) : sizeOf d < sizeOf c := by
  unfold inside at h
  split at h
  · obtain ⟨e, he, h⟩ := List.mem_flatMap.1 h
    exact Nat.lt_of_le_of_lt (throughBinding_le h) (parts_lt (List.mem_filter.1 he).1)
  · split at h
    · cases h
    · split at h
      · obtain ⟨e, he, h⟩ := List.mem_flatMap.1 h
        exact Nat.lt_of_le_of_lt (throughLet_le h) (entered_lt he)
      · exact entered_lt h

/-- The node itself if it is a conditional. -/
def own (c : Concrete) : List Concrete := if c.isConditional then [c] else []

/-- The conditionals below a node, each before those inside it. -/
def conditionalsBelow (c : Concrete) : List Concrete :=
  c.inside.attach.flatMap fun d => own d.1 ++ conditionalsBelow d.1
termination_by sizeOf c
decreasing_by exact inside_lt d.2

/-- Whether a node is the block of a `let` with `else`, if the walk goes on there from a block. -/
def isLetElse (c d : Concrete) : Bool := c.type == "block" && d.field == some "alternative"

/-- The conditionals below a node that stand in no block of a `let` with `else`. -/
def loweredBelow (c : Concrete) : List Concrete :=
  c.inside.attach.flatMap fun d => if isLetElse c d.1 then [] else own d.1 ++ loweredBelow d.1
termination_by sizeOf c
decreasing_by exact inside_lt d.2

/-- The conditionals below a node that stand in a block of a `let` with `else`. -/
def hidden (c : Concrete) : List Concrete :=
  c.inside.attach.flatMap fun d => if isLetElse c d.1 then own d.1 ++ conditionalsBelow d.1 else hidden d.1
termination_by sizeOf c
decreasing_by exact inside_lt d.2

/-- A node and the conditionals below it that stand in no block of a `let` with `else`. -/
def lowered (c : Concrete) : List Concrete := own c ++ loweredBelow c

theorem conditionalsBelow_eq (c : Concrete) :
    c.conditionalsBelow = c.inside.flatMap fun d => own d ++ conditionalsBelow d := by
  rw [conditionalsBelow, List.flatMap_subtype, List.unattach_attach]
  intro d _
  rfl

theorem loweredBelow_eq (c : Concrete) :
    c.loweredBelow = c.inside.flatMap fun d => if isLetElse c d then [] else lowered d := by
  rw [loweredBelow, List.flatMap_subtype, List.unattach_attach]
  intro d _
  rfl

theorem hidden_eq (c : Concrete) :
    c.hidden = c.inside.flatMap fun d => if isLetElse c d then own d ++ conditionalsBelow d else hidden d := by
  rw [hidden, List.flatMap_subtype, List.unattach_attach]
  intro d _
  rfl

/-- Outside of blocks nothing is hidden by the node itself. -/
theorem loweredBelow_of_ne {c : Concrete} (h : c.type ≠ "block") :
    c.loweredBelow = c.inside.flatMap lowered := by
  have hnone : ∀ d, isLetElse c d = false := by
    intro d
    rw [isLetElse, beq_eq_false_iff_ne.2 h]
    rfl
  rw [loweredBelow_eq]
  refine List.flatMap_congr fun d _ => ?_
  rw [hnone]
  rfl

/-- Every conditional below a node is lowered or hidden. -/
theorem conditionalsBelow_perm (c : Concrete) : c.conditionalsBelow.Perm (c.loweredBelow ++ c.hidden) := by
  rw [conditionalsBelow_eq, loweredBelow_eq, hidden_eq]
  refine .trans ?_ (List.flatMap_append_perm _ _ _).symm
  refine List.Perm.flatMap_left _ fun d hd => ?_
  have ih := conditionalsBelow_perm d
  cases isLetElse c d with
  | true => exact .refl _
  | false =>
    show (own d ++ conditionalsBelow d).Perm (own d ++ loweredBelow d ++ hidden d)
    rw [List.append_assoc]
    exact ih.append_left _
termination_by sizeOf c
decreasing_by exact inside_lt hd

/-! ## What the grammar guarantees -/

/-- The fields that hold the expressions of a construct, if it is read field by field. -/
def exprFields : String → Option (List String)
  | "if_expression" => some ["condition", "consequence", "alternative"]
  | "if_let_expression" => some ["value", "consequence", "alternative"]
  | "binary_expression" | "assignment_expression" | "compound_assignment_expr" => some ["left", "right"]
  | "call_expression" => some ["function", "arguments"]
  | "field_expression" | "type_cast_expression" | "reference_expression" => some ["value"]
  | "generic_function" => some ["function"]
  | "closure_expression" => some ["body"]
  | _ => none

/-- A node without children that is no conditional, such as a `_` in place of an expression. -/
def isHollow (d : Concrete) : Bool := d.children.isEmpty && !d.isConditional

/-- All that the walk passes into fills one of these fields, each field is filled at most once, and the
walk passes into what fills it unless that is hollow. -/
structure FilledBy (c : Concrete) (skipped fields : List String) : Prop where
  named : ∀ d ∈ c.entered skipped, ∃ f ∈ fields, d.field = some f
  entered : ∀ f ∈ fields, ∀ d ∈ c.children, d.field = some f → enters skipped d || d.isHollow
  once : ∀ f ∈ fields, (c.children.filter fun d => d.field == some f).length ≤ 1

/-- The constructs that consist of one part. -/
def singleTypes : List String :=
  ["expression_statement", "parenthesized_expression", "try_expression", "unary_expression", "else_clause"]

/-- What the grammar guarantees of a node and its children, as far as the rules rely on it. -/
structure Regular (c : Concrete) : Prop where
  /-- Constructs that are read field by field. -/
  fields : ∀ fields ∈ exprFields c.type, c.FilledBy (skippedFields c.type) fields
  /-- The condition of an `if let`. -/
  letCondition : c.type = "let_condition" → c.FilledBy ["pattern"] ["value"]
  binding : c.type = "let_declaration" → c.FilledBy ["pattern", "type"] ["value", "alternative"]
  /-- Constructs of one part. -/
  single : c.type ∈ singleTypes → c.parts.length ≤ 1
  /-- Their parts, and arguments, are expressions. -/
  exprs : c.type ∈ "arguments" :: singleTypes → ∀ d ∈ c.parts, d.isBarren = false
  /-- The bounds of a range are expressions, no more than one on either side. -/
  range : c.type = "range_expression" →
    (∀ d ∈ c.children, (d.named && !d.isComment) = (enters [] d && !Reader.rangeSigns.contains d.type)) ∧
      ((Reader.rangeBounds false c.children).map Prod.snd).Pairwise (· ≠ ·)
  /-- Literals and names hold no conditional. -/
  text : c.type ∈ literalTypes ++ pathTypes → c.loweredBelow = []
  body : c.isConditional → ∀ d ∈ c.children, d.field = some "consequence" → d.type = "block"
  orElse : c.isConditional → ∀ d ∈ c.children, d.field = some "alternative" → d.type = "else_clause"
  arguments : c.type = "call_expression" → ∀ d ∈ c.children, d.field = some "arguments" → d.type = "arguments"
  /-- Statements fill no field. -/
  statements : c.type = "block" → ∀ d ∈ c.children, d.field = none
  emptyStatement : c.type = "empty_statement" → c.parts = []

section Decidable

instance (c : Concrete) (skipped fields : List String) : Decidable (c.FilledBy skipped fields) :=
  decidable_of_iff
    ((∀ d ∈ c.entered skipped, ∃ f ∈ fields, d.field = some f) ∧
      (∀ f ∈ fields, ∀ d ∈ c.children, d.field = some f → enters skipped d || d.isHollow) ∧
      ∀ f ∈ fields, (c.children.filter fun d => d.field == some f).length ≤ 1)
    ⟨fun h => ⟨h.1, h.2.1, h.2.2⟩, fun h => ⟨h.named, h.entered, h.once⟩⟩

instance (c : Concrete) : Decidable c.Regular :=
  decidable_of_iff
    ((∀ fields ∈ exprFields c.type, c.FilledBy (skippedFields c.type) fields) ∧
      (c.type = "let_condition" → c.FilledBy ["pattern"] ["value"]) ∧
      (c.type = "let_declaration" → c.FilledBy ["pattern", "type"] ["value", "alternative"]) ∧
      (c.type ∈ singleTypes → c.parts.length ≤ 1) ∧
      (c.type ∈ "arguments" :: singleTypes → ∀ d ∈ c.parts, d.isBarren = false) ∧
      (c.type = "range_expression" →
        (∀ d ∈ c.children, (d.named && !d.isComment) = (enters [] d && !Reader.rangeSigns.contains d.type)) ∧
          ((Reader.rangeBounds false c.children).map Prod.snd).Pairwise (· ≠ ·)) ∧
      (c.type ∈ literalTypes ++ pathTypes → c.loweredBelow = []) ∧
      (c.isConditional → ∀ d ∈ c.children, d.field = some "consequence" → d.type = "block") ∧
      (c.isConditional → ∀ d ∈ c.children, d.field = some "alternative" → d.type = "else_clause") ∧
      (c.type = "call_expression" → ∀ d ∈ c.children, d.field = some "arguments" → d.type = "arguments") ∧
      (c.type = "block" → ∀ d ∈ c.children, d.field = none) ∧
      (c.type = "empty_statement" → c.parts = []))
    ⟨fun ⟨fields, letCondition, binding, single, exprs, range, text, body, orElse, arguments, statements, empty⟩ =>
        ⟨fields, letCondition, binding, single, exprs, range, text, body, orElse, arguments, statements, empty⟩,
      fun h => ⟨h.fields, h.letCondition, h.binding, h.single, h.exprs, h.range, h.text, h.body, h.orElse,
        h.arguments, h.statements, h.emptyStatement⟩⟩

end Decidable

mutual

/-- A node and all nodes below it. -/
def subtrees : Concrete → List Concrete
  | mk type start stop named isError missing hasError field cs =>
    mk type start stop named isError missing hasError field cs :: subtreesIn cs

/-- The nodes of several trees. -/
def subtreesIn : List Concrete → List Concrete
  | [] => []
  | c :: rest => subtrees c ++ subtreesIn rest

end

/-- The grammar's guarantees hold of a node and of all nodes below it. -/
def Grammatical (c : Concrete) : Prop := ∀ d ∈ c.subtrees, d.Regular

instance (c : Concrete) : Decidable c.Grammatical := inferInstanceAs (Decidable (∀ d ∈ c.subtrees, d.Regular))

theorem mem_subtreesIn {c d : Concrete} {cs : List Concrete} (hd : d ∈ c.subtrees) (hc : c ∈ cs) :
    d ∈ subtreesIn cs := by
  induction cs with
  | nil => cases hc
  | cons e rest ih =>
    rw [subtreesIn, List.mem_append]
    obtain rfl | hc := List.mem_cons.1 hc
    · exact .inl hd
    · exact .inr (ih hc)

theorem mem_subtrees_self (c : Concrete) : c ∈ c.subtrees := by
  cases c
  exact List.mem_cons_self

namespace Grammatical

variable {c : Concrete}

theorem regular (h : c.Grammatical) : c.Regular := h c c.mem_subtrees_self

theorem child (h : c.Grammatical) {d : Concrete} (hd : d ∈ c.children) : d.Grammatical := by
  intro e he
  refine h e ?_
  cases c
  exact List.mem_cons_of_mem _ (mem_subtreesIn he hd)

end Grammatical

/-! ## Fields against the walk -/

theorem mem_of_child? {c d : Concrete} {f : String} (h : c.child? f = some d) :
    d ∈ c.children ∧ d.field = some f := by
  have hfield := List.find?_some (show (c.children.find? fun d => d.field == some f) = some d from h)
  exact ⟨List.mem_of_find?_eq_some h, eq_of_beq hfield⟩

/-- What fills one of several fields is what fills the first one and what fills one of the others. -/
theorem filter_fields_perm (cs : List Concrete) : ∀ {fields : List String}, fields.Nodup →
    (cs.filter fun d => fields.any fun f => d.field == some f).Perm
      (fields.flatMap fun f => cs.filter fun d => d.field == some f)
  | [], _ => by
    rw [List.flatMap_nil, List.filter_eq_nil_iff.2 fun d _ => by rw [List.any_nil]; exact Bool.false_ne_true]
  | f :: rest, hnodup => by
    obtain ⟨hf, hrest⟩ := List.nodup_cons.1 hnodup
    have hsplit := List.filter_append_perm (fun d : Concrete => d.field == some f)
      (cs.filter fun d => (f :: rest).any fun f => d.field == some f)
    rw [List.filter_filter, List.filter_filter] at hsplit
    have hfirst : (cs.filter fun d => (d.field == some f) && (f :: rest).any fun f => d.field == some f) =
        cs.filter fun d => d.field == some f := by
      refine List.filter_congr fun d _ => ?_
      rw [List.any_cons, Bool.and_or_distrib_left, Bool.and_self, Bool.or_eq_left_iff_imp]
      exact fun h => (Bool.and_eq_true_iff.1 h).1
    have hothers : (cs.filter fun d => !(d.field == some f) && (f :: rest).any fun f => d.field == some f) =
        cs.filter fun d => rest.any fun f => d.field == some f := by
      refine List.filter_congr fun d _ => ?_
      rw [List.any_cons, Bool.and_or_distrib_left, Bool.not_and_self, Bool.false_or, Bool.and_eq_right_iff_imp]
      intro hany
      obtain ⟨g, hg, heq⟩ := List.any_eq_true.1 hany
      rw [Bool.not_eq_true', beq_eq_false_iff_ne, eq_of_beq heq]
      rintro ⟨⟩
      exact hf hg
    rw [hfirst, hothers] at hsplit
    rw [List.flatMap_cons]
    exact hsplit.symm.trans ((filter_fields_perm cs hrest).append_left _)

theorem toList_child?_of_once {c : Concrete} {f : String}
    (h : (c.children.filter fun d => d.field == some f).length ≤ 1) :
    (c.children.filter fun d => d.field == some f) = (c.child? f).toList := by
  rw [child?, ← List.head?_filter]
  generalize (c.children.filter fun d => d.field == some f) = ds at h
  match ds, h with
  | [], _ => rfl
  | [_], _ => rfl

/-- The walk passes into just what fills the fields of a construct, but for what is hollow. -/
theorem entered_perm {c : Concrete} {skipped fields : List String} (h : c.FilledBy skipped fields)
    (hnodup : fields.Nodup) :
    (c.entered skipped).Perm ((fields.flatMap fun f => (c.child? f).toList).filter (enters skipped)) := by
  have hentered : c.entered skipped =
      (c.children.filter fun d => fields.any fun f => d.field == some f).filter (enters skipped) := by
    rw [List.filter_filter]
    refine List.filter_congr fun d hd => Bool.eq_iff_iff.2 ⟨fun henters => ?_, fun hboth => ?_⟩
    swap
    · exact (Bool.and_eq_true_iff.1 hboth).1
    obtain ⟨f, hf, hfield⟩ := h.named d (List.mem_filter.2 ⟨hd, henters⟩)
    exact Bool.and_eq_true_iff.2 ⟨henters, List.any_eq_true.2 ⟨f, hf, beq_iff_eq.2 hfield⟩⟩
  rw [hentered]
  refine ((filter_fields_perm c.children hnodup).trans (.of_eq ?_)).filter _
  exact List.flatMap_congr fun f hf => toList_child?_of_once (h.once f hf)

/-- What is found behind the walk is found behind the fields, if there is nothing behind what is hollow. -/
theorem flatMap_entered_perm {c : Concrete} {skipped fields : List String} (found : Concrete → List Concrete)
    (h : c.FilledBy skipped fields) (hnodup : fields.Nodup) (hollow : ∀ d : Concrete, d.isHollow → found d = []) :
    ((c.entered skipped).flatMap found).Perm (fields.flatMap fun f => (c.child? f).toList.flatMap found) := by
  rw [← List.flatMap_assoc]
  refine ((entered_perm h hnodup).flatMap_right _).trans (.of_eq ?_)
  -- What the walk does not pass into adds nothing.
  have hall : ∀ d ∈ fields.flatMap fun f => (c.child? f).toList, enters skipped d || d.isHollow := by
    intro d hd
    obtain ⟨f, hf, hd⟩ := List.mem_flatMap.1 hd
    obtain ⟨hmem, hfield⟩ := mem_of_child? (Option.mem_toList.1 hd)
    exact h.entered f hf d hmem hfield
  generalize (fields.flatMap fun f => (c.child? f).toList) = ds at hall
  induction ds with
  | nil => rfl
  | cons d rest ih =>
    have ih := ih fun e he => hall e (.tail _ he)
    rw [List.filter_cons, List.flatMap_cons]
    cases henters : enters skipped d with
    | true => rw [if_pos rfl, List.flatMap_cons, ih]
    | false =>
      have hd := hall d (.head _)
      rw [henters, Bool.false_or] at hd
      rw [if_neg Bool.false_ne_true, ih, hollow d hd, List.nil_append]

end Concrete

end NestLint
