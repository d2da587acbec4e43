import NestLint.Reader.Snippet
import NestLint.Tree.Node

/-!
# How concrete nodes are read

Each construct of the grammar has a rule: which parts of it are read first, in which order, and how
their nodes are put together. A rule looks at the concrete node only and never at what came out of
its parts, so all rules can be listed here without reading anything. The one construct without a
rule is the macro invocation, whose body has to be parsed.

The rules are `stmts`, `stmt`, `local`, `block` and `pat`, and for expressions `expr` with the
functions that it picks from, `if_expr` to `path`.

* `Goal`: a concrete node together with what is wanted of it;
* `Plan`: a rule applied to a node;
* `plan`: the rules.
-/

namespace NestLint

/-- What can go wrong when a concrete tree is read. -/
inductive ReadFault where
  /-- The text has a syntax error. -/
  | malformed (what : String) (position : Int)
  /-- The parser did not deliver one construct around the statements. -/
  | unwrapped
  /-- A construct lacks the child in a field. -/
  | missingField (name : String)
  /-- A construct lacks its first part. -/
  | missingPart
  /-- A symbol is no binary operator. -/
  | unknownBinary (symbol : String)
  /-- A symbol is no unary operator. -/
  | unknownUnary (symbol : String)
  /-- The bytes of a construct are no text. -/
  | undecodable
  /-- The parser has no answer for a snippet. -/
  | unparsed
  /-- Bodies of macros are, too often, no shorter than the snippets that hold them. -/
  | endless
  deriving DecidableEq, Repr, Inhabited

namespace ReadFault

/-- What is reported. -/
def message : ReadFault → String
  | .malformed what position => what ++ " at offset " ++ toString position
  | .unknownBinary symbol => BinOp.unknownMessage symbol
  | _ => ""

end ReadFault

namespace Reader

/-- What is wanted of a concrete node. -/
inductive Goal where
  /-- The block with these statements. -/
  | block (c : Concrete)
  /-- The expression. -/
  | expr (c : Concrete)
  /-- The statement. -/
  | stmt (c : Concrete)
  deriving Repr, Inhabited

namespace Goal

/-- A statement may ask for the expression at the same place, and an expression for the block
there. -/
noncomputable def measure : Goal → Nat
  | .block c => 3 * sizeOf c
  | .expr c => 3 * sizeOf c + 1
  | .stmt c => 3 * sizeOf c + 2

end Goal

/-- What to read first, and how to put it together. -/
inductive Plan where
  /-- Reading fails, after these parts have been read. -/
  | stuck (parts : List Goal) (fault : ReadFault)
  | leaf (node : Node)
  | one (a : Goal) (f : Node → Node)
  | two (a b : Goal) (f : Node → Node → Node)
  | three (a b c : Goal) (f : Node → Node → Node → Node)
  | many (parts : List Goal) (f : List Node → Node)
  | manyThen (parts : List Goal) (last : Goal) (f : List Node → Node → Node)

/-- What a plan reads, in order. -/
def Plan.parts : Plan → List Goal
  | .stuck parts _ => parts
  | .leaf _ => []
  | .one a _ => [a]
  | .two a b _ => [a, b]
  | .three a b c _ => [a, b, c]
  | .many parts _ => parts
  | .manyThen parts last _ => parts ++ [last]

/-! ## Statements and blocks -/

/-- The end of a semicolon that stands on its own behind a statement: `m!(..);` and `if .. {};` may
leave it there. -/
def semicolonAfter : List Concrete → Option Nat
  | [] => none
  | c :: rest =>
    if c.type = "label" then semicolonAfter rest
    else if c.type = "empty_statement" then some c.stop
    else none

/-- The statements among the parts of a block, each with the end of the semicolon behind it. -/
def stmtSlots : List Concrete → List (Concrete × Option Nat)
  | [] => []
  | c :: rest =>
    if c.type = "label" || c.type = "empty_statement" then stmtSlots rest
    else (c, semicolonAfter rest) :: stmtSlots rest

/-- A trailing expression that a semicolon follows is a statement with a semicolon, and reaches up
to its end. -/
def closeBy (s : Snippet) (semicolon : Option Nat) (n : Node) : Node :=
  match semicolon, n with
  | some stop, .stmt span .expr node => .stmt ⟨span.lo, s.position stop, s.origin⟩ .semi node
  | _, n => n

/-- The rule for a block. -/
def blockPlan (s : Snippet) (c : Concrete) : Plan :=
  let slots := stmtSlots c.parts
  .many (slots.map fun slot => .stmt slot.1) fun nodes =>
    .block (s.span c) (List.zipWith (fun slot n => closeBy s slot.2 n) slots nodes)

/-- The pattern of a binding starts at `mut` if there is one, which the grammar keeps out of the
pattern. -/
def bindingPattern (s : Snippet) (c pattern : Concrete) : Node :=
  let starts := (c.children.filter fun d => d.type == "mutable_specifier").map Concrete.start
  .pat ⟨s.position (starts.foldl min pattern.start), s.position pattern.stop, s.origin⟩

/-- The rule for a statement. -/
def stmtPlan (s : Snippet) (c : Concrete) : Plan :=
  let span := s.span c
  if c.type = "let_declaration" then
    match c.child? "pattern" with
    | none => .stuck [] (.missingField "pattern")
    | some pattern =>
      let pat := bindingPattern s c pattern
      match c.child? "value" with
      | none => .leaf (.stmt span .binding (.binding span (some pat) none))
      | some value => .one (.expr value) fun init => .stmt span .binding (.binding span (some pat) (some init))
  else if c.type = "expression_statement" then
    let form := if c.children.any fun d => d.type == ";" then StmtForm.semi else .expr
    match c.parts with
    | [] => .stuck [] .missingPart
    | inner :: _ => .one (.expr inner) fun node => .stmt span form node
  else if c.isExpr then .one (.expr c) fun node => .stmt span .expr node
  else .many (c.targets.map .expr) fun nodes => .stmt span .item (.item span c.type nodes)

/-! ## Expressions -/

/-- What is read for the branch behind `else`. -/
def elseGoal? : Option Concrete → Except ReadFault (Option Goal)
  | none => .ok none
  | some c =>
    match c.parts with
    | [] => .error .missingPart
    | branch :: _ => .ok (some (if branch.type = "block" then .block branch else .expr branch))

/-- An `if` with a condition and a body. -/
def ifWhole (span : Span) (cond body : Node) (els : Option Node) : Node := .ifThen span (some cond) (some body) els

/-- An `if let` with a pattern, a scrutinee and a body. -/
def ifLetWhole (span : Span) (pat scrutinee body : Node) (els : Option Node) : Node :=
  .ifLet span (some pat) (some scrutinee) (some body) els

/-- The rule for an `if`, whose condition may be a `let`. The branches are read before the
condition. -/
def ifPlan (s : Snippet) (c : Concrete) : Plan :=
  let span := s.span c
  match c.child? "consequence" with
  | none => .stuck [] (.missingField "consequence")
  | some body =>
    match elseGoal? (c.child? "alternative") with
    | .error fault => .stuck [.block body] fault
    | .ok els =>
      let branches := .block body :: els.toList
      match c.child? "condition" with
      | none => .stuck branches (.missingField "condition")
      | some cond =>
        if cond.type = "let_condition" then
          match cond.child? "pattern" with
          | none => .stuck branches (.missingField "pattern")
          | some pattern =>
            let pat := Node.pat (s.span pattern)
            match cond.child? "value" with
            | none => .stuck branches (.missingField "value")
            | some value =>
              match els with
              | none => .two (.block body) (.expr value) fun b v => ifLetWhole span pat v b none
              | some e => .three (.block body) e (.expr value) fun b e v => ifLetWhole span pat v b (some e)
        else
          match els with
          | none => .two (.block body) (.expr cond) fun b t => ifWhole span t b none
          | some e => .three (.block body) e (.expr cond) fun b e t => ifWhole span t b (some e)

/-- The rule for an `if let` that the grammar keeps apart. -/
def ifLetPlan (s : Snippet) (c : Concrete) : Plan :=
  let span := s.span c
  match c.child? "pattern" with
  | none => .stuck [] (.missingField "pattern")
  | some pattern =>
    let pat := Node.pat (s.span pattern)
    match c.child? "value" with
    | none => .stuck [] (.missingField "value")
    | some value =>
      match c.child? "consequence" with
      | none => .stuck [.expr value] (.missingField "consequence")
      | some body =>
        match elseGoal? (c.child? "alternative") with
        | .error fault => .stuck [.expr value, .block body] fault
        | .ok none => .two (.expr value) (.block body) fun v b => ifLetWhole span pat v b none
        | .ok (some e) => .three (.expr value) (.block body) e fun v b e => ifLetWhole span pat v b (some e)

/-- The rule for a construct with a left and a right side. -/
def sidesPlan (c : Concrete) (f : Node → Node → Node) : Plan :=
  match c.child? "left" with
  | none => .stuck [] (.missingField "left")
  | some left =>
    match c.child? "right" with
    | none => .stuck [.expr left] (.missingField "right")
    | some right => .two (.expr left) (.expr right) f

/-- The rule for a use of a binary operator. -/
def binaryPlan (s : Snippet) (c : Concrete) : Plan :=
  match c.child? "operator" with
  | none => .stuck [] (.missingField "operator")
  | some op =>
    match BinOp.ofSymbol? op.type with
    | none => .stuck [] (.unknownBinary op.type)
    | some op => sidesPlan c fun l r => .binary (s.span c) op l r

/-- The rule for an assignment with an operator, whose symbol ends in the sign of assignment. -/
def compoundPlan (s : Snippet) (c : Concrete) : Plan :=
  match c.child? "operator" with
  | none => .stuck [] (.missingField "operator")
  | some op =>
    let symbol := String.ofList op.type.toList.dropLast
    match BinOp.ofSymbol? symbol with
    | none => .stuck [] (.unknownBinary symbol)
    | some op => sidesPlan c fun l r => .assign (s.span c) l r (some op)

/-- The rule for a use of a unary operator. -/
def unaryPlan (s : Snippet) (c : Concrete) : Plan :=
  match c.children with
  | [] => .stuck [] .missingPart
  | sign :: _ =>
    match UnOp.ofSymbol? sign.type with
    | none => .stuck [] (.unknownUnary sign.type)
    | some op =>
      match c.parts with
      | [] => .stuck [] .missingPart
      | operand :: _ => .one (.expr operand) fun n => .unary (s.span c) op n

/-- What follows from a text that must be there. -/
def withText (s : Snippet) (c : Concrete) (name : String) (before : List Goal) (f : List Char → Plan) : Plan :=
  match c.child? name with
  | none => .stuck before (.missingField name)
  | some d =>
    match s.text? d with
    | none => .stuck before .undecodable
    | some text => f text

/-- The rule for a construct around the expression in field `name`. -/
def aroundPlan (c : Concrete) (name : String) (f : Node → Node) : Plan :=
  match c.child? name with
  | none => .stuck [] (.missingField name)
  | some inner => .one (.expr inner) f

/-- The rule for a call. A call of a field is a method call, also if type arguments are given. The
arguments are read before what is called. -/
def callPlan (s : Snippet) (c : Concrete) : Plan :=
  let span := s.span c
  match c.child? "arguments" with
  | none => .stuck [] (.missingField "arguments")
  | some list =>
    let args := list.parts.map Goal.expr
    match c.child? "function" with
    | none => .stuck args (.missingField "function")
    | some func =>
      let method (access : Concrete) : Plan :=
        match access.child? "value" with
        | none => .stuck args (.missingField "value")
        | some value =>
          withText s access "field" (args ++ [.expr value]) fun name =>
            .manyThen args (.expr value) fun nodes receiver => .methodCall span receiver (String.ofList name) nodes
      if func.type = "field_expression" then method func
      else if func.type = "generic_function" then
        match func.child? "function" with
        | none => .stuck args (.missingField "function")
        | some access =>
          if access.type = "field_expression" then method access
          else .manyThen args (.expr func) fun nodes f => .call span f nodes
      else .manyThen args (.expr func) fun nodes f => .call span f nodes

/-- The rule for the access to a field. -/
def fieldPlan (s : Snippet) (c : Concrete) : Plan :=
  match c.child? "value" with
  | none => .stuck [] (.missingField "value")
  | some value =>
    withText s c "field" [.expr value] fun name =>
      .one (.expr value) fun base => .field (s.span c) base (String.ofList name)

/-- The rule for a cast. -/
def castPlan (s : Snippet) (c : Concrete) : Plan :=
  match c.child? "value" with
  | none => .stuck [] (.missingField "value")
  | some value =>
    withText s c "type" [.expr value] fun type =>
      .one (.expr value) fun n => .cast (s.span c) n (String.ofList type)

/-- The signs of a range. -/
def rangeSigns : List String := ["..", "...", "..="]

/-- The bounds of a range, each with whether it stands behind the sign; `seen` is whether the sign
has been met. -/
def rangeBounds (seen : Bool) : List Concrete → List (Concrete × Bool)
  | [] => []
  | c :: rest =>
    if rangeSigns.contains c.type then rangeBounds true rest
    else if c.named && !c.isComment then (c, seen) :: rangeBounds seen rest
    else rangeBounds seen rest

/-- The rule for a range. The last bound on either side of the sign counts, and the last sign. -/
def rangePlan (s : Snippet) (c : Concrete) : Plan :=
  let bounds := rangeBounds false c.children
  let signs := c.children.filter fun d => rangeSigns.contains d.type
  let inclusive := signs.getLast?.any fun d => d.type != ".."
  .many (bounds.map fun bound => .expr bound.1) fun nodes =>
    let sided := List.zip (bounds.map Prod.snd) nodes
    let pick (behind : Bool) := ((sided.filter fun entry => entry.1 == behind).map Prod.snd).getLast?
    .range (s.span c) (pick false) (pick true) inclusive

/-- The rule for a closure. -/
def closurePlan (s : Snippet) (c : Concrete) : Plan :=
  match c.child? "parameters" with
  | none => .stuck [] (.missingField "parameters")
  | some list =>
    let params := list.parts.map fun p => Node.pat (s.span p)
    aroundPlan c "body" fun body => .closure (s.span c) params body

/-- The rule for a node that is its text. -/
def textPlan (s : Snippet) (c : Concrete) (f : List Char → Node) : Plan :=
  match s.text? c with
  | none => .stuck [] .undecodable
  | some text => .leaf (f text)

/-- The rule for the first part of a construct. -/
def firstPlan (c : Concrete) (f : Concrete → Plan) : Plan :=
  match c.parts with
  | [] => .stuck [] .missingPart
  | inner :: _ => f inner

/-- The rule for an expression that is no macro invocation. -/
def exprPlan (s : Snippet) (c : Concrete) : Plan :=
  let span := s.span c
  if Concrete.literalTypes.contains c.type then textPlan s c fun text => .lit span (String.ofList text)
  else if Concrete.pathTypes.contains c.type then textPlan s c fun text => .path span (Snippet.pathSegments text)
  else match c.type with
    | "if_expression" => ifPlan s c
    | "if_let_expression" => ifLetPlan s c
    | "block" => .one (.block c) fun b => .blockExpr b.span b
    | "binary_expression" => binaryPlan s c
    | "unary_expression" => unaryPlan s c
    | "reference_expression" => aroundPlan c "value" fun n => .unary span .ref n
    | "parenthesized_expression" => firstPlan c fun inner => .one (.expr inner) fun n => .paren span n
    | "call_expression" => callPlan s c
    | "field_expression" => fieldPlan s c
    | "generic_function" => aroundPlan c "function" fun n => n.withSpan span
    | "type_cast_expression" => castPlan s c
    | "assignment_expression" => sidesPlan c fun l r => .assign span l r none
    | "compound_assignment_expr" => compoundPlan s c
    | "range_expression" => rangePlan s c
    | "try_expression" => firstPlan c fun inner => .one (.expr inner) fun n => n.withSpan span
    | "closure_expression" => closurePlan s c
    | type => .many (c.targets.map .expr) fun nodes => .other span type nodes

/-- The rule for a goal. -/
def plan (s : Snippet) : Goal → Plan
  | .block c => blockPlan s c
  | .expr c => exprPlan s c
  | .stmt c => stmtPlan s c

end Reader

end NestLint
