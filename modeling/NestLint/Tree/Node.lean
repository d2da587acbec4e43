import NestLint.Tree.Span
import NestLint.Tree.Operator

/-!
# Syntax trees

A tree is a node with its span and its parts. The slots of a node hold nodes of any kind, because
patterns and lints must answer for every tree, also for one that no reader builds. For the same
reason the slots of conditionals and bindings may be empty, even those that a reader always fills.

The nodes are the subclasses of `Node`, `Block` and `If` for example, with their `NodeKind` and
`StmtKind`; `get_children` gives the parts.

* `children`: the parts of a node, left to right; every walk and every count goes through it;
* `sizeOf_lt_of_mem_children`: a part is smaller than the whole, which is why walks end.
-/

namespace NestLint

/-- The kinds of nodes. -/
inductive Kind where
  | block | stmt | binding | pat | ifThen | ifLet | path | lit | call | methodCall | field | binary
  | unary | paren | cast | assign | range | macroCall | closure | blockExpr | other | item
  deriving DecidableEq, Repr, Inhabited

namespace Kind

/-- All kinds. -/
def all : List Kind :=
  [.block, .stmt, .binding, .pat, .ifThen, .ifLet, .path, .lit, .call, .methodCall, .field, .binary, .unary, .paren,
    .cast, .assign, .range, .macroCall, .closure, .blockExpr, .other, .item]

/-- The name of a kind in data. -/
def name : Kind → String
  | .block => "block" | .stmt => "stmt" | .binding => "local" | .pat => "pat" | .ifThen => "if" | .ifLet => "if_let"
  | .path => "path" | .lit => "lit" | .call => "call" | .methodCall => "method_call" | .field => "field"
  | .binary => "binary" | .unary => "unary" | .paren => "paren" | .cast => "cast" | .assign => "assign"
  | .range => "range" | .macroCall => "mac_call" | .closure => "closure" | .blockExpr => "block_expr"
  | .other => "other_expr" | .item => "item"

/-- The name of a kind in messages. -/
def title : Kind → String
  | .block => "Block" | .stmt => "Stmt" | .binding => "Local" | .pat => "Pat" | .ifThen => "If" | .ifLet => "IfLet"
  | .path => "Path" | .lit => "Lit" | .call => "Call" | .methodCall => "MethodCall" | .field => "Field"
  | .binary => "Binary" | .unary => "Unary" | .paren => "Paren" | .cast => "Cast" | .assign => "Assign"
  | .range => "Range" | .macroCall => "MacCall" | .closure => "Closure" | .blockExpr => "BlockExpr"
  | .other => "OtherExpr" | .item => "Item"

/-- Every kind is one of expressions but blocks, statements, bindings, patterns and items. -/
def isExpr : Kind → Bool
  | .block | .stmt | .binding | .pat | .item => false
  | _ => true

end Kind

/-- The forms of a statement: an expression at the end of a block, one with a semicolon, a binding,
or an item. -/
inductive StmtForm where
  | expr | semi | binding | item
  deriving DecidableEq, Repr, Inhabited

namespace StmtForm

/-- The name of a form in data. -/
def name : StmtForm → String
  | .expr => "expr"
  | .semi => "semi"
  | .binding => "local"
  | .item => "item"

/-- All forms. -/
def all : List StmtForm := [.expr, .semi, .binding, .item]

end StmtForm

/-- A node of a syntax tree. `other` stands for an expression of a construct that nothing looks
into, `item` for a declaration inside a block; both are named by their construct and keep the
expressions found inside. -/
inductive Node where
  | block (span : Span) (stmts : List Node)
  | stmt (span : Span) (form : StmtForm) (node : Node)
  | binding (span : Span) (pat init : Option Node)
  | pat (span : Span)
  | ifThen (span : Span) (cond body els : Option Node)
  | ifLet (span : Span) (pat scrutinee body els : Option Node)
  | path (span : Span) (segments : List String)
  | lit (span : Span) (value : String)
  | call (span : Span) (func : Node) (args : List Node)
  | methodCall (span : Span) (receiver : Node) (method : String) (args : List Node)
  | field (span : Span) (base : Node) (name : String)
  | binary (span : Span) (op : BinOp) (lhs rhs : Node)
  | unary (span : Span) (op : UnOp) (operand : Node)
  | paren (span : Span) (inner : Node)
  | cast (span : Span) (expr : Node) (type : String)
  | assign (span : Span) (target value : Node) (op : Option BinOp)
  | range (span : Span) (lo hi : Option Node) (inclusive : Bool)
  | macroCall (span : Span) (name : String)
  | closure (span : Span) (params : List Node) (body : Node)
  | blockExpr (span : Span) (block : Node)
  | other (span : Span) (label : String) (parts : List Node)
  | item (span : Span) (label : String) (parts : List Node)
  deriving Repr, Inhabited

namespace Node

/-- The kind of a node. -/
def kind : Node → Kind
  | .block .. => .block | .stmt .. => .stmt | .binding .. => .binding | .pat .. => .pat | .ifThen .. => .ifThen
  | .ifLet .. => .ifLet | .path .. => .path | .lit .. => .lit | .call .. => .call | .methodCall .. => .methodCall
  | .field .. => .field | .binary .. => .binary | .unary .. => .unary | .paren .. => .paren | .cast .. => .cast
  | .assign .. => .assign | .range .. => .range | .macroCall .. => .macroCall | .closure .. => .closure
  | .blockExpr .. => .blockExpr | .other .. => .other | .item .. => .item

/-- The span of a node. -/
def span : Node → Span
  | .block s .. | .stmt s .. | .binding s .. | .pat s | .ifThen s .. | .ifLet s .. | .path s .. | .lit s .. | .call s ..
  | .methodCall s .. | .field s .. | .binary s .. | .unary s .. | .paren s .. | .cast s .. | .assign s .. | .range s ..
  | .macroCall s .. | .closure s .. | .blockExpr s .. | .other s .. | .item s .. => s

/-- The same node with another span; its parts keep theirs. -/
def withSpan (s : Span) : Node → Node
  | .block _ stmts => .block s stmts
  | .stmt _ form node => .stmt s form node
  | .binding _ p init => .binding s p init
  | .pat _ => .pat s
  | .ifThen _ cond body els => .ifThen s cond body els
  | .ifLet _ p scrutinee body els => .ifLet s p scrutinee body els
  | .path _ segments => .path s segments
  | .lit _ value => .lit s value
  | .call _ func args => .call s func args
  | .methodCall _ receiver method args => .methodCall s receiver method args
  | .field _ base name => .field s base name
  | .binary _ op lhs rhs => .binary s op lhs rhs
  | .unary _ op operand => .unary s op operand
  | .paren _ inner => .paren s inner
  | .cast _ expr type => .cast s expr type
  | .assign _ target value op => .assign s target value op
  | .range _ lo hi inclusive => .range s lo hi inclusive
  | .macroCall _ name => .macroCall s name
  | .closure _ params body => .closure s params body
  | .blockExpr _ body => .blockExpr s body
  | .other _ label parts => .other s label parts
  | .item _ label parts => .item s label parts

/-- The parts of a node, left to right. -/
def children : Node → List Node
  | .block _ stmts => stmts
  | .stmt _ _ node => [node]
  | .binding _ p init => p.toList ++ init.toList
  | .ifThen _ cond body els => cond.toList ++ body.toList ++ els.toList
  | .ifLet _ p scrutinee body els => p.toList ++ scrutinee.toList ++ body.toList ++ els.toList
  | .call _ func args => func :: args
  | .methodCall _ receiver _ args => receiver :: args
  | .field _ base _ => [base]
  | .binary _ _ lhs rhs => [lhs, rhs]
  | .unary _ _ operand => [operand]
  | .paren _ inner => [inner]
  | .cast _ expr _ => [expr]
  | .assign _ target value _ => [target, value]
  | .range _ lo hi _ => lo.toList ++ hi.toList
  | .closure _ params body => params ++ [body]
  | .blockExpr _ body => [body]
  | .other _ _ parts | .item _ _ parts => parts
  | .pat _ | .path .. | .lit .. | .macroCall .. => []

/-- Whether the node is an expression. -/
def isExpr (n : Node) : Bool := n.kind.isExpr

/-- The node as it is shown in messages: its kind and its span. -/
def text (n : Node) : String := "<" ++ n.kind.title ++ " " ++ n.span.text ++ ">"

/-- The name that a path spells. -/
def pathName (segments : List String) : String := "::".intercalate segments

theorem sizeOf_lt_of_mem_toList {c : Node} {o : Option Node} (h : c ∈ o.toList) : sizeOf c < sizeOf o := by
  rw [Option.mem_toList.1 h]; simp

theorem sizeOf_lt_of_mem_children {c n : Node} (h : c ∈ n.children) : sizeOf c < sizeOf n := by
  cases n <;> simp only [children, List.mem_cons, List.mem_append, List.not_mem_nil, or_false] at h <;> simp <;>
    grind [→ List.sizeOf_lt_of_mem, → sizeOf_lt_of_mem_toList]

theorem kind_withSpan (s : Span) (n : Node) : (n.withSpan s).kind = n.kind := by cases n <;> rfl

theorem span_withSpan (s : Span) (n : Node) : (n.withSpan s).span = s := by cases n <;> rfl

theorem children_withSpan (s : Span) (n : Node) : (n.withSpan s).children = n.children := by cases n <;> rfl

end Node

end NestLint
