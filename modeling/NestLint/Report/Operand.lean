import NestLint.Source.Text
import NestLint.Tree.Node

/-!
# Expression text with just enough parentheses

An operand is the text of an expression with what must be known to put it into a larger one: whether
it is an atom, an expression that always needs parentheses there, or a use of a binary operator.

An operand is a `Sugg` with `ast`, `maybe_par`, `and_` and `or_`. Two operands are joined by
`make_binop`, which asks `_side` and with that `needs_paren` for each of them;
`_has_enclosing_paren` looks for parentheses that are there already.

* `needsParen`: when an operand of one operator needs parentheses beside another;
* `isEnclosed`: when a text is in one pair of parentheses already.
-/

namespace NestLint

/-- How an expression combines with an operator. -/
inductive Shape where
  /-- Never needs parentheses. -/
  | atom
  /-- Always needs parentheses. -/
  | loose
  /-- A use of an operator, which decides. -/
  | chain
  deriving DecidableEq, Repr, Inhabited

namespace Shape

/-- The name of a shape in data. -/
def name : Shape → String
  | .atom => "non_paren"
  | .loose => "maybe_paren"
  | .chain => "bin_op"

/-- All shapes. -/
def all : List Shape := [.atom, .loose, .chain]

end Shape

/-- The text of an expression and how it combines. -/
structure Operand where
  text : String
  shape : Shape := .atom
  op : Option BinOp := none
  deriving DecidableEq, Repr, Inhabited

namespace BinOp

/-- Whether an operand made with `other` needs parentheses on side `side` of `op`. A lower
precedence needs them. At the same precedence, another operator needs them unless `op` groups to
that side, and the same operator unless it may be chained on both. A shift beside arithmetic gets
them for the reader's sake. -/
def needsParen (op other : BinOp) (side : Associativity) : Bool :=
  other.precedence < op.precedence ||
    (other.precedence == op.precedence &&
      ((op != other && op.associativity != side) || (op == other && op.associativity != .both))) ||
    (op.isShift && other.isArith) || (other.isShift && op.isArith)

end BinOp

namespace Operand

/-- Whether the parentheses open at depth `depth` are all closed by the end, and not before it. -/
def closesAtEnd : Int → List Char → Bool
  | depth, [] => depth == 0
  | depth, c :: rest =>
    if c = '(' then closesAtEnd (depth + 1) rest
    else if c = ')' then if depth - 1 == 0 && !rest.isEmpty then false else closesAtEnd (depth - 1) rest
    else closesAtEnd depth rest

/-- Whether a text is in one pair of parentheses. -/
def isEnclosed (cs : List Char) : Bool := cs.head? == some '(' && cs.getLast? == some ')' && closesAtEnd 0 cs

/-- The operand for an expression of a tree. `default` stands in for a text that cannot be read. -/
def ofNode (source : SourceText) (n : Node) (default : String) : Operand :=
  let text := source.snippet n.span default
  match n with
  | .ifThen .. | .ifLet .. | .closure .. => ⟨text, .loose, none⟩
  | .binary _ op _ _ => ⟨text, .chain, some op⟩
  | .cast .. => ⟨text, .chain, some .as⟩
  | .assign .. => ⟨text, .chain, some .assign⟩
  | .range _ _ _ inclusive => ⟨text, .chain, some (if inclusive then .rangeInclusive else .range)⟩
  | _ => ⟨text, .atom, none⟩

/-- The operand with parentheses, unless it is an atom or has them already. -/
def parenthesised (o : Operand) : Operand :=
  if o.shape = .atom then o
  else if isEnclosed o.text.toList then ⟨o.text, .atom, none⟩
  else ⟨"(" ++ o.text ++ ")", .atom, none⟩

/-- The text of an operand on side `side` of an operator. -/
def onSide (op : BinOp) (o : Operand) (side : Associativity) : String :=
  match o.shape, o.op with
  | .loose, _ => o.parenthesised.text
  | .chain, some inner => if op.needsParen inner side then o.parenthesised.text else o.text
  | _, _ => o.text

/-- The use of an operator on two operands. -/
def combine (op : BinOp) (lhs rhs : Operand) : Operand :=
  ⟨onSide op lhs .left ++ " " ++ op.symbol ++ " " ++ onSide op rhs .right, .chain, some op⟩

/-- Both conditions. -/
def and (lhs rhs : Operand) : Operand := combine .and lhs rhs

/-- Either condition. -/
def or (lhs rhs : Operand) : Operand := combine .or lhs rhs

theorem parenthesised_of_atom {o : Operand} (h : o.shape = .atom) : o.parenthesised = o := by simp [parenthesised, h]

theorem shape_parenthesised (o : Operand) : o.parenthesised.shape = .atom := by
  unfold parenthesised; split
  · assumption
  · split <;> rfl

end Operand

end NestLint
