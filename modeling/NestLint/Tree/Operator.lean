import NestLint.Text.Quoted

/-!
# Operators

The binary operators of the language with their symbol, precedence and associativity, and the unary
ones. An operator that associates to both sides may be chained on either side without parentheses.

The operators are `BinOp` with `from_symbol`, `is_shift` and `is_arith`, and `UnOp`; the sides are
`Associativity`.

* `ofSymbol?_symbol`: each operator is found by its own symbol.
-/

namespace NestLint

/-- The side to which uses of one operator group. -/
inductive Associativity where
  | left
  | right
  | both
  | neither
  deriving DecidableEq, Repr, Inhabited

namespace Associativity

/-- The name of a direction. -/
def name : Associativity → String
  | .left => "left"
  | .right => "right"
  | .both => "both"
  | .neither => "none"

end Associativity

/-- The binary operators, with those of casts, ranges and assignments. -/
inductive BinOp where
  | as | mul | div | rem | add | sub | shl | shr | bitAnd | bitXor | bitOr
  | eq | ne | lt | le | gt | ge | and | or | range | rangeInclusive | assign
  deriving DecidableEq, Repr, Inhabited

namespace BinOp

/-- All binary operators, from the ones that bind tightest. -/
def all : List BinOp :=
  [.as, .mul, .div, .rem, .add, .sub, .shl, .shr, .bitAnd, .bitXor, .bitOr, .eq, .ne, .lt, .le, .gt, .ge, .and, .or,
    .range, .rangeInclusive, .assign]

/-- How the operator is written. -/
def symbol : BinOp → String
  | .as => "as" | .mul => "*" | .div => "/" | .rem => "%" | .add => "+" | .sub => "-" | .shl => "<<" | .shr => ">>"
  | .bitAnd => "&" | .bitXor => "^" | .bitOr => "|" | .eq => "==" | .ne => "!=" | .lt => "<" | .le => "<=" | .gt => ">"
  | .ge => ">=" | .and => "&&" | .or => "||" | .range => ".." | .rangeInclusive => "..=" | .assign => "="

/-- The operator of higher precedence binds tighter. -/
def precedence : BinOp → Nat
  | .as => 14
  | .mul | .div | .rem => 13
  | .add | .sub => 12
  | .shl | .shr => 11
  | .bitAnd => 10
  | .bitXor => 9
  | .bitOr => 8
  | .eq | .ne | .lt | .le | .gt | .ge => 7
  | .and => 6
  | .or => 5
  | .range | .rangeInclusive => 4
  | .assign => 2

/-- How uses of the operator group. -/
def associativity : BinOp → Associativity
  | .as | .mul | .add | .bitAnd | .bitXor | .bitOr | .and | .or => .both
  | .div | .rem | .sub | .shl | .shr | .eq | .ne | .lt | .le | .gt | .ge => .left
  | .range | .rangeInclusive => .neither
  | .assign => .right

/-- Whether the operator shifts bits. -/
def isShift : BinOp → Bool
  | .shl | .shr => true
  | _ => false

/-- Whether the operator is one of arithmetic. -/
def isArith : BinOp → Bool
  | .add | .sub | .mul | .div | .rem => true
  | _ => false

/-- The operator written as `symbol`. -/
def ofSymbol? (symbol : String) : Option BinOp := all.find? fun op => op.symbol == symbol

/-- What a report about a symbol that no operator has starts with. -/
def unknownMark : String := "Unknown binary operator: "

/-- What is reported for a symbol that no operator has. -/
def unknownMessage (symbol : String) : String := unknownMark ++ Text.quoted symbol

theorem mem_all (op : BinOp) : op ∈ all := by cases op <;> decide

theorem ofSymbol?_symbol (op : BinOp) : ofSymbol? op.symbol = some op := by cases op <;> decide

end BinOp

/-- The unary operators. -/
inductive UnOp where
  | not | neg | deref | ref
  deriving DecidableEq, Repr, Inhabited

namespace UnOp

/-- All unary operators. -/
def all : List UnOp := [.not, .neg, .deref, .ref]

/-- How the operator is written. -/
def symbol : UnOp → String
  | .not => "!"
  | .neg => "-"
  | .deref => "*"
  | .ref => "&"

/-- The operator written as `symbol`. -/
def ofSymbol? (symbol : String) : Option UnOp := all.find? fun op => op.symbol == symbol

theorem ofSymbol?_symbol (op : UnOp) : ofSymbol? op.symbol = some op := by cases op <;> decide

end UnOp

end NestLint
