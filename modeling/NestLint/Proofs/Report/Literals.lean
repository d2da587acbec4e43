import NestLint.Proofs.Report.Parentheses

/-!
# Parentheses in literals

The text of an operation is that of its left operand, an operator and that of its right operand. If the
parentheses in the code of each operand balance, the text is in one pair of parentheses only as far as
counting goes, and only where the literals of the left operand open more than they close and those of
the right operand close as many. Everywhere else, an operation that is to be parenthesised is.

Parentheses are given by `maybe_par`, and counted by `_has_enclosing_paren`.

* `surplus_text`: what the code and the literals of a text leave open;
* `parenthesised_of_operation`: when an operation gets parentheses, and keeps them beside `&&`.
-/

namespace NestLint

open Text

/-! ## Code and literals -/

/-- A piece of a text: a character of the code, or a whole string or character literal. -/
inductive Piece where
  | code (c : Char)
  | literal (cs : List Char)
  deriving DecidableEq, Repr

namespace Piece

/-- The text of some pieces. -/
def text (pieces : List Piece) : List Char :=
  pieces.flatMap fun
    | code c => [c]
    | literal cs => cs

/-- What stands outside literals. -/
def codeOf (pieces : List Piece) : List Char :=
  pieces.flatMap fun
    | code c => [c]
    | literal _ => []

/-- What stands in literals. -/
def literalsOf (pieces : List Piece) : List Char :=
  pieces.flatMap fun
    | code _ => []
    | literal cs => cs

theorem surplus_text (pieces : List Piece) :
    surplus (text pieces) = surplus (codeOf pieces) + surplus (literalsOf pieces) := by
  induction pieces with
  | nil => rfl
  | cons piece rest ih =>
    rw [text, codeOf, literalsOf] at *
    rw [List.flatMap_cons, List.flatMap_cons, List.flatMap_cons, surplus_append, surplus_append, surplus_append, ih]
    cases piece with
    | code c =>
      simp only [surplus_nil]
      omega
    | literal cs =>
      simp only [surplus_nil]
      omega

end Piece

open Piece

/-- A text is that of a left operand, an operator, and that of a right operand, whose parentheses
outside literals balance. -/
structure Joins (text : String) (left : List Piece) (operator : List Char) (right : List Piece) : Prop where
  text : text.toList = Piece.text left ++ operator ++ Piece.text right
  operator_ne_nil : operator ≠ []
  operator : ∀ c ∈ operator, c ≠ '(' ∧ c ≠ ')'
  left : Balanced (codeOf left)
  right : Balanced (codeOf right)

/-- Whether a text is in one pair of parentheses, as far as counting goes. -/
def Paired (text : String) : Prop := ∃ m, text.toList = '(' :: m ++ [')'] ∧ Balanced m

/-- What is in one pair of parentheses as a whole is so because of the literals. -/
theorem Joins.literals {text : String} {left right : List Piece} {operator : List Char}
    (h : Joins text left operator right) (hpaired : Paired text) :
    0 < surplus (literalsOf left) ∧ surplus (literalsOf left) + surplus (literalsOf right) = 0 := by
  have henclosed : Operand.isEnclosed text.toList = true := Operand.isEnclosed_iff.2 hpaired
  obtain ⟨m, hm, -⟩ := hpaired
  have hsum := Operand.surplus_of_isEnclosed henclosed
  rw [h.text] at hm henclosed hsum
  have hleft : Piece.text left ≠ [] := by
    intro hnil
    obtain ⟨c, rest, hc⟩ := List.exists_cons_of_ne_nil h.operator_ne_nil
    rw [hnil, hc] at hm
    exact (h.operator c (hc ▸ List.mem_cons_self)).1 (List.cons.inj hm).1
  have hopen : 0 < surplus (Piece.text left) := by
    rw [List.append_assoc] at henclosed
    exact Operand.surplus_pos_of_isEnclosed henclosed hleft (by simp [h.operator_ne_nil])
  rw [surplus_text, h.left.1, Int.zero_add] at hopen
  rw [surplus_append, surplus_append, surplus_eq_zero h.operator, surplus_text, surplus_text, h.left.1,
    h.right.1] at hsum
  exact ⟨hopen, by omega⟩

/-! ## Operations -/

/-- Whether a node is the use of an operator. -/
def Node.isOperation : Node → Bool
  | .binary .. | .cast .. | .assign .. | .range .. => true
  | _ => false

namespace Operand

variable {source : SourceText} {n : Node} {default : String}

theorem text_ofNode : (ofNode source n default).text = source.snippet n.span default := by cases n <;> rfl

theorem shape_ofNode (h : n.isOperation = true) : (ofNode source n default).shape = .chain := by
  cases n <;> first | rfl | cases h

/-- A text is not the same with parentheses. -/
theorem ne_parenthesised (text : String) : text ≠ "(" ++ text ++ ")" := by
  intro h
  have hlength := congrArg (fun t => t.toList.length) h
  simp at hlength
  omega

/-- An operation gets parentheses exactly if its text is not taken to be in one pair of them. -/
theorem text_parenthesised_ofNode (h : n.isOperation = true) :
    (ofNode source n default).parenthesised.text = "(" ++ source.snippet n.span default ++ ")" ↔
      ¬Paired (source.snippet n.span default) := by
  have hshape : (ofNode source n default).shape ≠ .atom := by
    rw [shape_ofNode h]
    nofun
  rw [text_parenthesised hshape, text_ofNode, Paired, ← isEnclosed_iff]
  split
  · rename_i henclosed
    exact iff_of_false (ne_parenthesised _) (not_not_intro henclosed)
  · rename_i henclosed
    exact iff_of_true rfl henclosed

/-- Beside `&&`, either of two conditions is put in parentheses as it is elsewhere. -/
theorem onSide_and_or (span : Span) (l r : Node) (side : Associativity) :
    onSide .and (ofNode source (.binary span .or l r) default) side =
      (ofNode source (.binary span .or l r) default).parenthesised.text := by
  have hneeds : BinOp.needsParen .and .or side = true := by cases side <;> rfl
  rw [ofNode, onSide]
  exact if_pos hneeds

theorem text_and (o p : Operand) :
    (Operand.and o p).text = o.onSide .and .left ++ " && " ++ p.onSide .and .right := by
  rw [← String.toList_inj]
  simp [Operand.and, combine, BinOp.symbol]

theorem and_left_iff (o p : Operand) (text : String) :
    (Operand.and o p).text = text ++ " && " ++ p.onSide .and .right ↔ o.onSide .and .left = text := by
  rw [text_and, ← String.toList_inj, ← String.toList_inj]
  simp only [String.toList_append, List.append_cancel_right_eq]

theorem and_right_iff (o p : Operand) (text : String) :
    (Operand.and o p).text = o.onSide .and .left ++ " && " ++ text ↔ p.onSide .and .right = text := by
  rw [text_and, ← String.toList_inj, ← String.toList_inj]
  simp only [String.toList_append, List.append_cancel_left_eq]

/-- An operation is put in parentheses exactly if its text is in one pair of them neither in fact nor
as far as counting goes. It never is in fact, and counting goes wrong only where the literals of the
left operand open more parentheses than they close, as many as those of the right operand close. So
either of two conditions stays one operand of `&&`. -/
theorem parenthesised_of_operation {left right : List Piece} {operator : List Char} (hn : n.isOperation = true)
    (h : Joins (source.snippet n.span default) left operator right) :
    let text := source.snippet n.span default
    let condition := ofNode source n default
    (condition.parenthesised.text = "(" ++ text ++ ")" ↔ ¬Paired text) ∧
      (Paired text → condition.parenthesised.text = text ∧ 0 < surplus (literalsOf left) ∧
        surplus (literalsOf left) + surplus (literalsOf right) = 0) ∧
      ∀ span l r, n = .binary span .or l r → ∀ o : Operand,
        ((Operand.and condition o).text = "(" ++ text ++ ")" ++ " && " ++ o.onSide .and .right ↔ ¬Paired text) ∧
          ((Operand.and o condition).text = o.onSide .and .left ++ " && " ++ ("(" ++ text ++ ")") ↔ ¬Paired text) := by
  intro text condition
  have hparen : condition.parenthesised.text = "(" ++ text ++ ")" ↔ ¬Paired text := text_parenthesised_ofNode hn
  refine ⟨hparen, fun hpaired => ⟨?_, h.literals hpaired⟩, ?_⟩
  · have hshape : condition.shape ≠ .atom := by
      rw [shape_ofNode hn]
      nofun
    rw [text_parenthesised hshape, text_ofNode]
    exact if_pos (isEnclosed_iff.2 hpaired)
  · rintro span l r rfl o
    rw [and_left_iff, and_right_iff, onSide_and_or, onSide_and_or]
    exact ⟨hparen, hparen⟩

/-- Parentheses in a literal of `(c == "()") || (d)` do not matter. -/
theorem parenthesised_of_operation_comparison :
    let source : SourceText := { text := "(c == \"()\") || (d)" }
    let lhs : Node := .binary ⟨1, 10, .root⟩ .eq (.path ⟨1, 2, .root⟩ ["c"]) (.lit ⟨6, 10, .root⟩ "\"()\"")
    let n : Node := .binary ⟨0, 18, .root⟩ .or (.paren ⟨0, 11, .root⟩ lhs)
      (.paren ⟨15, 18, .root⟩ (.path ⟨16, 17, .root⟩ ["d"]))
    let left := "(c == ".toList.map Piece.code ++ [.literal "\"()\"".toList, .code ')']
    Joins (source.snippet n.span "..") left " || ".toList ("(d)".toList.map Piece.code) ∧
      (ofNode source n "..").parenthesised.text = "((c == \"()\") || (d))" := by
  intro source lhs n left
  have htext : source.snippet n.span ".." = "(c == \"()\") || (d)" := by decide +kernel
  have hjoins : Joins (source.snippet n.span "..") left " || ".toList ("(d)".toList.map Piece.code) := by
    rw [htext]
    exact ⟨by decide +kernel, by decide +kernel, by simp, by decide +kernel, by decide +kernel⟩
  obtain ⟨hparen, hliterals, -⟩ := parenthesised_of_operation rfl hjoins
  have hbalanced : surplus (literalsOf left) = 0 := by decide +kernel
  refine ⟨hjoins, ?_⟩
  rw [hparen.2 fun hpaired => absurd (hliterals hpaired).2.1 (by rw [hbalanced]; exact Int.lt_irrefl 0), htext]
  rfl

/-- The literals of `(c == '(') || (d == ')')` make it seem to be in parentheses, and `&&` takes the
second of the two conditions alone. -/
theorem taken_literals :
    let source : SourceText := { text := "(c == '(') || (d == ')')" }
    let lhs : Node := .binary ⟨1, 9, .root⟩ .eq (.path ⟨1, 2, .root⟩ ["c"]) (.lit ⟨6, 9, .root⟩ "'('")
    let rhs : Node := .binary ⟨15, 23, .root⟩ .eq (.path ⟨15, 16, .root⟩ ["d"]) (.lit ⟨20, 23, .root⟩ "')'")
    let n : Node := .binary ⟨0, 24, .root⟩ .or (.paren ⟨0, 10, .root⟩ lhs) (.paren ⟨14, 24, .root⟩ rhs)
    Joins (source.snippet n.span "..") ("(c == ".toList.map Piece.code ++ [.literal "'('".toList, .code ')'])
        " || ".toList ("(d == ".toList.map Piece.code ++ [.literal "')'".toList, .code ')']) ∧
      (ofNode source n "..").parenthesised.text ≠ "(" ++ source.snippet n.span ".." ++ ")" ∧
      (Operand.and (ofNode source n "..") ⟨"y", .atom, none⟩).text = "(c == '(') || (d == ')') && y" := by
  intro source lhs rhs n
  have htext : source.snippet n.span ".." = "(c == '(') || (d == ')')" := by decide +kernel
  rw [htext]
  exact ⟨⟨by decide +kernel, by decide +kernel, by simp, by decide +kernel, by decide +kernel⟩,
    by decide +kernel, by decide +kernel⟩

end Operand

end NestLint
