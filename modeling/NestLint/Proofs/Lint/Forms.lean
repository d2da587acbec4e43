import NestLint.Lint.Collapsible
import NestLint.Proofs.Match.Refinement
import NestLint.Proofs.Tree.Walk

/-!
# The two forms of collapsible conditionals

The two patterns of the pass are taken apart into what they ask for and what they capture. No name
is given twice in them, so a capture never fails, and a part that is missing in the tree is simply
not captured.

* `eval_nestedIf`: an `if` whose body is nothing but an `if`, both without `else`;
* `eval_nestedElse`: a conditional whose `else` is nothing but a conditional.
-/

namespace NestLint

/-! ## Captures under new names -/

namespace Captures

variable {α : Type}

/-- The captures with an item under a name, if there is one. -/
def keep (c : Captures α) (name : String) (item : Option α) : Captures α :=
  match item with
  | none => c
  | some a => Dict.insert c name (some a)

theorem item?_nil (name : String) : item? ([] : Captures α) name = none := rfl

theorem item?_keep (c : Captures α) (name other : String) (item : Option α) :
    (c.keep name item).item? other = if name = other then item.or (c.item? other) else c.item? other := by
  cases item with
  | none => simp [keep]
  | some a =>
    rw [keep, item?, Dict.get?_insert]
    split
    · rfl
    · rfl

end Captures

namespace Pattern

/-- A name that is free is given. -/
theorem take_of_free {c : Captures Site} {name : String} (h : c.item? name = none) (site : Site) :
    take (some name) site c = some (c.keep name (some site)) := by
  rw [take, Captures.bind_of_free h]
  rfl

theorem eval_capture {c : Captures Site} {name : String} (h : c.item? name = none) (item : Option Site) :
    (capture name).eval item c = some (c.keep name item) := by
  cases item with
  | none => rfl
  | some site =>
    rw [capture, eval]
    exact take_of_free h site

theorem eval_wildcard (item : Option Site) (c : Captures Site) : wildcard.eval item c = some c := by
  cases item with
  | none => rfl
  | some site => rfl

theorem eval_optional_wildcard (item : Option Site) (c : Captures Site) :
    (optional {} wildcard).eval item c = some c := by
  cases item with
  | none => rfl
  | some site =>
    rw [eval, eval_wildcard]
    rfl

theorem eval_absent (item : Option Site) (c : Captures Site) :
    (absent {}).eval item c = if item.isNone then some c else none := by
  rw [eval]

theorem eval_ifThen (o : PatternOptions) (pc pb pe : Pattern) (s : Site) (c : Captures Site) :
    (ifThen o pc pb pe).eval (some s) c =
      s.ifParts?.bind fun (cond, body, els) =>
        (((pc.eval cond c).bind (pb.eval body)).bind (pe.eval els)).bind (take o.name s) := by
  obtain ⟨index, node⟩ := s
  rw [eval]
  cases node with
  | ifThen span cond body els => rfl
  | _ => rfl

theorem eval_ifLet (o : PatternOptions) (pp ps pb pe : Pattern) (s : Site) (c : Captures Site) :
    (ifLet o pp ps pb pe).eval (some s) c =
      s.ifLetParts?.bind fun (pat, scrutinee, body, els) =>
        ((((pp.eval pat c).bind (ps.eval scrutinee)).bind (pb.eval body)).bind (pe.eval els)).bind
          (take o.name s) := by
  obtain ⟨index, node⟩ := s
  rw [eval]
  cases node with
  | ifLet span pat scrutinee body els => rfl
  | _ => rfl

/-- A pattern for statements asks for a form of statement. -/
theorem eval_stmt (closed : Bool) (p : Pattern) (s : Site) (c : Captures Site) :
    (stmt {} closed p).eval (some s) c =
      s.stmtParts?.bind fun (form, node) => if form = stmtForm closed then p.eval (some node) c else none := by
  obtain ⟨index, node⟩ := s
  rw [eval]
  cases node with
  | stmt span form inner =>
    show (if form = stmtForm closed then (p.eval (some ⟨index + 1, inner⟩) c).bind (take none _) else none) = _
    rw [show take none ⟨index, .stmt span form inner⟩ = some from rfl, Option.bind_fun_some]
    rfl
  | _ => rfl

end Pattern

namespace Collapsible

open Pattern (take admitted evalEach evalFirst)

/-! ## The expression that a block consists of -/

/-- The expression that a statement consists of, with or without a semicolon. -/
def exprPart? (stmt : Site) : Option Site :=
  stmt.stmtParts?.bind fun (form, node) => if form = .expr ∨ form = .semi then some node else none

/-- The only statement of a block, with the expression that it consists of. -/
def sole? (s : Site) : Option (Site × Site) :=
  match s.stmts? with
  | some [stmt] => (exprPart? stmt).map fun node => (stmt, node)
  | _ => none

/-- A pattern for an expression that is a statement, with or without a semicolon. -/
def asStmt (o : PatternOptions) (p : Pattern) : Pattern := .oneOf o [.stmt {} false p, .stmt {} true p]

theorem eval_asStmt {o : PatternOptions} (ho : o.kind = none) (p : Pattern) (s : Site) (c : Captures Site) :
    (asStmt o p).eval (some s) c =
      (exprPart? s).bind fun node => (p.eval (some node) c).bind (take o.name s) := by
  have hsplit : asStmt o p = .either o [.stmt {} false p, .stmt {} true p] := rfl
  have hin : admitted (.either o [.stmt {} false p, .stmt {} true p]) (some s) = some s := by
    simp [admitted, Pattern.requiredKind, Pattern.formKind, Pattern.options, ho]
  rw [hsplit, Pattern.eval, hin, Option.bind_some, evalFirst, evalFirst, evalFirst, Pattern.eval_stmt,
    Pattern.eval_stmt, exprPart?,
    Option.or_none]
  cases s.stmtParts? with
  | none => rfl
  | some parts =>
    obtain ⟨form, node⟩ := parts
    simp only [Option.bind_some]
    cases form with
    | expr => simp [Pattern.stmtForm]
    | semi => simp [Pattern.stmtForm]
    | binding => rfl
    | item => rfl

/-- A pattern for a block of one statement. -/
theorem eval_block_one {o : PatternOptions} (p : Pattern) (s : Site) (c : Captures Site) :
    (Pattern.block o [p]).eval (some s) c =
      match s.stmts? with
      | some [stmt] => (p.eval (some stmt) c).bind (take o.name s)
      | _ => none := by
  obtain ⟨index, node⟩ := s
  rw [Pattern.eval]
  cases node with
  | block span stmts =>
    show (evalEach [p] (Site.children ⟨index, .block span stmts⟩) c).bind (take o.name ⟨index, .block span stmts⟩) =
      match some (Site.children ⟨index, .block span stmts⟩) with
      | some [stmt] => (p.eval (some stmt) c).bind (take o.name ⟨index, .block span stmts⟩)
      | _ => none
    generalize Site.children ⟨index, .block span stmts⟩ = sites
    match sites with
    | [] => simp [evalEach]
    | [stmt] =>
      rw [evalEach, show evalEach [] [] = some from funext fun c => by rw [evalEach], Option.bind_fun_some]
    | stmt :: stmt' :: rest =>
      rw [Pattern.evalEach_of_length_ne (by simp)]
      rfl
  | _ => rfl

/-- A pattern for a block that consists of an expression. -/
theorem eval_sole {o o' : PatternOptions} (ho : o'.kind = none) (p : Pattern) (s : Site) (c : Captures Site) :
    (Pattern.block o [asStmt o' p]).eval (some s) c =
      (sole? s).bind fun (stmt, node) =>
        ((p.eval (some node) c).bind (take o'.name stmt)).bind (take o.name s) := by
  rw [eval_block_one, sole?]
  match s.stmts? with
  | none => rfl
  | some [] => rfl
  | some [stmt] =>
    show ((asStmt o' p).eval (some stmt) c).bind (take o.name s) =
      ((exprPart? stmt).map fun node => (stmt, node)).bind _
    rw [eval_asStmt ho]
    cases exprPart? stmt with
    | none => rfl
    | some node => rfl
  | some (_ :: _ :: _) => rfl

/-! ## An `if` in an `if` -/

/-- The parts of an `if` whose body is nothing but an `if`, both without `else`. -/
structure NestedIf where
  cond : Option Site
  body : Site
  inner : Site
  innerCond : Option Site
  content : Option Site

/-- The two conditionals, if there is nothing else in the body of the first. -/
def nestedIf? (s : Site) : Option NestedIf :=
  s.ifParts?.bind fun (cond, body, els) =>
    body.bind fun body =>
      (sole? body).bind fun (_, inner) =>
        inner.ifParts?.bind fun (innerCond, content, innerEls) =>
          if innerEls.isNone && els.isNone then some ⟨cond, body, inner, innerCond, content⟩ else none

/-- What is captured of them. -/
def NestedIf.captures (n : NestedIf) : Captures Site :=
  ((((Captures.keep [] "check" n.cond).keep "check_inner" n.innerCond).keep "content" n.content).keep "inner"
    (some n.inner)).keep "then" (some n.body)

/-- The inner `if` gives its three names if they are free. -/
theorem eval_innerIf (s : Site) {c : Captures Site}
    (h : ∀ name ∈ ["check_inner", "content", "inner"], c.item? name = none) :
    innerIf.eval (some s) c = s.ifParts?.bind fun (cond, content, els) =>
      if els.isNone then some (((c.keep "check_inner" cond).keep "content" content).keep "inner" (some s))
      else none := by
  have hcheck : c.item? "check_inner" = none := h _ (by simp)
  have hcontent : c.item? "content" = none := h _ (by simp)
  have hinner : c.item? "inner" = none := h _ (by simp)
  rw [innerIf, Pattern.eval_ifThen]
  cases s.ifParts? with
  | none => rfl
  | some parts =>
    obtain ⟨cond, content, els⟩ := parts
    simp only [Option.bind_some]
    rw [Pattern.eval_capture hcheck, Option.bind_some, Pattern.eval_capture (by simp [Captures.item?_keep, hcontent]),
      Option.bind_some, Pattern.eval_absent]
    split
    · rw [Option.bind_some]
      exact Pattern.take_of_free (by simp [Captures.item?_keep, hinner]) s
    · rfl

theorem eval_nestedIf (s : Site) : nestedIf.eval (some s) [] = (nestedIf? s).map NestedIf.captures := by
  have hform : nestedIf =
      .ifThen {} (.capture "check") (.block { name := some "then" } [asStmt {} innerIf]) (.absent {}) := rfl
  rw [hform, Pattern.eval_ifThen, nestedIf?]
  cases s.ifParts? with
  | none => rfl
  | some parts =>
    obtain ⟨cond, body, els⟩ := parts
    have hfree : ∀ name, "check" ≠ name → (Captures.keep [] "check" cond).item? name = none := by
      intro name hne
      rw [Captures.item?_keep, if_neg hne]
      rfl
    simp only [Option.bind_some]
    rw [Pattern.eval_capture rfl, Option.bind_some]
    cases body with
    | none => rfl
    | some body =>
      rw [eval_sole rfl, Option.bind_some]
      cases sole? body with
      | none => rfl
      | some pair =>
        obtain ⟨stmt, inner⟩ := pair
        simp only [Option.bind_some]
        rw [eval_innerIf inner (by simp [hfree])]
        cases inner.ifParts? with
        | none => rfl
        | some parts =>
          obtain ⟨innerCond, content, innerEls⟩ := parts
          simp only [Option.bind_some]
          cases innerEls with
          | some innerEls => rfl
          | none =>
            have hthen : ((((Captures.keep [] "check" cond).keep "check_inner" innerCond).keep "content" content).keep
                "inner" (some inner)).item? "then" = none := by
              simp [Captures.item?_keep, hfree]
            show ((take (some "then") body _).bind ((Pattern.absent {}).eval els)).bind (take none s) = _
            rw [Pattern.take_of_free hthen, Option.bind_some, Pattern.eval_absent]
            cases els with
            | some els => rfl
            | none => rfl

/-! ## A conditional in an `else` -/

/-- The `else` of a conditional. -/
def elsePart? (s : Site) : Option Site :=
  (s.ifParts?.bind fun (_, _, els) => els).or (s.ifLetParts?.bind fun (_, _, _, els) => els)

/-- The block of an `else`, its only statement, and the conditional that this is. -/
structure NestedElse where
  block : Site
  stmt : Site
  nested : Site

/-- A block that is nothing but a conditional. -/
def conditionalBlock? (block : Site) : Option NestedElse :=
  (sole? block).bind fun (stmt, nested) => if nested.node.isConditional then some ⟨block, stmt, nested⟩ else none

/-- The `else` of a conditional, if it is nothing but a conditional. -/
def nestedElse? (s : Site) : Option NestedElse := (elsePart? s).bind conditionalBlock?

/-- What is captured of it. -/
def NestedElse.captures (n : NestedElse) : Captures Site :=
  ((Captures.keep [] "else_" (some n.nested)).keep "block_inner" (some n.stmt)).keep "block" (some n.block)

theorem eval_innerConditional (s : Site) {c : Captures Site} (h : c.item? "else_" = none) :
    innerConditional.eval (some s) c = if s.node.isConditional then some (c.keep "else_" (some s)) else none := by
  have hform : innerConditional = .either { name := some "else_" }
    [.ifThen {} .wildcard .wildcard (.optional {} .wildcard),
      .ifLet {} .wildcard .wildcard .wildcard (.optional {} .wildcard)] := rfl
  have hin : admitted innerConditional (some s) = some s := rfl
  rw [hform, Pattern.eval, ← hform, hin, Option.bind_some, evalFirst, evalFirst, evalFirst, Pattern.eval_ifThen,
    Pattern.eval_ifLet]
  simp only [Pattern.eval_wildcard, Pattern.eval_optional_wildcard, Option.bind_some, Option.or_none]
  obtain ⟨index, node⟩ := s
  cases node with
  | ifThen span cond body els => exact Pattern.take_of_free h _
  | ifLet span pat scrutinee body els => exact Pattern.take_of_free h _
  | _ => rfl

theorem eval_elseBlock (block : Option Site) :
    elseBlock.eval block [] = (block.bind conditionalBlock?).map NestedElse.captures := by
  have hform : elseBlock = .block { name := some "block" } [asStmt { name := some "block_inner" } innerConditional] :=
    rfl
  cases block with
  | none => rfl
  | some block =>
    rw [hform, eval_sole rfl, Option.bind_some, conditionalBlock?]
    cases sole? block with
    | none => rfl
    | some pair =>
      obtain ⟨stmt, nested⟩ := pair
      simp only [Option.bind_some]
      rw [eval_innerConditional nested rfl]
      split
      · rw [Option.bind_some, Pattern.take_of_free rfl, Option.bind_some]
        exact Pattern.take_of_free rfl block
      · rfl

theorem eval_nestedElse (s : Site) : nestedElse.eval (some s) [] = (nestedElse? s).map NestedElse.captures := by
  have hform : nestedElse = .either {} [.ifThen {} .wildcard .wildcard elseBlock,
    .ifLet {} .wildcard .wildcard .wildcard elseBlock] := rfl
  have hin : admitted nestedElse (some s) = some s := rfl
  have htake : take none s = some := rfl
  rw [hform, Pattern.eval, ← hform, hin, Option.bind_some, evalFirst, evalFirst, evalFirst, Pattern.eval_ifThen,
    Pattern.eval_ifLet, nestedElse?, elsePart?]
  simp only [Pattern.eval_wildcard, Option.bind_some, Option.or_none, eval_elseBlock, htake, Option.bind_fun_some]
  obtain ⟨index, node⟩ := s
  cases node with
  | ifThen span cond body els =>
    simp only [Site.ifParts?, Site.ifLetParts?, Option.bind_some, Option.bind_none, Option.or_none]
  | ifLet span pat scrutinee body els =>
    simp only [Site.ifParts?, Site.ifLetParts?, Option.bind_some, Option.bind_none, Option.none_or]
  | _ => rfl

end Collapsible

end NestLint
