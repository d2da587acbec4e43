import NestLint.Proofs.Reader.Adequacy
import NestLint.Proofs.Reader.Faults

/-!
# Statements of a block

A block has one statement for each of its parts that is neither a label nor a semicolon on its own, in the same
order. A statement that was read as an expression is closed by such a semicolon if that is the next thing behind
it, labels apart, and then it reaches up to the end of it. No other semicolon has an effect.

The blocks are read by `stmts`, and their statements by `stmt`.

* `Concrete.statements`, `Concrete.form`: the statements of a block, and what each of them is by itself;
* `Concrete.closer?`, `Concrete.settled`: the semicolon behind a statement, and what it makes of the statement;
* `build_block`, `build_stmt`: a block is read by reading its statements, and a statement by reading the node that it
  carries, and they fail only like these;
* `Idle`, `stmtSlots_insert`: semicolons that close nothing;
* `statements_of_build`: the statements of a block that is read.
-/

namespace NestLint

namespace Concrete

/-- Whether a part of a block is a statement: it is no label, and no semicolon on its own. -/
def isStatement (c : Concrete) : Bool := c.type != "label" && c.type != "empty_statement"

/-- The statements among the parts of a block. -/
def statements (c : Concrete) : List Concrete := c.parts.filter isStatement

/-- What a statement is by itself. An expression with a semicolon in it is one with a semicolon. -/
def form (c : Concrete) : StmtForm :=
  if c.type = "let_declaration" then .binding
  else if c.type = "expression_statement" then if c.children.any fun d => d.type == ";" then .semi else .expr
  else if c.isExpr then .expr
  else .item

/-- The expression that a statement consists of. -/
def subject? (c : Concrete) : Option Concrete :=
  if c.type = "expression_statement" then c.parts.head?
  else if c.type ≠ "let_declaration" ∧ c.isExpr then some c
  else none

/-- The semicolon on its own that is the next thing but for labels. -/
def closer? (behind : List Concrete) : Option Concrete :=
  (behind.find? fun d => d.type != "label").filter fun d => d.type == "empty_statement"

/-- The statement that is made for a concrete one. An expression that is closed by a semicolon behind it counts as
one with a semicolon and reaches up to the end of that. -/
def settled (s : Snippet) (d : Concrete) (closer : Option Concrete) (node : Node) : Node :=
  match closer with
  | some semicolon =>
    if d.form = .expr then .stmt ⟨s.position d.start, s.position semicolon.stop, s.origin⟩ .semi node
    else .stmt (s.span d) d.form node
  | none => .stmt (s.span d) d.form node

theorem form_eq_semi_iff {c : Concrete} :
    c.form = .semi ↔ c.type = "expression_statement" ∧ ∃ d ∈ c.children, d.type = ";" := by
  unfold form
  split
  · rename_i htype
    rw [htype]
    exact ⟨nofun, fun ⟨h, _⟩ => absurd h (by decide)⟩
  · split
    · rename_i htype
      split
      · rename_i hsemi
        obtain ⟨d, hd, hdtype⟩ := List.any_eq_true.1 hsemi
        exact ⟨fun _ => ⟨htype, d, hd, eq_of_beq hdtype⟩, fun _ => rfl⟩
      · rename_i hsemi
        refine ⟨nofun, fun ⟨_, d, hd, hdtype⟩ => ?_⟩
        have hany : (c.children.any fun d => d.type == ";") = true := List.any_eq_true.2 ⟨d, hd, beq_iff_eq.2 hdtype⟩
        exact absurd hany hsemi
    · rename_i htype
      split
      · exact ⟨nofun, fun ⟨h, _⟩ => absurd h htype⟩
      · exact ⟨nofun, fun ⟨h, _⟩ => absurd h htype⟩

end Concrete

namespace Reader

open Concrete

/-! ## Slots -/

theorem semicolonAfter_eq (behind : List Concrete) : semicolonAfter behind = (closer? behind).map Concrete.stop := by
  induction behind with
  | nil => rfl
  | cons c rest ih =>
    rw [semicolonAfter, closer?, List.find?_cons]
    by_cases hlabel : c.type = "label"
    · rw [if_pos hlabel, bne_eq_false_iff_eq.2 hlabel, ih, closer?]
    · rw [if_neg hlabel, bne_iff_ne.2 hlabel]
      simp only [Option.filter_some]
      by_cases hempty : c.type = "empty_statement"
      · rw [if_pos hempty, if_pos (beq_iff_eq.2 hempty), Option.map_some]
      · rw [if_neg hempty, if_neg fun h => hempty (eq_of_beq h), Option.map_none]

theorem isStatement_eq_false_iff {c : Concrete} :
    c.isStatement = false ↔ (c.type = "label" || c.type = "empty_statement") = true := by
  rw [isStatement, Bool.and_eq_false_iff, bne_eq_false_iff_eq, bne_eq_false_iff_eq, Bool.or_eq_true, decide_eq_true_eq,
    decide_eq_true_eq]

theorem stmtSlots_of_isStatement {c : Concrete} (h : c.isStatement) (rest : List Concrete) :
    stmtSlots (c :: rest) = (c, semicolonAfter rest) :: stmtSlots rest := by
  rw [stmtSlots, if_neg]
  exact fun hc => Bool.false_ne_true ((isStatement_eq_false_iff.2 hc).symm.trans h)

theorem stmtSlots_of_not_isStatement {c : Concrete} (h : c.isStatement = false) (rest : List Concrete) :
    stmtSlots (c :: rest) = stmtSlots rest := by
  rw [stmtSlots, if_pos (isStatement_eq_false_iff.1 h)]

theorem map_fst_stmtSlots (cs : List Concrete) : (stmtSlots cs).map Prod.fst = cs.filter isStatement := by
  induction cs with
  | nil => rfl
  | cons c rest ih =>
    cases h : c.isStatement with
    | true => rw [stmtSlots_of_isStatement h, List.filter_cons_of_pos h, List.map_cons, ih]
    | false => rw [stmtSlots_of_not_isStatement h, List.filter_cons_of_neg (Bool.eq_false_iff.1 h), ih]

/-- The slot of a statement is the one behind those of the statements before it. -/
theorem stmtSlots_getElem? {d : Concrete} (hd : d.isStatement) (behind : List Concrete) : ∀ before : List Concrete,
    (stmtSlots (before ++ d :: behind))[(before.filter isStatement).length]? = some (d, semicolonAfter behind)
  | [] => by rw [List.nil_append, stmtSlots_of_isStatement hd]; rfl
  | c :: before => by
    have ih := stmtSlots_getElem? hd behind before
    cases h : c.isStatement with
    | true =>
      rw [List.cons_append, stmtSlots_of_isStatement h, List.filter_cons_of_pos h, List.length_cons,
        List.getElem?_cons_succ, ih]
    | false => rw [List.cons_append, stmtSlots_of_not_isStatement h, List.filter_cons_of_neg (Bool.eq_false_iff.1 h), ih]

/-! ## Semicolons that close nothing -/

/-- A semicolon that is put behind these parts closes nothing: there is nothing before it but labels, or it stands
behind another semicolon or behind a statement that is no expression. -/
def Idle (before : List Concrete) : Prop :=
  ∀ d ∈ (before.filter fun d => d.type != "label").getLast?, d.type = "empty_statement" ∨ d.form ≠ .expr

theorem Idle.tail {c : Concrete} {before : List Concrete} (h : Idle (c :: before)) : Idle before := by
  intro d hd
  refine h d ?_
  rw [List.filter_cons]
  split
  · rw [List.getLast?_cons, hd]
    rfl
  · exact hd

/-- Behind labels only, an idle semicolon stands behind a statement that is no expression. -/
theorem Idle.form_ne {c : Concrete} {labels : List Concrete} (h : Idle (c :: labels)) (hc : c.isStatement)
    (hlabels : labels.find? (fun d => d.type != "label") = none) : c.form ≠ .expr := by
  rw [isStatement, Bool.and_eq_true] at hc
  have hfilter : (c :: labels).filter (fun d => d.type != "label") = [c] := by
    rw [List.filter_cons, if_pos hc.1, List.filter_eq_nil_iff.2 (List.find?_eq_none.1 hlabels)]
  obtain hempty | hform := h c (by rw [hfilter]; rfl)
  · exact absurd hempty (bne_iff_ne.1 hc.2)
  · exact hform

/-- A semicolon that closes nothing changes no slot of a statement that could be closed. -/
theorem stmtSlots_insert {semicolon : Concrete} (hsemicolon : semicolon.type = "empty_statement")
    (behind : List Concrete) : ∀ {before : List Concrete}, Idle before →
      List.Forall₂ (fun slot slot' => slot.1 = slot'.1 ∧ (slot.1.form = .expr → slot.2 = slot'.2))
        (stmtSlots (before ++ semicolon :: behind)) (stmtSlots (before ++ behind))
  | [], _ => by
    have hskip : semicolon.isStatement = false := by
      rw [isStatement, hsemicolon]
      rfl
    rw [List.nil_append, List.nil_append, stmtSlots_of_not_isStatement hskip]
    exact List.forall₂_same.2 fun slot _ => ⟨rfl, fun _ => rfl⟩
  | c :: before, h => by
    have ih := stmtSlots_insert hsemicolon behind h.tail
    rw [List.cons_append, List.cons_append]
    cases hc : c.isStatement with
    | false => rwa [stmtSlots_of_not_isStatement hc, stmtSlots_of_not_isStatement hc]
    | true =>
      rw [stmtSlots_of_isStatement hc, stmtSlots_of_isStatement hc]
      refine .cons ⟨rfl, fun hform => ?_⟩ ih
      rw [semicolonAfter_eq, semicolonAfter_eq, closer?, closer?, List.find?_append, List.find?_append]
      cases hnext : before.find? fun d => d.type != "label" with
      | some d => rfl
      | none => exact absurd hform (h.form_ne hc hnext)

/-! ## Reading the statements -/

section Build

variable (parser : Parser) (opaqueMacros : List String) (t : Nat) (s : Snippet)

/-- Read the node that a statement carries: the binding, the item with the expressions below it, or the expression
that the statement consists of. -/
def readCarried (d : Concrete) : Read Node :=
  match d.form with
  | .binding =>
    match d.child? "pattern" with
    | none => throw (.missingField "pattern")
    | some pattern => do
      let init ← (d.child? "value").mapM fun value => build parser opaqueMacros t s (.expr value)
      return .binding (s.span d) (some (bindingPattern s d pattern)) init
  | .item => do
    let ns ← d.targets.mapM fun e => build parser opaqueMacros t s (.expr e)
    return .item (s.span d) d.type ns
  | .expr | .semi =>
    match d.subject? with
    | none => throw .missingPart
    | some e => build parser opaqueMacros t s (.expr e)

/-- Read the statements of a block, in order, each by itself. -/
def readStatements (c : Concrete) : Read (List Node) :=
  c.statements.mapM fun d => build parser opaqueMacros t s (.stmt d)

/-- The statements of a block, each closed by the semicolon behind it. -/
def closeAll (c : Concrete) (ms : List Node) : List Node :=
  List.zipWith (fun slot n => closeBy s slot.2 n) (stmtSlots c.parts) ms

theorem readAll_map (wrap : Concrete → Goal) (f : Goal → Read Node) : ∀ ds : List Concrete,
    readAll (ds.map wrap) (fun g _ => f g) = ds.mapM fun d => f (wrap d)
  | [] => by rw [List.mapM_nil]; rfl
  | d :: ds => by
    rw [List.mapM_cons, ← readAll_map wrap f ds]
    rfl

/-- A block is read by reading its statements and closing them. -/
theorem build_block (c : Concrete) : build parser opaqueMacros t s (.block c) = do
    let ms ← readStatements parser opaqueMacros t s c
    return .block (s.span c) (closeAll s c ms) := by
  have hparts : (stmtSlots c.parts).map (fun slot => Goal.stmt slot.1) = c.statements.map Goal.stmt := by
    rw [statements, ← map_fst_stmtSlots, List.map_map]
    rfl
  rw [build_of_not_isMacro rfl, readStatements, ← readAll_map Goal.stmt (build parser opaqueMacros t s), ← hparts]
  rfl

/-- A statement is read by reading the node that it carries. -/
theorem build_stmt (d : Concrete) : build parser opaqueMacros t s (.stmt d) = do
    let node ← readCarried parser opaqueMacros t s d
    return .stmt (s.span d) d.form node := by
  rw [build_of_not_isMacro rfl]
  simp only [plan, stmtPlan]
  by_cases hlet : d.type = "let_declaration"
  · have hform : d.form = .binding := if_pos hlet
    rw [readCarried, if_pos hlet, hform]
    cases d.child? "pattern" with
    | none => rfl
    | some pattern =>
      cases d.child? "value" with
      | none => rfl
      | some value =>
        simp only [Option.mapM_some, bind_assoc, pure_bind, bind_map_left]
        rfl
  by_cases hstmt : d.type = "expression_statement"
  · have hsubject : d.subject? = d.parts.head? := if_pos hstmt
    have hform : d.form = if d.children.any fun e => e.type == ";" then .semi else .expr := by
      rw [form, if_neg hlet, if_pos hstmt]
    rw [readCarried, if_neg hlet, if_pos hstmt, hsubject, hform]
    cases d.children.any fun e => e.type == ";" with
    | true => cases d.parts <;> rfl
    | false => cases d.parts <;> rfl
  by_cases hexpr : d.isExpr
  · have hform : d.form = .expr := by rw [form, if_neg hlet, if_neg hstmt, if_pos hexpr]
    have hsubject : d.subject? = some d := by rw [subject?, if_neg hstmt, if_pos ⟨hlet, hexpr⟩]
    rw [readCarried, if_neg hlet, if_neg hstmt, if_pos hexpr, hform, hsubject]
    rfl
  · have hform : d.form = .item := by rw [form, if_neg hlet, if_neg hstmt, if_neg hexpr]
    rw [readCarried, if_neg hlet, if_neg hstmt, if_neg hexpr, hform]
    simp only [bind_assoc, pure_bind]
    rw [← readAll_map Goal.expr (build parser opaqueMacros t s)]
    rfl

variable {parser opaqueMacros t s}

/-- Every statement is read as one of its form, over its range. -/
theorem carried_of_gives {d : Concrete} {p q : Progress} {m : Node}
    (h : Gives (build parser opaqueMacros t s (.stmt d)) p m q) :
    ∃ node, Gives (readCarried parser opaqueMacros t s d) p node q ∧ m = .stmt (s.span d) d.form node := by
  rw [build_stmt] at h
  obtain ⟨node, r, hnode, h⟩ := gives_bind.1 h
  obtain ⟨rfl, rfl⟩ := gives_pure.1 h
  exact ⟨node, hnode, rfl⟩

theorem gives_mapM {f : Concrete → Read Node} : ∀ {ds : List Concrete} {p q : Progress} {ms : List Node},
    Gives (ds.mapM f) p ms q → List.Forall₂ (fun d m => ∃ p q, Gives (f d) p m q) ds ms
  | [], p, q, ms, h => by
    rw [List.mapM_nil] at h
    obtain ⟨rfl, -⟩ := gives_pure.1 h
    exact .nil
  | d :: ds, p, q, ms, h => by
    rw [List.mapM_cons] at h
    obtain ⟨m, r, hm, h⟩ := gives_bind.1 h
    obtain ⟨rest, r', hrest, h⟩ := gives_bind.1 h
    obtain ⟨rfl, -⟩ := gives_pure.1 h
    exact .cons ⟨p, r, hm⟩ (gives_mapM hrest)

/-- What was read for a statement: a statement of its form, over its range, with the node that it carries. -/
def StatedAs (parser : Parser) (opaqueMacros : List String) (t : Nat) (s : Snippet) (d : Concrete) (m : Node) : Prop :=
  ∃ node p q, Gives (readCarried parser opaqueMacros t s d) p node q ∧ m = .stmt (s.span d) d.form node

/-- The statements that were read for the slots of a block. -/
theorem slots_of_gives {c : Concrete} {p q : Progress} {ms : List Node}
    (h : Gives (readStatements parser opaqueMacros t s c) p ms q) :
    List.Forall₂ (fun slot m => StatedAs parser opaqueMacros t s slot.1 m) (stmtSlots c.parts) ms := by
  have hms := gives_mapM h
  rw [statements, ← map_fst_stmtSlots, List.forall₂_map_left_iff] at hms
  refine hms.imp fun slot m ⟨p, q, hm⟩ => ?_
  obtain ⟨node, hnode, rfl⟩ := carried_of_gives hm
  exact ⟨node, p, q, hnode, rfl⟩

/-- Closing a statement of a form. -/
theorem closeBy_stmt (d : Concrete) (closer : Option Concrete) (node : Node) :
    closeBy s (closer.map Concrete.stop) (.stmt (s.span d) d.form node) = settled s d closer node := by
  cases closer with
  | none => rfl
  | some semicolon =>
    rw [settled]
    cases d.form <;> rfl

theorem closeBy_of_ne_expr {semicolon : Option Nat} {span : Span} {form : StmtForm} {node : Node}
    (h : form ≠ .expr) : closeBy s semicolon (.stmt span form node) = .stmt span form node := by
  cases semicolon with
  | none => rfl
  | some stop =>
    cases form with
    | expr => exact absurd rfl h
    | _ => rfl

/-- Slots that differ only where nothing can be closed close the same. -/
theorem zipWith_closeBy_congr {slots slots' : List (Concrete × Option Nat)} {ms : List Node}
    (h : List.Forall₂ (fun slot slot' => slot.1 = slot'.1 ∧ (slot.1.form = .expr → slot.2 = slot'.2)) slots slots')
    (hms : List.Forall₂ (fun slot m => StatedAs parser opaqueMacros t s slot.1 m) slots ms) :
    List.zipWith (fun slot n => closeBy s slot.2 n) slots ms =
      List.zipWith (fun slot n => closeBy s slot.2 n) slots' ms := by
  induction h generalizing ms with
  | nil => rfl
  | @cons slot slot' slots slots' hslot _ ih =>
    cases hms with
    | cons hm hms =>
      obtain ⟨node, p, q, -, rfl⟩ := hm
      rw [List.zipWith_cons_cons, List.zipWith_cons_cons, ih hms]
      by_cases hform : slot.1.form = .expr
      · rw [hslot.2 hform]
      · rw [closeBy_of_ne_expr hform, closeBy_of_ne_expr hform]

/-- What is at the place of a statement is read for it and then closed by the semicolon behind it. -/
theorem getElem?_closeAll {c d : Concrete} {before behind : List Concrete} (hparts : c.parts = before ++ d :: behind)
    (hd : d.isStatement) {p q : Progress} {ms : List Node}
    (h : Gives (readStatements parser opaqueMacros t s c) p ms q) :
    ∃ node r r', Gives (readCarried parser opaqueMacros t s d) r node r' ∧
      ms[(before.filter isStatement).length]? = some (.stmt (s.span d) d.form node) ∧
      (closeAll s c ms)[(before.filter isStatement).length]? = some (settled s d (closer? behind) node) := by
  have hslots := slots_of_gives h
  have hslot := stmtSlots_getElem? hd behind before
  rw [← hparts] at hslot
  obtain ⟨hi, hslot⟩ := List.getElem?_eq_some_iff.1 hslot
  have hi' : (before.filter isStatement).length < ms.length := hslots.length_eq ▸ hi
  have hread := hslots.get hi hi'
  rw [List.get_eq_getElem, List.get_eq_getElem, hslot] at hread
  obtain ⟨node, r, r', hnode, hm⟩ := hread
  have hms : ms[(before.filter isStatement).length]? = some (.stmt (s.span d) d.form node) := by
    rw [List.getElem?_eq_getElem hi', hm]
  refine ⟨node, r, r', hnode, hms, ?_⟩
  rw [closeAll, List.getElem?_zipWith, hms, List.getElem?_eq_getElem hi, hslot, semicolonAfter_eq, ← closeBy_stmt]

/-- A statement counts as one with a semicolon if there is one in it, or if it is an expression that one behind it
closes. -/
theorem settled_semi_iff {d : Concrete} {closer : Option Concrete} {node : Node} :
    (∃ span, settled s d closer node = .stmt span .semi node) ↔ d.form = .semi ∨ (d.form = .expr ∧ closer.isSome) := by
  cases closer with
  | none =>
    constructor
    · rintro ⟨span, h⟩
      rw [settled, Node.stmt.injEq] at h
      exact .inl h.2.1
    · rintro (hform | ⟨-, h⟩)
      · exact ⟨s.span d, by rw [settled, hform]⟩
      · cases h
  | some semicolon =>
    by_cases hexpr : d.form = .expr
    · exact iff_of_true ⟨_, if_pos hexpr⟩ (.inr ⟨hexpr, rfl⟩)
    · rw [settled, if_neg hexpr]
      constructor
      · rintro ⟨span, h⟩
        rw [Node.stmt.injEq] at h
        exact .inl h.2.1
      · rintro (hform | ⟨h, -⟩)
        · exact ⟨s.span d, by rw [hform]⟩
        · exact absurd h hexpr

theorem length_closeAll {c : Concrete} {p q : Progress} {ms : List Node}
    (h : Gives (readStatements parser opaqueMacros t s c) p ms q) :
    (closeAll s c ms).length = c.statements.length := by
  rw [closeAll, List.length_zipWith, ← (slots_of_gives h).length_eq, Nat.min_self, statements, ← map_fst_stmtSlots,
    List.length_map]

/-- A semicolon that closes nothing can be left out. -/
theorem run_build_insert {c c' semicolon : Concrete} {before behind : List Concrete}
    (hc : c.parts = before ++ semicolon :: behind) (hc' : c'.parts = before ++ behind) (hspan : s.span c' = s.span c)
    (hsemicolon : semicolon.type = "empty_statement") (hidle : Idle before) (p : Progress) :
    (build parser opaqueMacros t s (.block c)).run p = (build parser opaqueMacros t s (.block c')).run p := by
  have hskip : semicolon.isStatement = false := by
    rw [isStatement, hsemicolon]
    rfl
  have hstatements : c.statements = c'.statements := by
    rw [statements, statements, hc, hc', List.filter_append, List.filter_append,
      List.filter_cons_of_neg (Bool.eq_false_iff.1 hskip)]
  have hread : readStatements parser opaqueMacros t s c = readStatements parser opaqueMacros t s c' := by
    rw [readStatements, hstatements, readStatements]
  rw [build_block, build_block, run_bind, run_bind, ← hread, hspan]
  cases hms : (readStatements parser opaqueMacros t s c).run p with
  | mk result q =>
    cases result with
    | error fault => rfl
    | ok ms =>
      have hclose : closeAll s c ms = closeAll s c' ms := by
        have hinsert := stmtSlots_insert hsemicolon behind hidle
        rw [← hc, ← hc'] at hinsert
        exact zipWith_closeBy_congr hinsert (slots_of_gives hms)
      simp only [hclose]

/-- The statements of a block, for any parts: each is read by itself, in order, and stands in its place with the node
that it carries. It has a semicolon if there is one in it, or if it is an expression and the next part but for
labels is one, up to whose end it reaches then. Other semicolons can be left out. -/
theorem statements_of_build (c : Concrete) :
    (build parser opaqueMacros t s (.block c) = do
      let ms ← readStatements parser opaqueMacros t s c
      return .block (s.span c) (closeAll s c ms)) ∧
    (∀ d, build parser opaqueMacros t s (.stmt d) = do
      let node ← readCarried parser opaqueMacros t s d
      return .stmt (s.span d) d.form node) ∧
    (∀ p ms q, Gives (readStatements parser opaqueMacros t s c) p ms q →
      (closeAll s c ms).length = c.statements.length ∧
      ∀ before d behind, c.parts = before ++ d :: behind → d.isStatement →
        ∃ node r r', Gives (readCarried parser opaqueMacros t s d) r node r' ∧
          ms[(before.filter isStatement).length]? = some (.stmt (s.span d) d.form node) ∧
          (closeAll s c ms)[(before.filter isStatement).length]? = some (settled s d (closer? behind) node) ∧
          ((∃ span, settled s d (closer? behind) node = .stmt span .semi node) ↔
            (d.type = "expression_statement" ∧ ∃ e ∈ d.children, e.type = ";") ∨
              (d.form = .expr ∧ (closer? behind).isSome))) ∧
    (∀ c' semicolon before behind, c.children = before ++ semicolon :: behind → c'.children = before ++ behind →
      s.span c' = s.span c → semicolon.type = "empty_statement" → Idle (before.filter isPart) →
        ∀ p, (build parser opaqueMacros t s (.block c)).run p = (build parser opaqueMacros t s (.block c')).run p) := by
  refine ⟨build_block parser opaqueMacros t s c, build_stmt parser opaqueMacros t s, fun p ms q h => ⟨?_, ?_⟩, ?_⟩
  · exact length_closeAll h
  · intro before d behind hparts hd
    obtain ⟨node, r, r', hnode, hm, hclosed⟩ := getElem?_closeAll hparts hd h
    exact ⟨node, r, r', hnode, hm, hclosed, settled_semi_iff.trans (or_congr_left form_eq_semi_iff)⟩
  · intro c' semicolon before behind hc hc' hspan hsemicolon hidle p
    by_cases hpart : semicolon.isPart
    · have hparts : c.parts = before.filter isPart ++ semicolon :: behind.filter isPart := by
        rw [parts, hc, List.filter_append, List.filter_cons_of_pos hpart]
      have hparts' : c'.parts = before.filter isPart ++ behind.filter isPart := by
        rw [parts, hc', List.filter_append]
      exact run_build_insert hparts hparts' hspan hsemicolon hidle p
    · have hparts : c.parts = c'.parts := by
        rw [parts, parts, hc, hc', List.filter_append, List.filter_append, List.filter_cons_of_neg hpart]
      rw [build_block, build_block, readStatements, readStatements, statements, statements, hparts, hspan]
      simp only [closeAll, hparts]

end Build

/-! ### A statement among semicolons -/

section Loose

/-- A semicolon on its own. -/
def semicolonAt (start : Nat) : Concrete :=
  construct "empty_statement" start (start + 1) none [token ";" start (start + 1)]

/-- The conditional of `; if a {} ; ;`. -/
def looseStmt : Concrete := construct "expression_statement" 3 10 none [emptyIf 3]

/-- The block around `; if a {} ; ;`. -/
def looseBlock : Concrete :=
  construct "block" 0 16 none
    [token "\x7b" 0 1, semicolonAt 1, looseStmt, semicolonAt 11, semicolonAt 13, token "\x7d" 15 16]

/-- The same block without the semicolon in front. -/
def looseBlock' : Concrete :=
  construct "block" 0 16 none [token "\x7b" 0 1, looseStmt, semicolonAt 11, semicolonAt 13, token "\x7d" 15 16]

/-- In `; if a {} ; ;` the statement reaches up to the second semicolon, and the first one makes no difference. -/
theorem statements_of_build_loose :
    let s := Snippet.ofFile "; if a \x7b\x7d ; ;".toList
    (∃ ms node, Gives (readStatements (fun _ => none) [] endurance s looseBlock) {} ms {} ∧
      closeAll s looseBlock ms = [.stmt ⟨2, 11, .root⟩ .semi node]) ∧
    ∀ p, (build (fun _ => none) [] endurance s (.block looseBlock)).run p =
      (build (fun _ => none) [] endurance s (.block looseBlock')).run p := by
  intro s
  have hbody : Gives (build (fun _ => none) [] endurance s (.block (emptyBody 8))) {} (.block ⟨7, 9, .root⟩ []) {} :=
    gives_of_parts rfl rfl gives_nil rfl
  have hcond : Gives (build (fun _ => none) [] endurance s (.expr (letterAt 6))) {} (.path ⟨5, 6, .root⟩ ["a"]) {} :=
    gives_of_parts rfl rfl gives_nil rfl
  have hstmt := gives_of_parts (g := .stmt looseStmt) rfl rfl
    (gives_cons (gives_of_parts rfl rfl (gives_cons hbody (gives_cons hcond gives_nil)) rfl) gives_nil) rfl
  have hread : Gives (readStatements (fun _ => none) [] endurance s looseBlock) {} [_] {} :=
    gives_bind.2 ⟨_, _, hstmt, rfl⟩
  obtain ⟨-, -, hplaces, hinsert⟩ := @statements_of_build (fun _ => none) [] endurance s looseBlock
  refine ⟨?_, hinsert looseBlock' (semicolonAt 1) [token "\x7b" 0 1] _ rfl rfl rfl rfl ?_⟩
  · obtain ⟨hlength, hplaces⟩ := hplaces _ _ _ hread
    obtain ⟨node, r, r', -, -, hclosed, -⟩ := hplaces [semicolonAt 1] looseStmt _ rfl rfl
    obtain ⟨n, hn⟩ := List.length_eq_one_iff.1 hlength
    refine ⟨_, node, hread, ?_⟩
    rw [hn] at hclosed ⊢
    rw [Option.some.inj hclosed]
    rfl
  · intro d hd
    cases hd

end Loose

end Reader

end NestLint
