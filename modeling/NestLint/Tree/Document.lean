import NestLint.Json.Display
import NestLint.Json.Fold
import NestLint.Json.Misfit
import NestLint.Tree.Site

/-!
# Trees as documents

A node is an object with its kind under `k`, its span under `s`, and its parts under their names. A
span is a list of its bounds, followed by its origin unless that is the text written by hand.

Null is no node. Where a part may be missing, the slot is empty then. Anywhere else the tree is torn:
nothing can be said about it as a whole, but a walk gets as far as the gap.

* `Node.ofDocument`: the tree, or the trees before the gap;
* `documents_eq_map`: several nodes are written one after the other;
* `Site.document`: a node among the others, which are named by their places.
-/

namespace NestLint

namespace Span

/-- The span that a document stands for: its bounds, and its origin if it is not the root. -/
def ofDocument (j : Json) : Fitting Span := do
  match ← j.needParts with
  | .int lo :: .int hi :: .int id :: rest =>
    return if id = 0 then ⟨lo, hi, .root⟩ else ⟨lo, hi, ⟨id, rest.head?.bind Json.str?⟩⟩
  | .int lo :: .int hi :: _ => return ⟨lo, hi, .root⟩
  | _ :: _ :: _ => throw .wrongKind
  | _ => throw .unknown

/-- The span as a document. -/
def document (s : Span) : Json :=
  .list ([.int s.lo, .int s.hi] ++
    if s.origin.isRoot then [] else [.int s.origin.id, Json.ofString? s.origin.macroName])

/-- What there is to know about a span. -/
def sheet (s : Span) : Json :=
  .object [("span", s.document), ("repr", .str s.text), ("from_expansion", .bool s.fromExpansion)]

end Span

/-- What there is to know about an origin. -/
def Origin.sheet (o : Origin) : Json :=
  .object [("ctxt", .list [.int o.id, Json.ofString? o.macroName]), ("repr", .str o.text), ("is_root", .bool o.isRoot)]

/-- The name of an operator in documents. -/
def BinOp.code : BinOp → String
  | .as => "AS" | .mul => "MUL" | .div => "DIV" | .rem => "REM" | .add => "ADD" | .sub => "SUB" | .shl => "SHL"
  | .shr => "SHR" | .bitAnd => "BIT_AND" | .bitXor => "BIT_XOR" | .bitOr => "BIT_OR" | .eq => "EQ" | .ne => "NE"
  | .lt => "LT" | .le => "LE" | .gt => "GT" | .ge => "GE" | .and => "AND" | .or => "OR" | .range => "RANGE"
  | .rangeInclusive => "RANGE_INCLUSIVE" | .assign => "ASSIGN"

/-- The operator of a name. -/
def BinOp.ofCode? (code : String) : Option BinOp := BinOp.all.find? fun op => op.code == code

/-- The operator that a value is the symbol of. -/
def BinOp.ofValue? (value : Json) : Option BinOp := value.str?.bind BinOp.ofSymbol?

/-- What is reported for a value that is the symbol of no operator. -/
def BinOp.unknownValueMessage (value : Json) : String := BinOp.unknownMark ++ value.display

/-- The direction of a name. -/
def Associativity.ofName? (name : String) : Option Associativity :=
  [Associativity.left, .right, .both, .neither].find? fun side => side.name == name

/-- What there is to know about an operator. -/
def BinOp.sheet (op : BinOp) : Json :=
  .list [.str op.code, .str op.symbol, .int op.precedence, .str op.associativity.name, .bool op.isShift,
    .bool op.isArith]

/-- The name of an operator in documents. -/
def UnOp.code : UnOp → String
  | .not => "NOT" | .neg => "NEG" | .deref => "DEREF" | .ref => "REF"

/-- The operator of a name. -/
def UnOp.ofCode? (code : String) : Option UnOp := UnOp.all.find? fun op => op.code == code

/-- The kind of a name. -/
def Kind.ofName? (name : String) : Option Kind := Kind.all.find? fun kind => kind.name == name

/-- The form of a name. -/
def StmtForm.ofName? (name : String) : Option StmtForm := StmtForm.all.find? fun form => form.name == name

namespace Node

/-! ## Reading -/

/-- A tree that may be torn: where a node is missing, what is left are the trees that stand before
the gap. -/
abbrev Grown : Type := Except (List Node) Node

/-- What a value stands for where a node may be, null standing for none, and where several nodes
are. -/
structure Reading where
  node : Fitting (Option Grown)
  nodes : Fitting (List (Option Grown))

/-- The parts of a node, put side by side from left to right up to the first gap. -/
abbrev Growing : Type → Type := StateT (List Node) (Except (List Node))

/-- The node that comes from its parts. -/
def grown (node : Growing Node) : Grown := (node.run []).map Prod.fst

/-- The next part, which may be missing. -/
def spare (part : Option Grown) : Growing (Option Node) := do
  match part with
  | none => return none
  | some (.ok n) =>
    modify (· ++ [n])
    return some n
  | some (.error before) => throw ((← get) ++ before)

/-- The next part. If it is missing, there is a gap. -/
def vital (part : Option Grown) : Growing Node := do
  match ← spare part with
  | some n => return n
  | none => throw (← get)

/-- The node of an object whose parts have been read. -/
def assemble (members : Dict Json) (parts : Dict Reading) : Fitting Grown := do
  let j := Json.object members
  let kind ← Misfit.unknown.orElse (Kind.ofName? (← j.needText "k" .unknown))
  let span ← Span.ofDocument (← j.need "s")
  let spare? (key : String) : Fitting (Option Grown) := (Dict.get? parts key).elim (.ok none) Reading.node
  let part (key : String) : Fitting (Option Grown) := (Dict.get? parts key).elim (.error .wrongKind) Reading.node
  let several (key : String) : Fitting (List (Option Grown)) := (Dict.get? parts key).elim (.ok []) Reading.nodes
  let one (key : String) (node : Node → Node) : Fitting Grown := do
    let p ← part key
    return grown do return node (← vital p)
  let two (first second : String) (node : Node → Node → Node) : Fitting Grown := do
    let p ← part first
    let q ← part second
    return grown do return node (← vital p) (← vital q)
  let many (key : String) (node : List Node → Node) : Fitting Grown := do
    let ps ← several key
    return grown do return node (← ps.mapM vital)
  match kind with
  | .block => many "stmts" (.block span)
  | .stmt =>
    let form ← Misfit.unknown.orElse (StmtForm.ofName? (j.textAt "stmt_kind"))
    one "node" (.stmt span form)
  | .binding =>
    let (p, init) := (← part "pat", ← spare? "init")
    return grown do return .binding span (← spare p) (← spare init)
  | .pat => return .ok (.pat span)
  | .ifThen =>
    let (cond, body, els) := (← part "cond", ← part "then", ← spare? "els")
    return grown do return .ifThen span (← spare cond) (← spare body) (← spare els)
  | .ifLet =>
    let (p, scrutinee, body, els) := (← part "pat", ← part "scrutinee", ← part "then", ← spare? "els")
    return grown do return .ifLet span (← spare p) (← spare scrutinee) (← spare body) (← spare els)
  | .path => return .ok (.path span (j.textsAt "segments"))
  | .lit => return .ok (.lit span (j.textAt "value"))
  | .call =>
    let (func, args) := (← part "func", ← several "args")
    return grown do return .call span (← vital func) (← args.mapM vital)
  | .methodCall =>
    let (receiver, args) := (← part "receiver", ← several "args")
    return grown do return .methodCall span (← vital receiver) (j.textAt "method") (← args.mapM vital)
  | .field => one "base" fun base => .field span base (j.textAt "name")
  | .binary =>
    let op ← Misfit.missing.orElse (BinOp.ofCode? (j.textAt "op"))
    two "lhs" "rhs" (.binary span op)
  | .unary =>
    let op ← Misfit.missing.orElse (UnOp.ofCode? (j.textAt "op"))
    one "operand" (.unary span op)
  | .paren => one "inner" (.paren span)
  | .cast => one "expr" fun expr => .cast span expr (j.textAt "ty")
  | .assign =>
    let op ← match j.member "op" with
      | .null => pure none
      | name => Misfit.missing.orElse ((name.str?.bind BinOp.ofCode?).map some)
    two "target" "value" fun target value => .assign span target value op
  | .range =>
    let (lo, hi) := (← spare? "start", ← spare? "end")
    return grown do return .range span (← spare lo) (← spare hi) (j.isOn "inclusive")
  | .macroCall => return .ok (.macroCall span (j.textAt "name"))
  | .closure =>
    let (params, body) := (← several "params", ← part "body")
    return grown do return .closure span (← params.mapM vital) (← vital body)
  | .blockExpr => one "block" (.blockExpr span)
  | .other => many "children" (.other span (j.textAt "label"))
  | .item => many "children" (.item span (j.textAt "label"))

/-- What a value stands for. -/
def reading : Json → Reading :=
  Json.fold
    { leaf := fun value => { node := if value == .null then .ok none else .error .wrongKind, nodes := .error .wrongKind }
      list := fun _ parts => { node := .error .wrongKind, nodes := parts.mapM Reading.node }
      object := fun members parts => { node := (assemble members parts).map some, nodes := .error .wrongKind } }

/-- The tree that a document stands for. -/
def ofDocument (j : Json) : Fitting Grown := return (← (reading j).node).getD (.error [])

/-! ## Writing -/

/-- The object of a node of a kind. -/
def sheet (kind : Kind) (s : Span) (parts : Dict Json) : Json :=
  .object (("k", .str kind.name) :: ("s", s.document) :: parts)

mutual

/-- The tree as a document. -/
def document : Node → Json
  | .block s stmts => sheet .block s [("stmts", .list (documents stmts))]
  | .stmt s form node => sheet .stmt s [("stmt_kind", .str form.name), ("node", document node)]
  | .binding s p init => sheet .binding s [("pat", document? p), ("init", document? init)]
  | .pat s => sheet .pat s []
  | .ifThen s cond body els =>
    sheet .ifThen s [("cond", document? cond), ("then", document? body), ("els", document? els)]
  | .ifLet s p scrutinee body els =>
    sheet .ifLet s [("pat", document? p), ("scrutinee", document? scrutinee), ("then", document? body),
      ("els", document? els)]
  | .path s segments => sheet .path s [("segments", Json.ofStrings segments)]
  | .lit s value => sheet .lit s [("value", .str value)]
  | .call s func args => sheet .call s [("func", document func), ("args", .list (documents args))]
  | .methodCall s receiver method args =>
    sheet .methodCall s [("receiver", document receiver), ("method", .str method), ("args", .list (documents args))]
  | .field s base name => sheet .field s [("base", document base), ("name", .str name)]
  | .binary s op lhs rhs => sheet .binary s [("op", .str op.code), ("lhs", document lhs), ("rhs", document rhs)]
  | .unary s op operand => sheet .unary s [("op", .str op.code), ("operand", document operand)]
  | .paren s inner => sheet .paren s [("inner", document inner)]
  | .cast s expr type => sheet .cast s [("expr", document expr), ("ty", .str type)]
  | .assign s target value op =>
    sheet .assign s [("target", document target), ("value", document value), ("op", Json.ofString? (op.map BinOp.code))]
  | .range s lo hi inclusive =>
    sheet .range s [("start", document? lo), ("end", document? hi), ("inclusive", .bool inclusive)]
  | .macroCall s name => sheet .macroCall s [("name", .str name)]
  | .closure s params body => sheet .closure s [("params", .list (documents params)), ("body", document body)]
  | .blockExpr s body => sheet .blockExpr s [("block", document body)]
  | .other s label parts => sheet .other s [("label", .str label), ("children", .list (documents parts))]
  | .item s label parts => sheet .item s [("label", .str label), ("children", .list (documents parts))]

/-- Several trees, each as a document. -/
def documents : List Node → List Json
  | [] => []
  | n :: rest => document n :: documents rest

/-- A part that may be missing. -/
def document? : Option Node → Json
  | none => .null
  | some n => document n

end

theorem documents_eq_map (ns : List Node) : documents ns = ns.map document := by
  induction ns with
  | nil => rfl
  | cons n rest ih => simp [documents, ih]

end Node

/-- Places as a document. -/
def Site.indexes (sites : List Site) : Json := .list (sites.map fun site => .int site.index)

/-- What there is to know about a node without looking into its parts. -/
def Site.document (site : Site) : Json :=
  .object [("repr", .str site.text), ("kind", .str site.kind.name), ("is_expr", .bool site.isExpr),
    ("children", indexes site.children)]

/-- What there is to know about all nodes of a tree: each of them, the expressions in the order in
which they are matched, the names that paths spell, and the statements of blocks. -/
def Node.outline (root : Node) : Json :=
  .object [("nodes", .list (root.sites.map Site.document)), ("walk_exprs", Site.indexes root.exprSites),
    ("paths", .list (root.sites.filterMap fun site =>
      match site.node with
      | .path _ segments => some (.str (pathName segments))
      | _ => none)),
    ("blocks", .list (root.sites.filterMap fun site => site.stmts?.map fun stmts =>
      .list [.int stmts.length, Site.indexes stmts]))]

end NestLint
