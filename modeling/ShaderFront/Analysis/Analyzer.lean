import ShaderFront.Analysis.Checking
import ShaderFront.Syntax.Transform

/-!
# Semantic analysis

One pass over a unit types every expression and checks every statement. The pass is a transformer:
on the way it strips parentheses, which carry nothing once the tree is built. Nothing stops it, so
one run finds every defect.
-/

namespace ShaderFront

/-- The types of expressions by id. -/
structure TypeTable where
  slots : Array (Option Ty)
  deriving DecidableEq, Repr

namespace TypeTable

/-- No types yet, for a number of expressions. -/
def empty (size : Nat) : TypeTable := ⟨Array.replicate size none⟩

/-- The type that was recorded for an expression. -/
def get? (t : TypeTable) (id : ExprId) : Option Ty := t.slots[id.index]?.join

/-- Records a type, in place of an earlier one of the same expression. -/
def insert (t : TypeTable) (id : ExprId) (ty : Ty) : TypeTable :=
  ⟨t.slots.setIfInBounds id.index (some ty)⟩

/-- The typed expressions in the order of their ids. -/
def toList (t : TypeTable) : List (Nat × Ty) :=
  t.slots.toList.zipIdx.filterMap fun (ty, i) => ty.map (i, ·)

theorem get?_insert_self (t : TypeTable) (id : ExprId) (ty : Ty) (h : id.index < t.slots.size) :
    (t.insert id ty).get? id = some ty := by
  simp [get?, insert, h]

theorem get?_insert_ne (t : TypeTable) (id other : ExprId) (ty : Ty) (h : other ≠ id) :
    (t.insert id ty).get? other = t.get? other := by
  have : id.index ≠ other.index := fun hi => h (by cases id; cases other; simp_all)
  simp [get?, insert, this]

end TypeTable

/-- Options of a run. -/
structure AnalysisConfig where
  transform : TransformMode := .all
  warnOnTruncation : Bool := true
  deriving DecidableEq, Repr

/-- Options of a run that leaves the unit as it is. -/
def AnalysisConfig.readOnly : AnalysisConfig := { transform := .none }

/-- What a run has found so far. -/
structure Analyzer where
  place : Place := {}
  types : TypeTable
  replacements : Nat := 0
  findings : List Finding := []
  deriving DecidableEq, Repr

/-- The form of an expression behind any parentheses around it. -/
def Arena.core (a : Arena) : (depth : Nat) → ExprId → Except Fault (ExprForm ExprId)
  | 0, _ => .error .cyclic
  | depth + 1, id => do
    let e ← a.expr id
    match e.form with
    | .paren inner => a.core depth inner
    | form => return form

namespace Analyzer

/-- What the rules see of an expression at this moment. -/
def operand (s : Analyzer) (a : Arena) (id : ExprId) : Except Fault Operand := do
  let e ← a.expr id
  let core ← a.core a.exprDepth id
  return ⟨s.types.get? id, e.span, core⟩

/-- What the rules see of an expression that may be left out. -/
def optionalOperand (s : Analyzer) (a : Arena) (id : Option ExprId) :
    Except Fault (Option Operand) :=
  match id with
  | none => return none
  | some id => return some (← s.operand a id)

/-- A declaration with its initial value replaced by what the rules see of it. -/
def declOperands (s : Analyzer) (a : Arena) (decl : VarDecl ExprId) :
    Except Fault (VarDecl Operand) := do
  let init ← s.optionalOperand a decl.init
  return ⟨decl.name, decl.type, init, decl.span⟩

/-- A statement with its expressions replaced by what the rules see of them. -/
def stmtOperands (s : Analyzer) (a : Arena) :
    StmtForm ExprId StmtId → Except Fault (StmtForm Operand StmtId)
  | .expr e => return .expr (← s.operand a e)
  | .declare decl => return .declare (← s.declOperands a decl)
  | .block body => return .block body
  | .ifElse c yes no => return .ifElse (← s.operand a c) yes no
  | .forLoop init c step body =>
    return .forLoop init (← s.optionalOperand a c) (← s.optionalOperand a step) body
  | .whileLoop c body => return .whileLoop (← s.operand a c) body
  | .returns value => return .returns (← s.optionalOperand a value)
  | .discard => return .discard
  | .breakLoop => return .breakLoop
  | .continueLoop => return .continueLoop
  | .empty => return .empty

/-- The state at a new place, with what was found on the way. -/
def moveTo (s : Analyzer) (p : Reported Place) : Analyzer :=
  { s with place := p.value, findings := s.findings ++ p.findings }

/-- Enters the type of an expression, if it has one. -/
def record (s : Analyzer) (id : ExprId) (type : Reported (Option Ty)) : Analyzer :=
  { s with
    types := match type.value with
      | some ty => s.types.insert id ty
      | none => s.types
    findings := s.findings ++ type.findings }

variable (rules : Rules) (mode : TransformMode)

/-- Going into a function declares its parameters, in a scope of their own. -/
def enterItem (item : Item) (s : Analyzer) : Analyzer :=
  match item with
  | .function f => s.moveTo (rules.enterFunction s.place f)
  | _ => s

/-- A global is declared when it is left, so that its initial value does not see it. -/
def leaveItem (a : Arena) (item : Item) (s : Analyzer) : Except Fault Analyzer := do
  match item with
  | .function _ => return { s with place := Rules.leaveFunction s.place }
  | .global decl => return s.moveTo (rules.declaration s.place (← s.declOperands a decl))
  | .struct _ | .typedef _ => return s

/-- A block and a `for` loop open a scope for what lies in them. -/
def enterStmt (a : Arena) (id : StmtId) (s : Analyzer) : Except Fault Analyzer := do
  let stmt ← a.stmt id
  return if stmt.form.opensScope then { s with place := s.place.enterScope } else s

/-- A statement is checked when all that lies in it has been. It is never replaced. -/
def leaveStmt (a : Arena) (id : StmtId) (s : Analyzer) :
    Except Fault (Option Stmt × Analyzer) := do
  let stmt ← a.stmt id
  let form ← s.stmtOperands a stmt.form
  return (none, s.moveTo (rules.statement s.place stmt.span form))

/-- Types an expression. Parentheses give way to what they enclose. -/
def leaveExpr (a : Arena) (id : ExprId) (s : Analyzer) :
    Except Fault (Option Expr × Analyzer) := do
  let e ← a.expr id
  let form ← e.form.mapM (s.operand a)
  let s := s.record id (rules.type s.place.scope e.span form)
  match e.form with
  | .paren inner =>
    let stored := if mode.exprs then 1 else 0
    return (some (← a.expr inner), { s with replacements := s.replacements + stored })
  | _ => return (none, s)

/-- The pass as a transformer. -/
def transformer : Transformer Analyzer where
  mode := mode
  enterItem _ item s := .ok (enterItem rules item s)
  leaveItem := leaveItem rules
  enterStmt := enterStmt
  leaveStmt := leaveStmt rules
  leaveExpr := leaveExpr rules mode

end Analyzer

/-- The outcome of a run: the unit it left, what it collected and found, and the types. -/
structure Analysis where
  unit : ShaderUnit
  items : ItemTable
  types : TypeTable
  replacements : Nat
  findings : List Finding
  deriving DecidableEq, Repr

/-- Analyses a unit: collects its items, then checks every global and every body in order. -/
def analyze (u : ShaderUnit) (config : AnalysisConfig) : Except Fault Analysis := do
  let items := ItemTable.collect u
  let rules : Rules := ⟨items.value, config.warnOnTruncation⟩
  let start : Analyzer := { types := .empty u.arena.exprs.size, findings := items.findings }
  let (unit, s) ← (Analyzer.transformer rules config.transform).run u start
  return ⟨unit, items.value, s.types, s.replacements, s.findings⟩

namespace Analysis

/-- The diagnostics of a run in the order in which they were emitted. -/
def diagnostics (a : Analysis) : List Diagnostic := a.findings.map (·.diagnostic)

/-- No error was found. -/
def succeeded (a : Analysis) : Bool := a.diagnostics.all (!·.isError)

end Analysis
end ShaderFront
