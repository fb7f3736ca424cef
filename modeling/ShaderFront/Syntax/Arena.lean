import ShaderFront.Syntax.Node

/-!
# Units and their nodes

A unit is a file with its items and an arena of nodes. Nodes refer to their children by id, so a
node replaced in place is seen by every parent that refers to its id. Looking up an id that was
never given out is a fault.
-/

namespace ShaderFront

/-- Why a computation over an arena cannot go on. -/
inductive Fault where
  | missingExpr (id : ExprId)
  | missingStmt (id : StmtId)
  /-- A node is its own descendant. -/
  | cyclic
  deriving DecidableEq, Repr

/-- The nodes of a unit under their ids. -/
structure Arena where
  exprs : Array Expr := #[]
  stmts : Array Stmt := #[]
  deriving DecidableEq, Repr, Inhabited

namespace Arena

def expr? (a : Arena) (id : ExprId) : Option Expr := a.exprs[id.index]?

def stmt? (a : Arena) (id : StmtId) : Option Stmt := a.stmts[id.index]?

/-- Looks an expression up that has to be there. -/
def expr (a : Arena) (id : ExprId) : Except Fault Expr :=
  match a.expr? id with
  | some e => .ok e
  | none => .error (.missingExpr id)

/-- Looks a statement up that has to be there. -/
def stmt (a : Arena) (id : StmtId) : Except Fault Stmt :=
  match a.stmt? id with
  | some s => .ok s
  | none => .error (.missingStmt id)

/-- Adds an expression under the next id. -/
def addExpr (a : Arena) (e : Expr) : ExprId × Arena :=
  (⟨a.exprs.size⟩, { a with exprs := a.exprs.push e })

/-- Adds a statement under the next id. -/
def addStmt (a : Arena) (s : Stmt) : StmtId × Arena :=
  (⟨a.stmts.size⟩, { a with stmts := a.stmts.push s })

/-- Stores another expression under an id; nothing changes if the id was never given out. -/
def setExpr (a : Arena) (id : ExprId) (e : Expr) : Arena :=
  { a with exprs := a.exprs.setIfInBounds id.index e }

/-- Stores another statement under an id; nothing changes if the id was never given out. -/
def setStmt (a : Arena) (id : StmtId) (s : Stmt) : Arena :=
  { a with stmts := a.stmts.setIfInBounds id.index s }

/-- Replaces an expression and gives the old one. -/
def replaceExpr (a : Arena) (id : ExprId) (e : Expr) : Except Fault (Expr × Arena) :=
  (a.expr id).map fun old => (old, a.setExpr id e)

def replaceStmt (a : Arena) (id : StmtId) (s : Stmt) : Except Fault (Stmt × Arena) :=
  (a.stmt id).map fun old => (old, a.setStmt id s)

/-- The expressions that differ between two arenas, with what the second one holds. -/
def changedExprs (before after : Arena) : List (Nat × Expr) :=
  after.exprs.toList.zipIdx.filterMap fun (e, i) =>
    if before.exprs[i]? = some e then none else some (i, e)

/-- The statements that differ between two arenas, with what the second one holds. -/
def changedStmts (before after : Arena) : List (Nat × Stmt) :=
  after.stmts.toList.zipIdx.filterMap fun (s, i) =>
    if before.stmts[i]? = some s then none else some (i, s)

/-! ## Looking up after a change -/

@[simp] theorem expr?_addExpr_new (a : Arena) (e : Expr) :
    (a.addExpr e).2.expr? (a.addExpr e).1 = some e := by
  simp [addExpr, expr?]

@[simp] theorem expr?_setExpr_self (a : Arena) (id : ExprId) (e : Expr)
    (h : id.index < a.exprs.size) : (a.setExpr id e).expr? id = some e := by
  simp [setExpr, expr?, h]

@[simp] theorem expr?_setExpr_ne (a : Arena) (id other : ExprId) (e : Expr) (h : other ≠ id) :
    (a.setExpr id e).expr? other = a.expr? other := by
  have : id.index ≠ other.index := fun hi => h (by cases id; cases other; simp_all)
  simp [setExpr, expr?, this]

@[simp] theorem stmt?_setExpr (a : Arena) (id : ExprId) (e : Expr) (s : StmtId) :
    (a.setExpr id e).stmt? s = a.stmt? s := rfl

@[simp] theorem expr?_setStmt (a : Arena) (id : StmtId) (s : Stmt) (e : ExprId) :
    (a.setStmt id s).expr? e = a.expr? e := rfl

/-- A statement is looked up among the statements alone. -/
theorem stmt?_congr {a b : Arena} (same : b.stmts = a.stmts) (id : StmtId) :
    b.stmt? id = a.stmt? id := by
  rw [stmt?, same, stmt?]

@[simp] theorem stmt?_setStmt_ne (a : Arena) (id other : StmtId) (s : Stmt) (h : other ≠ id) :
    (a.setStmt id s).stmt? other = a.stmt? other := by
  have : id.index ≠ other.index := fun hi => h (by cases id; cases other; simp_all)
  simp [setStmt, stmt?, this]

@[simp] theorem size_setExpr (a : Arena) (id : ExprId) (e : Expr) :
    (a.setExpr id e).exprs.size = a.exprs.size := by
  simp [setExpr]

@[simp] theorem size_setStmt (a : Arena) (id : StmtId) (s : Stmt) :
    (a.setStmt id s).stmts.size = a.stmts.size := by
  simp [setStmt]

end Arena

/-- A file of shader code. -/
structure ShaderUnit where
  file : Nat := 0
  items : List Item := []
  arena : Arena := {}
  deriving DecidableEq, Repr, Inhabited

end ShaderFront
