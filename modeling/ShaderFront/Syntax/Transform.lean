import ShaderFront.Syntax.Visit

/-!
# Transforming a unit in place

A transformer goes through a unit in the order of a visitor. When it leaves a node it may give
another node to be stored under the same id. Children are done before their parent is left, so a
parent sees its children in their final form, and a node that was stored is not looked into again.
Hooks run whatever the mode; the mode only says whether their replacements are stored.
-/

namespace ShaderFront

/-- The sorts of nodes whose replacements are stored. -/
structure TransformMode where
  exprs : Bool
  stmts : Bool
  deriving DecidableEq, Repr, Inhabited

namespace TransformMode

def all : TransformMode := ⟨true, true⟩

def none : TransformMode := ⟨false, false⟩

/-- One for expressions, two for statements. -/
def bits (m : TransformMode) : Nat := (if m.exprs then 1 else 0) + (if m.stmts then 2 else 0)

end TransformMode

/-- What to do on the way through a unit. Hooks see the arena as it is at that moment, and may look
up nodes in it. -/
structure Transformer (σ : Type) where
  mode : TransformMode := .all
  enterItem : Arena → Item → σ → Except Fault σ := fun _ _ s => .ok s
  leaveItem : Arena → Item → σ → Except Fault σ := fun _ _ s => .ok s
  enterStmt : Arena → StmtId → σ → Except Fault σ := fun _ _ s => .ok s
  leaveStmt : Arena → StmtId → σ → Except Fault (Option Stmt × σ) :=
    fun _ _ s => .ok (.none, s)
  leaveExpr : Arena → ExprId → σ → Except Fault (Option Expr × σ) :=
    fun _ _ s => .ok (.none, s)

namespace Transformer

variable {σ : Type} (r : Transformer σ)

/-- Stores the replacement of an expression if the mode allows it. -/
def storeExpr (id : ExprId) (replacement : Option Expr) (a : Arena) : Arena :=
  match replacement with
  | some e => if r.mode.exprs then a.setExpr id e else a
  | none => a

/-- Stores the replacement of a statement if the mode allows it. -/
def storeStmt (id : StmtId) (replacement : Option Stmt) (a : Arena) : Arena :=
  match replacement with
  | some s => if r.mode.stmts then a.setStmt id s else a
  | none => a

/-- Goes through an expression; `depth` bounds how many expressions lie on a path below it. -/
def transformExpr : (depth : Nat) → ExprId → Arena × σ → Except Fault (Arena × σ)
  | 0, _, _ => .error .cyclic
  | depth + 1, id, s => do
    let e ← s.1.expr id
    let (a, s) ← e.form.children.foldlM (fun s child => transformExpr depth child s) s
    let (replacement, s) ← r.leaveExpr a id s
    return (r.storeExpr id replacement a, s)

/-- Goes through a statement. -/
def transformStmt : (depth : Nat) → StmtId → Arena × σ → Except Fault (Arena × σ)
  | 0, _, _ => .error .cyclic
  | depth + 1, id, (a, s) => do
    let stmt ← a.stmt id
    let s ← r.enterStmt a id s
    let (a, s) ← stmt.form.children.foldlM (fun (s : Arena × σ) child =>
      match child with
      | .inl e => r.transformExpr s.1.exprDepth e s
      | .inr t => transformStmt depth t s) (a, s)
    let (replacement, s) ← r.leaveStmt a id s
    return (r.storeStmt id replacement a, s)

/-- Goes through an item. -/
def transformItem (item : Item) (s : Arena × σ) : Except Fault (Arena × σ) := do
  let entered ← r.enterItem s.1 item s.2
  let (a, s) ← item.children.foldlM (fun (s : Arena × σ) child =>
    match child with
    | .inl e => r.transformExpr s.1.exprDepth e s
    | .inr t => r.transformStmt s.1.stmtDepth t s) (s.1, entered)
  let s ← r.leaveItem a item s
  return (a, s)

/-- Goes through every item of a unit in order. -/
def run (u : ShaderUnit) (s : σ) : Except Fault (ShaderUnit × σ) := do
  let (a, s) ← u.items.foldlM (fun s item => r.transformItem item s) (u.arena, s)
  return ({ u with arena := a }, s)

/-! ## What a store changes -/

theorem storeExpr_of_mode_off (h : r.mode.exprs = false) (id : ExprId) (e : Option Expr)
    (a : Arena) : r.storeExpr id e a = a := by
  cases e <;> simp [storeExpr, h]

theorem storeStmt_of_mode_off (h : r.mode.stmts = false) (id : StmtId) (s : Option Stmt)
    (a : Arena) : r.storeStmt id s a = a := by
  cases s <;> simp [storeStmt, h]

end Transformer
end ShaderFront
