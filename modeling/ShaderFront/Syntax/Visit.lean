import ShaderFront.Syntax.Arena

/-!
# Visiting a unit

A visitor sees every node below the items of a unit, depth first and in source order, once when it
is entered and once when it is left, and may decline to look inside a node. It carries a state and
changes nothing.

Nothing in an arena forbids a node from containing itself. The walks below therefore count how deep
they are: below more nodes than the arena has, a node must have come up twice.
-/

namespace ShaderFront

/-- What to do at each kind of node. An `enter` function also says whether to look inside; a node
that is not looked into is not left either. -/
structure Visitor (σ : Type) where
  enterItem : Item → σ → σ := fun _ s => s
  leaveItem : Item → σ → σ := fun _ s => s
  enterStmt : StmtId → Stmt → σ → Bool × σ := fun _ _ s => (true, s)
  leaveStmt : StmtId → Stmt → σ → σ := fun _ _ s => s
  enterExpr : ExprId → Expr → σ → Bool × σ := fun _ _ s => (true, s)
  leaveExpr : ExprId → Expr → σ → σ := fun _ _ s => s

/-- More nodes of one sort than a path through the arena can hold without repeating one. -/
def Arena.exprDepth (a : Arena) : Nat := a.exprs.size + 1

/-- Bounds the depth of a walk through statements: no path without a cycle is longer. -/
def Arena.stmtDepth (a : Arena) : Nat := a.stmts.size + 1

namespace Visitor

variable {σ : Type} (v : Visitor σ) (a : Arena)

/-- Visits an expression; `depth` bounds how many expressions lie on a path below it. -/
def walkExpr : (depth : Nat) → ExprId → σ → Except Fault σ
  | 0, _, _ => .error .cyclic
  | depth + 1, id, s => do
    let e ← a.expr id
    let (inside, s) := v.enterExpr id e s
    if inside then
      let s ← e.form.children.foldlM (fun s child => walkExpr depth child s) s
      return v.leaveExpr id e s
    else return s

/-- Visits a statement. -/
def walkStmt : (depth : Nat) → StmtId → σ → Except Fault σ
  | 0, _, _ => .error .cyclic
  | depth + 1, id, s => do
    let stmt ← a.stmt id
    let (inside, s) := v.enterStmt id stmt s
    if inside then
      let s ← stmt.form.children.foldlM (fun s child =>
        match child with
        | .inl e => v.walkExpr a a.exprDepth e s
        | .inr t => walkStmt depth t s) s
      return v.leaveStmt id stmt s
    else return s

/-- Visits an item. -/
def walkItem (item : Item) (s : σ) : Except Fault σ := do
  let s ← item.children.foldlM (fun s child =>
    match child with
    | .inl e => v.walkExpr a a.exprDepth e s
    | .inr t => v.walkStmt a a.stmtDepth t s) (v.enterItem item s)
  return v.leaveItem item s

/-- Visits every item of a unit in order. -/
def walk (u : ShaderUnit) (s : σ) : Except Fault σ :=
  u.items.foldlM (fun s item => v.walkItem u.arena item s) s

end Visitor
end ShaderFront
