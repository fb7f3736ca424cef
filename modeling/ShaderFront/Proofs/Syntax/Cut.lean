import ShaderFront.Proofs.Syntax.Forest
import ShaderFront.Proofs.Syntax.Paren

/-!
# Subtrees that give way to an error

The slot of an expression is made to hold an error node. Nothing lies below that node, so what lay
below the expression is cut off; no other slot changes. What is found behind parentheses stays the
same, unless they enclose the expression.
-/

namespace ShaderFront

open Relation

namespace Arena

/-- The arena in which an expression has given way to an error. -/
def cut (a : Arena) (root : ExprId) (span : Span) : Arena := a.setExpr root ⟨.error, span⟩

/-- What lies below an expression, without the expression itself. -/
def under (a : Arena) (root : ExprId) : Set ExprId := {id | TransGen a.Child root id}

variable {a : Arena} {root id : ExprId} {span : Span}

theorem below_iff : a.Below root id ↔ id = root ∨ id ∈ a.under root :=
  reflTransGen_iff_eq_or_transGen

/-- An expression and what lies below it. -/
theorem extent_root : a.extent [.inl root] = insert root (a.under root) := by
  ext id
  rw [mem_extent_expr, below_iff, Set.mem_insert_iff]

theorem Acyclic.notMem_under (h : a.Acyclic) (root : ExprId) : root ∉ a.under root := h.exprs root

theorem expr?_cut_ne (h : id ≠ root) : (a.cut root span).expr? id = a.expr? id :=
  a.expr?_setExpr_ne root id _ h

theorem expr?_cut_self {e : Expr} (get : a.expr? root = some e) :
    (a.cut root span).expr? root = some ⟨.error, span⟩ :=
  a.expr?_setExpr_self root _ (Array.getElem?_eq_some_iff.1 get).1

theorem size_cut : (a.cut root span).exprs.size = a.exprs.size := a.size_setExpr root _

/-- The slot holds an error if it holds anything. -/
theorem eq_of_expr?_cut_self {e : Expr} (get : (a.cut root span).expr? root = some e) :
    e = ⟨.error, span⟩ := by
  have hlt := (Array.getElem?_eq_some_iff.1 get).1
  rw [size_cut] at hlt
  have hhas : a.Has (.inl root) := hlt
  obtain ⟨n, hn⟩ := hhas.expr?
  exact Option.some.inj (get.symm.trans (expr?_cut_self hn))

theorem child_of_cut {child : ExprId} (h : (a.cut root span).Child id child) :
    a.Child id child := by
  obtain ⟨e, get, mem⟩ := h
  by_cases heq : id = root
  · subst heq
    rw [eq_of_expr?_cut_self get] at mem
    cases mem
  · exact ⟨e, (expr?_cut_ne heq).symm.trans get, mem⟩

theorem Acyclic.cut (h : a.Acyclic) (root : ExprId) (span : Span) : (a.cut root span).Acyclic where
  exprs id hcycle := h.exprs id (TransGen.mono (fun _ _ => child_of_cut) id id hcycle)
  stmts id hcycle := h.stmts id hcycle

/-- The node behind parentheses is the one it was, unless it is the one behind the expression that
has given way. -/
theorem Behind.cut {e : Expr} (h : a.Behind id e) (root : ExprId) (span : Span) :
    (a.cut root span).Behind id e ∨
      a.Behind root e ∧ (a.cut root span).Behind id ⟨.error, span⟩ := by
  have herror {n : Expr} (get : a.expr? root = some n) :
      (a.cut root span).Behind root ⟨.error, span⟩ := by
    refine .node (expr?_cut_self get) ?_
    rintro ⟨inner, form⟩
    cases form
  induction h with
  | @node id e get plain =>
    by_cases heq : id = root
    · subst heq
      exact .inr ⟨.node get plain, herror get⟩
    · exact .inl (.node ((expr?_cut_ne heq).trans get) plain)
  | @paren id e inner e' get form rest ih =>
    by_cases heq : id = root
    · subst heq
      exact .inr ⟨.paren get form rest, herror get⟩
    · have get' : (a.cut root span).expr? id = some e := (expr?_cut_ne heq).trans get
      rcases ih with hsame | ⟨hroot, hinner⟩
      · exact .inl (.paren get' form hsame)
      · exact .inr ⟨hroot, .paren get' form hinner⟩

end Arena

namespace ShaderUnit.Forest

variable {u : ShaderUnit} {root id : ExprId}

/-- What an item or a statement holds lies below no other expression. -/
theorem notMem_under_of_root (h : u.Forest) (hid : u.Root id) : id ∉ u.arena.under root := by
  intro hunder
  obtain ⟨parent, -, hchild⟩ := TransGen.tail'_iff.1 hunder
  exact h.not_child_of_root hid hchild

/-- The children of a node outside of a subtree are outside of it, but for its root. -/
theorem notMem_under_of_child (h : u.Forest) {child : ExprId} (hid : ¬u.arena.Below root id)
    (hchild : u.arena.Child id child) : child ∉ u.arena.under root := by
  intro hunder
  obtain ⟨parent, hparent, hedge⟩ := TransGen.tail'_iff.1 hunder
  cases h.parent_unique (Arena.refers_expr.2 ⟨child, hedge, rfl⟩)
    (Arena.refers_expr.2 ⟨child, hchild, rfl⟩)
  exact hid hparent

end ShaderUnit.Forest
end ShaderFront
