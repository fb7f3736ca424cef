import ShaderFront.Syntax.Arena

/-!
# The places in a unit

Whatever is written in a unit has a span: its items with their parameters and fields, the types that
are written in them, and the nodes of its arena with their declarations and casts. The spans of a
unit can be listed, so it can be asked of a diagnostic whether it points at something that is there.
-/

namespace ShaderFront

/-- Of a parameter or a field, and of its type. -/
def Field.spans (f : Field) : List Span := [f.span, f.type.span]

/-- Of a declaration, and of its type. -/
def VarDecl.spans {ε : Type} (decl : VarDecl ε) : List Span := [decl.span, decl.type.span]

/-- Of an expression, and of the type that it writes if it is a cast. -/
def Expr.spans (e : Expr) : List Span :=
  match e.form with
  | .cast written _ => [e.span, written.span]
  | _ => [e.span]

/-- Of a statement, and of what it declares. -/
def Stmt.spans (s : Stmt) : List Span :=
  match s.form with
  | .declare decl => s.span :: decl.spans
  | _ => [s.span]

/-- Of an item, and of all that is written in it. -/
def Item.spans : Item → List Span
  | .function f => f.span :: f.returns.span :: f.params.flatMap Field.spans
  | .global decl => decl.spans
  | .struct s => s.span :: s.fields.flatMap Field.spans
  | .typedef d => [d.span, d.target.span]

/-- Of all that is written in a unit. -/
def ShaderUnit.spans (u : ShaderUnit) : List Span :=
  u.items.flatMap Item.spans ++ u.arena.exprs.toList.flatMap Expr.spans ++
    u.arena.stmts.toList.flatMap Stmt.spans

theorem Field.mem_spans {f : Field} {fields : List Field} (h : f ∈ fields) :
    f.span ∈ fields.flatMap spans ∧ f.type.span ∈ fields.flatMap spans :=
  ⟨List.mem_flatMap.2 ⟨f, h, by simp [spans]⟩, List.mem_flatMap.2 ⟨f, h, by simp [spans]⟩⟩

theorem Expr.span_mem_spans (e : Expr) : e.span ∈ e.spans := by
  unfold spans
  split
  · exact List.mem_cons_self
  · exact List.mem_cons_self

theorem Stmt.span_mem_spans (s : Stmt) : s.span ∈ s.spans := by
  unfold spans
  split
  · exact List.mem_cons_self
  · exact List.mem_cons_self

theorem Expr.written_mem_spans {e : Expr} {written : WrittenType} {operand : ExprId}
    (h : e.form = .cast written operand) : written.span ∈ e.spans := by
  simp [spans, h]

theorem Stmt.mem_spans_declare {s : Stmt} {decl : VarDecl ExprId} (h : s.form = .declare decl)
    {span : Span} (mem : span ∈ decl.spans) : span ∈ s.spans := by
  simp [spans, h, mem]

namespace ShaderUnit

variable {u : ShaderUnit} {span : Span}

theorem mem_spans_item {item : Item} (mem : item ∈ u.items) (h : span ∈ item.spans) :
    span ∈ u.spans :=
  List.mem_append_left _ (List.mem_append_left _ (List.mem_flatMap.2 ⟨item, mem, h⟩))

theorem mem_spans_expr {id : ExprId} {e : Expr} (get : u.arena.expr? id = some e)
    (h : span ∈ e.spans) : span ∈ u.spans :=
  List.mem_append_left _ (List.mem_append_right _ (List.mem_flatMap.2
    ⟨e, Array.mem_toList_iff.2 (Array.mem_of_getElem? get), h⟩))

theorem mem_spans_stmt {id : StmtId} {s : Stmt} (get : u.arena.stmt? id = some s)
    (h : span ∈ s.spans) : span ∈ u.spans :=
  List.mem_append_right _ (List.mem_flatMap.2
    ⟨s, Array.mem_toList_iff.2 (Array.mem_of_getElem? get), h⟩)

end ShaderUnit
end ShaderFront
