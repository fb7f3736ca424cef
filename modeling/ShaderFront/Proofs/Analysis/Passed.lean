import ShaderFront.Proofs.Analysis.Run
import ShaderFront.Proofs.Syntax.Paren

/-!
# A forest while it is analysed

No expression of a forest is gone through twice. So the slots that have been gone through are the
ones that may have changed: if replacements are stored, they hold the nodes behind their
parentheses, and if not, their own nodes. What the rules see of an expression that has been gone
through can then be read off the unit: its type, the span of the node its slot holds, and the form
behind its parentheses.
-/

namespace ShaderFront

namespace Arena

variable {a : Arena}

/-- The span of an expression, or of the node behind its parentheses. -/
def SpanAt (a : Arena) (id : ExprId) (span : Span) : Prop :=
  ∃ e, (a.expr? id = some e ∨ a.Behind id e) ∧ e.span = span

/-- A form that is no parentheses stands for itself. -/
theorem core_plain {a : Arena} {id : ExprId} {e : Expr} (get : a.expr? id = some e)
    (plain : ¬e.form.IsParen) (depth : Nat) : a.core (depth + 1) id = .ok e.form := by
  rw [core, expr_eq_ok get]
  obtain ⟨form, span⟩ := e
  cases form with
  | paren inner => exact absurd ⟨inner, rfl⟩ plain
  | _ => rfl

/-- The form behind parentheses is found if there is depth enough. -/
theorem core_of_behind (rank : a.Ranking) {id : ExprId} {e : Expr} (h : a.Behind id e)
    {depth : Nat} (hdepth : rank.expr id < depth) : a.core depth id = .ok e.form := by
  induction h generalizing depth with
  | @node id e get plain =>
    obtain ⟨depth, rfl⟩ : ∃ below, depth = below + 1 := ⟨depth - 1, by omega⟩
    exact core_plain get plain depth
  | @paren id e inner e' get form rest ih =>
    obtain ⟨depth, rfl⟩ : ∃ below, depth = below + 1 := ⟨depth - 1, by omega⟩
    have hrank := rank.expr_child id inner ⟨e, get, by simp [form, ExprForm.children]⟩
    rw [core, expr_eq_ok get]
    obtain ⟨_, span⟩ := e
    subst form
    exact ih (by omega)

end Arena

namespace Analyzer

variable {a : Arena}

/-- What is seen of an expression whose form behind its parentheses is known. -/
theorem operand_ok {s : Analyzer} {id : ExprId} {e : Expr} {form : ExprForm ExprId}
    (get : a.expr? id = some e) (core : a.core a.exprDepth id = .ok form) :
    s.operand a id = .ok ⟨s.types.get? id, e.span, form⟩ :=
  bind_ok (Arena.expr_eq_ok get) (bind_ok core rfl)

/-- What is seen of an expression that is not in parentheses. -/
theorem operand_plain {s : Analyzer} {id : ExprId} {e : Expr} (get : a.expr? id = some e)
    (plain : ¬e.form.IsParen) : s.operand a id = .ok ⟨s.types.get? id, e.span, e.form⟩ := by
  refine operand_ok get ?_
  rw [Arena.exprDepth]
  exact Arena.core_plain get plain _

end Analyzer

/-- The arena `b`, once the expressions of a set have been gone through in `a`. -/
structure Passed (a : Arena) (strip : Bool) (V : Set ExprId) (b : Arena) : Prop where
  stmts : b.stmts = a.stmts
  size : b.exprs.size = a.exprs.size
  ahead : ∀ x, x ∉ V → b.expr? x = a.expr? x
  done : ∀ x ∈ V, ∃ n e, a.expr? x = some n ∧ a.Behind x e ∧
    b.expr? x = some (if strip then e else n)

/-- What is seen of an expression that has been gone through. -/
inductive Seen (a : Arena) (strip : Bool) (types : TypeTable) (id : ExprId) : Operand → Prop where
  | intro {n e} (get : a.expr? id = some n) (behind : a.Behind id e) :
      Seen a strip types id ⟨types.get? id, (if strip then e else n).span, e.form⟩

theorem Seen.type_eq {a : Arena} {strip : Bool} {types : TypeTable} {id : ExprId} {o : Operand}
    (h : Seen a strip types id o) : o.type = types.get? id := by
  obtain ⟨-, -⟩ := h
  rfl

theorem Seen.spanAt {a : Arena} {strip : Bool} {types : TypeTable} {id : ExprId} {o : Operand}
    (h : Seen a strip types id o) : a.SpanAt id o.span := by
  obtain ⟨get, behind⟩ := h
  cases strip with
  | true => exact ⟨_, .inr behind, rfl⟩
  | false => exact ⟨_, .inl get, rfl⟩

/-- Of an expression that is not in parentheses the same is seen whether parentheses are stripped or
not. -/
theorem Seen.span_eq {a : Arena} {strip strip' : Bool} {types types' : TypeTable} {id : ExprId}
    {o o' : Operand} (h : Seen a strip types id o) (h' : Seen a strip' types' id o')
    (plain : ¬a.IsParen id) : o'.span = o.span := by
  obtain ⟨get, behind⟩ := h
  obtain ⟨get', behind'⟩ := h'
  have hnode {n : Expr} (hn : a.expr? id = some n) : a.Behind id n :=
    .node hn fun hparen => plain ⟨n, hn, hparen⟩
  obtain rfl := (hnode get).eq behind
  obtain rfl := (hnode get').eq behind'
  rw [ite_self, ite_self, (hnode get).eq (hnode get')]

theorem Seen.core_eq {a : Arena} {strip strip' : Bool} {types types' : TypeTable} {id : ExprId}
    {o o' : Operand} (h : Seen a strip types id o) (h' : Seen a strip' types' id o') :
    o'.core = o.core := by
  obtain ⟨-, behind⟩ := h
  obtain ⟨-, behind'⟩ := h'
  rw [behind.eq behind']

namespace Passed

variable {a b : Arena} {strip : Bool} {V : Set ExprId} {id : ExprId}

theorem start (a : Arena) (strip : Bool) : Passed a strip ∅ a :=
  ⟨rfl, rfl, fun _ _ => rfl, fun _ hx => absurd hx (Set.notMem_empty _)⟩

/-- If nothing is stored, nothing changes. -/
theorem unchanged (h : Passed a false V b) : b = a := by
  have hexpr (x : ExprId) : b.expr? x = a.expr? x := by
    by_cases hx : x ∈ V
    · obtain ⟨n, e, get, -, get'⟩ := h.done x hx
      exact get'.trans get.symm
    · exact h.ahead x hx
  obtain ⟨exprs, stmts⟩ := a
  obtain ⟨exprs', stmts'⟩ := b
  cases h.stmts
  have hexprs : exprs' = exprs := Array.ext_getElem? fun i => hexpr ⟨i⟩
  rw [hexprs]

theorem stmt? (h : Passed a strip V b) (id : StmtId) : b.stmt? id = a.stmt? id :=
  Arena.stmt?_congr h.stmts id

/-- What the rules see of an expression that has been gone through is found. -/
theorem operand (h : Passed a strip V b) (acyclic : a.Acyclic) (hid : id ∈ V) (s : Analyzer) :
    ∃ o, s.operand b id = .ok o ∧ Seen a strip s.types id o := by
  obtain ⟨n, e, get, behind, get'⟩ := h.done id hid
  refine ⟨_, ?_, .intro get behind⟩
  cases strip with
  | true => exact Analyzer.operand_plain get' behind.plain
  | false =>
    obtain ⟨rank⟩ := acyclic.ranking
    obtain rfl := h.unchanged
    have hle := rank.expr_le id
    refine Analyzer.operand_ok get' (Arena.core_of_behind rank behind ?_)
    rw [Arena.exprDepth]
    omega

/-- Going through an expression whose slot stays as it is. -/
theorem keep (h : Passed a strip V b) (hid : id ∉ V) {n e : Expr} (get : a.expr? id = some n)
    (behind : a.Behind id e) (same : (if strip then e else n) = n) :
    Passed a strip (insert id V) b where
  stmts := h.stmts
  size := h.size
  ahead x hx := h.ahead x fun hmem => hx (Set.mem_insert_of_mem id hmem)
  done x hx := by
    rcases Set.mem_insert_iff.1 hx with rfl | hmem
    · exact ⟨n, e, get, behind, by rw [same, h.ahead x hid, get]⟩
    · exact h.done x hmem

/-- Going through parentheses that are replaced. -/
theorem store (h : Passed a true V b) {n e : Expr} (get : a.expr? id = some n)
    (behind : a.Behind id e) : Passed a true (insert id V) (b.setExpr id e) where
  stmts := h.stmts
  size := (b.size_setExpr id e).trans h.size
  ahead x hx := by
    rw [Set.mem_insert_iff, not_or] at hx
    rw [b.expr?_setExpr_ne id x e hx.1]
    exact h.ahead x hx.2
  done x hx := by
    by_cases heq : x = id
    · subst heq
      have hsize : x.index < b.exprs.size := by
        rw [h.size]
        exact (Array.getElem?_eq_some_iff.1 get).1
      exact ⟨n, e, get, behind, b.expr?_setExpr_self x e hsize⟩
    · rw [b.expr?_setExpr_ne id x e heq]
      exact h.done x (Set.mem_of_mem_insert_of_ne hx heq)

/-- **Leaving an expression** whose children have been gone through: it is typed by what is seen of
them, and has been gone through then. -/
theorem leaveExpr {mode : TransformMode} {s : Arena × Analyzer} (h : Passed a mode.exprs V s.1)
    (acyclic : a.Acyclic) (rules : Rules) (hid : id ∉ V) {n : Expr} (get : a.expr? id = some n)
    (hchildren : ∀ c ∈ n.form.children, c ∈ V) :
    ∃ (operands : ExprId → Operand) (out : Option Expr) (count : Nat),
      (∀ c ∈ n.form.children, Seen a mode.exprs s.2.types c (operands c)) ∧
      Analyzer.leaveExpr rules mode s.1 id s.2 = .ok (out,
        { s.2.record id (rules.type s.2.place.scope n.span (n.form.map operands)) with
          replacements := count }) ∧
      Passed a mode.exprs (insert id V)
        ((Analyzer.transformer rules mode).storeExpr id out s.1) := by
  have hoperands : ∀ c ∈ n.form.children,
      ∃ o, s.2.operand s.1 c = .ok o ∧ Seen a mode.exprs s.2.types c o :=
    fun c hc => h.operand acyclic (hchildren c hc) s.2
  choose! operands hoperand hseen using hoperands
  have get' : s.1.expr? id = some n := (h.ahead id hid).trans get
  by_cases hparen : n.form.IsParen
  · obtain ⟨inner, form⟩ := hparen
    have hinner : inner ∈ n.form.children := by simp [form, ExprForm.children]
    obtain ⟨m, e, getInner, behind, getInner'⟩ := h.done inner (hchildren inner hinner)
    have hbehind : a.Behind id e := .paren get form behind
    refine ⟨operands, some (if mode.exprs then e else m),
      s.2.replacements + if mode.exprs then 1 else 0, hseen, ?_, ?_⟩
    · rw [form]
      exact Analyzer.leaveExpr_paren rules mode get' form (hoperand inner hinner) getInner'
    · show Passed a mode.exprs (insert id V) (if mode.exprs then s.1.setExpr id _ else s.1)
      cases hmode : mode.exprs with
      | true =>
        rw [hmode] at h
        exact h.store get hbehind
      | false =>
        rw [hmode] at h
        exact h.keep hid get hbehind rfl
  · exact ⟨operands, none, s.2.replacements, hseen,
      Analyzer.leaveExpr_plain rules mode get' hparen hoperand,
      h.keep hid get (.node get hparen) (ite_self n)⟩

end Passed

/-- A run of the analysis that has gone through some expressions of a forest. What is ahead has no
type yet. -/
structure Progress (a : Arena) (strip : Bool) (V : Set ExprId) (s : Arena × Analyzer) : Prop where
  passed : Passed a strip V s.1
  size : s.2.types.slots.size = a.exprs.size
  ahead : ∀ id, id ∉ V → s.2.types.get? id = none

namespace Progress

variable {a : Arena} {strip : Bool} {V : Set ExprId} {s : Arena × Analyzer} {id : ExprId} {n : Expr}

theorem start (u : ShaderUnit) (strip : Bool) : Progress u.arena strip ∅ (u.arena, .start u) where
  passed := .start u.arena strip
  size := Analyzer.size_start u
  ahead id _ := Analyzer.get?_start u id

/-- An expression that was ahead has the type it is recorded with. -/
theorem get?_record (h : Progress a strip V s) (hid : id ∉ V) (get : a.expr? id = some n)
    (type : Reported (Option Ty)) : (s.2.record id type).types.get? id = type.value := by
  refine Analyzer.get?_record_self ?_ (h.ahead id hid) type
  rw [h.size]
  exact (Array.getElem?_eq_some_iff.1 get).1

theorem leaveExpr {mode : TransformMode} (h : Progress a mode.exprs V s) (acyclic : a.Acyclic)
    (rules : Rules) (hid : id ∉ V) (get : a.expr? id = some n)
    (hchildren : ∀ c ∈ n.form.children, c ∈ V) :
    ∃ (operands : ExprId → Operand) (out : Option Expr) (z : Analyzer),
      (∀ c ∈ n.form.children, Seen a mode.exprs s.2.types c (operands c)) ∧
      Analyzer.leaveExpr rules mode s.1 id s.2 = .ok (out, z) ∧
      (∃ count, z =
        { s.2.record id (rules.type s.2.place.scope n.span (n.form.map operands)) with
          replacements := count }) ∧
      Progress a mode.exprs (insert id V)
        ((Analyzer.transformer rules mode).storeExpr id out s.1, z) := by
  obtain ⟨operands, out, count, hseen, hrun, hpassed⟩ :=
    h.passed.leaveExpr acyclic rules hid get hchildren
  exact ⟨operands, out, _, hseen, hrun, ⟨count, rfl⟩, hpassed,
    Analyzer.size_record.trans h.size, Analyzer.record_ahead h.ahead id _⟩

end Progress
end ShaderFront
