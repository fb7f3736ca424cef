import ShaderFront.Proofs.Analysis.Run
import ShaderFront.Proofs.Syntax.Paren

/-!
# The arena while it is analysed

The analysis replaces parentheses by what they enclose while it goes through the arena. At any
moment a slot is either the one of the unit, or it was the one of parentheses and now holds the node
behind them; then all slots below it are settled as well, that is, hold the nodes behind their
parentheses. A traversal that comes back to a shared node therefore finds children of lower rank,
and the hooks of the analysis find every node they look up.
-/

namespace ShaderFront

namespace Stripping

/-- All slots from the expression on downwards hold the nodes behind their parentheses. -/
def Settled (u : ShaderUnit) (a : Arena) (id : ExprId) : Prop :=
  ∀ x, u.arena.Below id x → ∀ e, u.arena.Behind x e → a.expr? x = some e

/-- The slot of the expression is not the one of the unit. -/
def Changed (u : ShaderUnit) (a : Arena) (id : ExprId) : Prop := a.expr? id ≠ u.arena.expr? id

/-- What holds of the arena and of the number of replacements at any moment. -/
structure Holds (mode : TransformMode) (u : ShaderUnit) (s : Arena × Analyzer) : Prop where
  stmts : s.1.stmts = u.arena.stmts
  size : s.1.exprs.size = u.arena.exprs.size
  slot : ∀ id, Changed u s.1 id →
    mode.exprs = true ∧ u.Reaches id ∧ u.arena.IsParen id ∧ Settled u s.1 id
  count : s.2.replacements = {id | Changed u s.1 id}.ncard

/-- How the arena of a unit changes while it is analysed. -/
def invariant (mode : TransformMode) (u : ShaderUnit) : Invariant Analyzer where
  Holds := Holds mode u
  Before s t := ∀ id, Settled u s.1 id → Settled u t.1 id
  Done id s := mode.exprs = true → Settled u s.1 id

section Holds

variable {mode : TransformMode} {u : ShaderUnit} {s : Arena × Analyzer} {id : ExprId} {e : Expr}

/-- A node that is found is the one of the unit, or the one behind its parentheses. -/
theorem Holds.found (h : Holds mode u s) (wf : u.WellFormed) (hid : u.Reaches id) :
    ∃ e, s.1.expr? id = some e ∧ (u.arena.expr? id = some e ∨ u.arena.Behind id e) := by
  by_cases hchanged : Changed u s.1 id
  · obtain ⟨-, -, -, hsettled⟩ := h.slot id hchanged
    obtain ⟨e, hbehind⟩ := wf.exists_behind (hid.has wf)
    exact ⟨e, hsettled id .refl e hbehind, .inr hbehind⟩
  · obtain ⟨e, he⟩ := (hid.has wf).expr?
    have hsame : s.1.expr? id = u.arena.expr? id := not_not.1 hchanged
    exact ⟨e, hsame.trans he, .inl he⟩

/-- The children of a node that is found are below it in the unit. -/
theorem Holds.child (h : Holds mode u s) (wf : u.WellFormed) {c : ExprId}
    (hc : s.1.Child id c) : ∃ x, u.arena.Below id x ∧ u.arena.Child x c := by
  obtain ⟨e, get, hmem⟩ := hc
  by_cases hchanged : Changed u s.1 id
  · obtain ⟨-, hid, -, hsettled⟩ := h.slot id hchanged
    obtain ⟨e', hbehind⟩ := wf.exists_behind (hid.has wf)
    cases (hsettled id .refl e' hbehind).symm.trans get
    obtain ⟨core, hbelow, hcore⟩ := hbehind.exists_below
    exact ⟨core, hbelow, _, hcore, hmem⟩
  · exact ⟨id, .refl, e, by rw [← not_not.1 hchanged, get], hmem⟩

/-- So they are of lower rank. -/
theorem Holds.child_rank (h : Holds mode u s) (wf : u.WellFormed) (rank : u.arena.Ranking)
    {c : ExprId} (hc : s.1.Child id c) : rank.expr c < rank.expr id := by
  obtain ⟨x, hbelow, hedge⟩ := h.child wf hc
  exact Nat.lt_of_lt_of_le (rank.expr_child x c hedge) (rank.below_le hbelow)

theorem Holds.expr (h : Holds mode u s) (wf : u.WellFormed) (rank : u.arena.Ranking)
    (hid : u.Reaches id) : ∃ e, s.1.expr? id = some e ∧
      ∀ c ∈ e.form.children, u.Reaches c ∧ rank.expr c < rank.expr id := by
  obtain ⟨e, he, -⟩ := h.found wf hid
  refine ⟨e, he, fun c hc => ⟨?_, h.child_rank wf rank ⟨e, he, hc⟩⟩⟩
  obtain ⟨x, hbelow, hedge⟩ := h.child wf ⟨e, he, hc⟩
  exact hid.below (hbelow.tail hedge)

/-- The form behind parentheses is found, whatever has been replaced so far. -/
theorem Holds.core (h : Holds mode u s) (wf : u.WellFormed) (hid : u.Reaches id) :
    ∃ form, s.1.core s.1.exprDepth id = .ok form := by
  obtain ⟨rank⟩ := wf.ranking
  have hdepth (depth : Nat) : ∀ id, u.Reaches id → rank.expr id < depth →
      ∃ form, s.1.core depth id = .ok form := by
    induction depth with
    | zero => exact fun id _ hlt => absurd hlt (Nat.not_lt_zero _)
    | succ depth ih =>
      intro id hid hlt
      obtain ⟨⟨form, span⟩, he, hchildren⟩ := h.expr wf rank hid
      rw [Arena.core, Arena.expr_eq_ok he]
      cases form with
      | paren inner =>
        obtain ⟨hreach, hrank⟩ := hchildren inner (by simp [ExprForm.children])
        exact ih inner hreach (by omega)
      | _ => exact ⟨_, rfl⟩
  refine hdepth _ id hid ?_
  have hle := rank.expr_le id
  rw [Arena.exprDepth, h.size]
  omega

/-- What the rules see of an expression is found. -/
theorem Holds.operand (h : Holds mode u s) (wf : u.WellFormed) (hid : u.Reaches id) :
    ∃ o, s.2.operand s.1 id = .ok o ∧ o.type = s.2.types.get? id := by
  obtain ⟨e, he, -⟩ := h.found wf hid
  obtain ⟨form, hform⟩ := h.core wf hid
  exact ⟨_, bind_ok (Arena.expr_eq_ok he) (bind_ok hform rfl), rfl⟩

theorem Holds.declOperands (h : Holds mode u s) (wf : u.WellFormed) (decl : VarDecl ExprId)
    (hinit : ∀ id ∈ decl.init, u.Reaches id) : ∃ d, s.2.declOperands s.1 decl = .ok d := by
  have hoperands : ∀ id ∈ decl.init, ∃ o, s.2.operand s.1 id = .ok o := fun id hid => by
    obtain ⟨o, ho, -⟩ := h.operand wf (hinit id hid)
    exact ⟨o, ho⟩
  choose! operands hoperand using hoperands
  exact ⟨_, Analyzer.declOperands_ok hoperand⟩

theorem Holds.stmtOperands (h : Holds mode u s) (wf : u.WellFormed)
    {form : StmtForm ExprId StmtId} (hform : ∀ e, .inl e ∈ form.children → u.Reaches e) :
    ∃ f, s.2.stmtOperands s.1 form = .ok f := by
  have hoperands : ∀ e, .inl e ∈ form.children → ∃ o, s.2.operand s.1 e = .ok o := fun e he => by
    obtain ⟨o, ho, -⟩ := h.operand wf (hform e he)
    exact ⟨o, ho⟩
  choose! operands hoperand using hoperands
  exact ⟨_, Analyzer.stmtOperands_ok hoperand⟩

/-- What is stored for a node when it is left, and the number of replacements afterwards. -/
inductive Replacement (mode : TransformMode) (s : Arena × Analyzer) (e : Expr) :
    Option Expr → Nat → Prop where
  | keep (plain : ¬e.form.IsParen) : Replacement mode s e none s.2.replacements
  | strip {inner core} (form : e.form = .paren inner) (get : s.1.expr? inner = some core) :
      Replacement mode s e (some core) (s.2.replacements + if mode.exprs then 1 else 0)

/-- Leaving an expression types it by the rules and strips parentheses. -/
theorem Holds.leaveExpr (h : Holds mode u s) (wf : u.WellFormed) (rules : Rules)
    (hid : u.Reaches id) (get : s.1.expr? id = some e) :
    ∃ (operands : ExprId → Operand) (out : Option Expr) (n : Nat),
      (∀ c ∈ e.form.children, (operands c).type = s.2.types.get? c) ∧ Replacement mode s e out n ∧
      Analyzer.leaveExpr rules mode s.1 id s.2 = .ok (out,
        { s.2.record id (rules.type s.2.place.scope e.span (e.form.map operands)) with
          replacements := n }) := by
  have hchild (c : ExprId) (hc : c ∈ e.form.children) : u.Reaches c := by
    obtain ⟨x, hbelow, hedge⟩ := h.child wf ⟨e, get, hc⟩
    exact hid.below (hbelow.tail hedge)
  have hoperands : ∀ c ∈ e.form.children,
      ∃ o, s.2.operand s.1 c = .ok o ∧ o.type = s.2.types.get? c :=
    fun c hc => h.operand wf (hchild c hc)
  choose! operands hoperand htype using hoperands
  by_cases hparen : e.form.IsParen
  · obtain ⟨inner, form⟩ := hparen
    have hmem : inner ∈ e.form.children := by simp [form, ExprForm.children]
    obtain ⟨core, hcore, -⟩ := h.found wf (hchild inner hmem)
    refine ⟨operands, _, _, htype, .strip form hcore, ?_⟩
    rw [form]
    exact Analyzer.leaveExpr_paren rules mode get form (hoperand inner hmem) hcore
  · exact ⟨operands, _, _, htype, .keep hparen,
      Analyzer.leaveExpr_plain rules mode get hparen hoperand⟩

theorem enterStmt_moves (rules : Rules) {id : StmtId} {stmt : Stmt}
    (get : s.1.stmt? id = some stmt) :
    ∃ s', Analyzer.enterStmt s.1 id s.2 = .ok s' ∧ Analyzer.Moves rules u s.2 s' := by
  by_cases hopens : stmt.form.opensScope = true
  · refine ⟨_, bind_ok (Arena.stmt_eq_ok get) rfl, ?_⟩
    rw [if_pos hopens]
    exact .enterScope
  · refine ⟨_, bind_ok (Arena.stmt_eq_ok get) rfl, ?_⟩
    rw [if_neg hopens]
    exact .stay

theorem Holds.leaveStmt (h : Holds mode u s) (wf : u.WellFormed) (rules : Rules) {id : StmtId}
    {stmt : Stmt} (get : s.1.stmt? id = some stmt)
    (hform : ∀ e, .inl e ∈ stmt.form.children → u.Reaches e) :
    ∃ s', Analyzer.leaveStmt rules s.1 id s.2 = .ok (none, s') ∧
      Analyzer.Moves rules u s.2 s' := by
  obtain ⟨form, hoperands⟩ := h.stmtOperands wf hform
  exact ⟨_, bind_ok (Arena.stmt_eq_ok get) (bind_ok hoperands rfl), .statement stmt.span form⟩

theorem enterItem_moves (rules : Rules) {item : Item} (hitem : item ∈ u.items) :
    Analyzer.Moves rules u s.2 (Analyzer.enterItem rules item s.2) := by
  cases item with
  | function f => exact .enterFunction f hitem
  | global | struct | typedef => exact .stay

theorem Holds.leaveItem (h : Holds mode u s) (wf : u.WellFormed) (rules : Rules) {item : Item}
    (hitem : ∀ e, .inl e ∈ item.children → u.Reaches e) :
    ∃ s', Analyzer.leaveItem rules s.1 item s.2 = .ok s' ∧ Analyzer.Moves rules u s.2 s' := by
  cases item with
  | function f => exact ⟨_, rfl, .leaveFunction⟩
  | global decl =>
    obtain ⟨d, hd⟩ := h.declOperands wf decl fun id hid =>
      hitem id (by simpa [Item.children] using hid)
    exact ⟨_, bind_ok hd rfl, .declare d⟩
  | struct | typedef => exact ⟨_, rfl, .stay⟩

end Holds
end Stripping
end ShaderFront
