import ShaderFront.Analysis.Analyzer
import ShaderFront.Proofs.Syntax.Unfold

/-!
# Runs of the analysis

A run of the analysis is a run of its transformer, so it is reasoned about by the rule for
traversals. Apart from leaving an expression, all that its hooks do is go to another place. Once the
operands of a statement or an expression are found, what leaving it does is a matter of the rules.
-/

namespace ShaderFront

/-- The same declaration over another expression. -/
def VarDecl.map {α β : Type} (f : α → β) (decl : VarDecl α) : VarDecl β :=
  ⟨decl.name, decl.type, decl.init.map f, decl.span⟩

/-- The same statement over other expressions. -/
def StmtForm.map {α β τ : Type} (f : α → β) : StmtForm α τ → StmtForm β τ
  | .expr e => .expr (f e)
  | .declare decl => .declare (decl.map f)
  | .block body => .block body
  | .ifElse c yes no => .ifElse (f c) yes no
  | .forLoop init c step body => .forLoop init (c.map f) (step.map f) body
  | .whileLoop c body => .whileLoop (f c) body
  | .returns value => .returns (value.map f)
  | .discard => .discard
  | .breakLoop => .breakLoop
  | .continueLoop => .continueLoop
  | .empty => .empty

/-- The rules by which a unit is analysed. -/
def ShaderUnit.rules (u : ShaderUnit) (config : AnalysisConfig) : Rules :=
  ⟨(ItemTable.collect u).value, config.warnOnTruncation⟩

/-- The state in which the analysis of a unit starts. -/
def Analyzer.start (u : ShaderUnit) : Analyzer where
  types := .empty u.arena.exprs.size
  findings := (ItemTable.collect u).findings

/-- At the start no expression has a type. -/
theorem Analyzer.get?_start (u : ShaderUnit) (id : ExprId) : (start u).types.get? id = none := by
  simp only [start, TypeTable.empty, TypeTable.get?, Array.getElem?_replicate]
  split
  · rfl
  · rfl

theorem Analyzer.size_start (u : ShaderUnit) :
    (start u).types.slots.size = u.arena.exprs.size := by
  simp [start, TypeTable.empty]

/-- What a hook does to the analysis when it is not an expression that is left: it goes to another
place, or it stays. -/
inductive Analyzer.Moves (rules : Rules) (u : ShaderUnit) (s : Analyzer) : Analyzer → Prop where
  | stay : Moves rules u s s
  | enterFunction (f : Function) (mem : .function f ∈ u.items) :
      Moves rules u s (s.moveTo (rules.enterFunction s.place f))
  | leaveFunction : Moves rules u s { s with place := Rules.leaveFunction s.place }
  | declare (decl : VarDecl Operand) : Moves rules u s (s.moveTo (rules.declaration s.place decl))
  | enterScope : Moves rules u s { s with place := s.place.enterScope }
  | statement (span : Span) (form : StmtForm Operand StmtId) :
      Moves rules u s (s.moveTo (rules.statement s.place span form))

theorem Analyzer.Moves.replacements {rules : Rules} {u : ShaderUnit} {s s' : Analyzer}
    (h : Moves rules u s s') : s'.replacements = s.replacements := by
  cases h <;> rfl

/-! ## Operands that are found -/

instance : Inhabited Operand := ⟨⟨none, default, .error⟩⟩

namespace Analyzer

variable {s : Analyzer} {a : Arena} {operands : ExprId → Operand}

/-- An operand is seen with its entry, at the place of its node. -/
theorem of_operand_ok {id : ExprId} {o : Operand} (h : s.operand a id = .ok o) :
    o.type = s.types.get? id ∧ ∃ e, a.expr? id = some e ∧ o.span = e.span := by
  obtain ⟨e, he, h⟩ := of_bind_ok h
  obtain ⟨core, -, h⟩ := of_bind_ok h
  cases h
  exact ⟨rfl, e, Arena.expr?_of_ok he, rfl⟩

/-- What is there to be seen is seen. -/
theorem optionalOperand_ok {value : Option ExprId}
    (h : ∀ id ∈ value, s.operand a id = .ok (operands id)) :
    s.optionalOperand a value = .ok (value.map operands) := by
  cases value with
  | none => rfl
  | some id => exact bind_ok (h id rfl) rfl

theorem declOperands_ok {decl : VarDecl ExprId}
    (h : ∀ id ∈ decl.init, s.operand a id = .ok (operands id)) :
    s.declOperands a decl = .ok (decl.map operands) := bind_ok (optionalOperand_ok h) rfl

/-- The rules see the expressions of a statement if each can be seen. -/
theorem stmtOperands_ok {form : StmtForm ExprId StmtId}
    (h : ∀ e, .inl e ∈ form.children → s.operand a e = .ok (operands e)) :
    s.stmtOperands a form = .ok (form.map operands) := by
  cases form with
  | block | discard | breakLoop | continueLoop | empty => rfl
  | expr e | whileLoop e | ifElse e =>
    exact bind_ok (h e (by simp [StmtForm.children])) rfl
  | declare decl =>
    exact bind_ok (declOperands_ok fun id hid => h id (by simpa [StmtForm.children] using hid)) rfl
  | forLoop init c step body =>
    have hcondition : s.optionalOperand a c = .ok (c.map operands) :=
      optionalOperand_ok fun id hid => h id (by simpa [StmtForm.children] using .inl hid)
    have hstep : s.optionalOperand a step = .ok (step.map operands) :=
      optionalOperand_ok fun id hid => h id (by simpa [StmtForm.children] using .inr hid)
    exact bind_ok hcondition (bind_ok hstep rfl)
  | returns value =>
    exact bind_ok (optionalOperand_ok fun id hid =>
      h id (by simpa [StmtForm.children] using hid)) rfl

/-- What is seen to be declared was declared. -/
theorem of_stmtOperands_declare {form : StmtForm ExprId StmtId} {d : VarDecl Operand}
    (h : s.stmtOperands a form = .ok (.declare d)) :
    ∃ decl, form = .declare decl ∧ s.declOperands a decl = .ok d := by
  cases form with
  | declare decl =>
    obtain ⟨d', hd, h⟩ := of_bind_ok h
    cases h
    exact ⟨decl, rfl, hd⟩
  | block | discard | breakLoop | continueLoop | empty => cases h
  | expr | whileLoop | ifElse | returns =>
    obtain ⟨_, -, h⟩ := of_bind_ok h
    cases h
  | forLoop =>
    obtain ⟨_, -, h⟩ := of_bind_ok h
    obtain ⟨_, -, h⟩ := of_bind_ok h
    cases h

theorem size_record {s : Analyzer} {id : ExprId} {type : Reported (Option Ty)} :
    (s.record id type).types.slots.size = s.types.slots.size := by
  unfold record
  dsimp only
  split
  · simp [TypeTable.insert]
  · rfl

/-- If there is no type, nothing is entered. -/
theorem types_record {s : Analyzer} {id : ExprId} {type : Reported (Option Ty)}
    (h : type.value = none) : (s.record id type).types = s.types := by
  rw [record, h]

/-- Types of other expressions stay as they are. -/
theorem get?_record_ne (s : Analyzer) {id other : ExprId} (h : other ≠ id)
    (type : Reported (Option Ty)) : (s.record id type).types.get? other = s.types.get? other := by
  unfold record
  cases type.value with
  | none => rfl
  | some ty => exact s.types.get?_insert_ne id other ty h

/-- An entry is replaced by a type, and stays if there is none. -/
theorem get?_record {s : Analyzer} {id : ExprId} (hid : id.index < s.types.slots.size)
    (type : Reported (Option Ty)) :
    (s.record id type).types.get? id = type.value.or (s.types.get? id) := by
  unfold record
  cases type.value with
  | none => rfl
  | some ty => exact s.types.get?_insert_self id ty hid

/-- An expression that had no type has the one it is recorded with. -/
theorem get?_record_self {s : Analyzer} {id : ExprId} (hid : id.index < s.types.slots.size)
    (fresh : s.types.get? id = none) (type : Reported (Option Ty)) :
    (s.record id type).types.get? id = type.value := by
  rw [get?_record hid, fresh, Option.or_none]

/-- A type that is entered was entered before, or it is the one that is recorded. -/
theorem of_get?_record {s : Analyzer} {id other : ExprId} {type : Reported (Option Ty)} {ty : Ty}
    (h : (s.record id type).types.get? other = some ty) :
    s.types.get? other = some ty ∨ other = id ∧ type.value = some ty := by
  by_cases hother : other = id
  · subst hother
    by_cases hsize : other.index < s.types.slots.size
    · rw [get?_record hsize] at h
      rcases Option.or_eq_some_iff.1 h with hnew | ⟨-, hold⟩
      · exact .inr ⟨rfl, hnew⟩
      · exact .inl hold
    · have hout : (s.record other type).types.slots[other.index]? = none :=
        Array.getElem?_eq_none (by rw [size_record]; exact Nat.le_of_not_lt hsize)
      rw [TypeTable.get?, hout] at h
      cases h
  · rw [s.get?_record_ne hother] at h
    exact .inl h

/-- What is ahead has no type after another expression is recorded either. -/
theorem record_ahead {s : Analyzer} {V : Set ExprId} (h : ∀ id, id ∉ V → s.types.get? id = none)
    (id : ExprId) (type : Reported (Option Ty)) :
    ∀ other, other ∉ insert id V → (s.record id type).types.get? other = none := by
  intro other hother
  rw [Set.mem_insert_iff, not_or] at hother
  exact (s.get?_record_ne hother.1 type).trans (h other hother.2)

@[simp] theorem moveTo_pure (s : Analyzer) (p : Place) :
    s.moveTo (pure p) = { s with place := p } := by
  simp [moveTo]

/-- Every move goes to a place. -/
theorem Moves.moveTo {rules : Rules} {u : ShaderUnit} {s s' : Analyzer} (h : Moves rules u s s') :
    ∃ p, s' = s.moveTo p := by
  cases h with
  | stay => exact ⟨pure s.place, (moveTo_pure s s.place).symm⟩
  | enterFunction f => exact ⟨_, rfl⟩
  | leaveFunction => exact ⟨_, (moveTo_pure s _).symm⟩
  | declare decl => exact ⟨_, rfl⟩
  | enterScope => exact ⟨_, (moveTo_pure s _).symm⟩
  | statement span form => exact ⟨_, rfl⟩

/-- Going into a statement that is there does not fail. -/
theorem enterStmt_ok (s : Analyzer) {id : StmtId} {stmt : Stmt} (get : a.stmt? id = some stmt) :
    enterStmt a id s = .ok
      (s.moveTo (pure (if stmt.form.opensScope then s.place.enterScope else s.place))) := by
  refine bind_ok (Arena.stmt_eq_ok get) ?_
  rw [moveTo_pure]
  split
  · rfl
  · rfl

variable (rules : Rules) (mode : TransformMode)

/-- A statement is left by the rule for what is seen of it. -/
theorem leaveStmt_ok {id : StmtId} {stmt : Stmt} (get : a.stmt? id = some stmt)
    (h : ∀ e, .inl e ∈ stmt.form.children → s.operand a e = .ok (operands e)) :
    leaveStmt rules a id s =
      .ok (none, s.moveTo (rules.statement s.place stmt.span (stmt.form.map operands))) :=
  bind_ok (Arena.stmt_eq_ok get) (bind_ok (stmtOperands_ok h) rfl)

/-- Leaving an expression that is not in parentheses. -/
theorem leaveExpr_plain {id : ExprId} {e : Expr} (get : a.expr? id = some e)
    (plain : ¬e.form.IsParen)
    (h : ∀ c ∈ e.form.children, s.operand a c = .ok (operands c)) :
    leaveExpr rules mode a id s =
      .ok (none, s.record id (rules.type s.place.scope e.span (e.form.map operands))) := by
  refine bind_ok (Arena.expr_eq_ok get) (bind_ok (ExprForm.mapM_ok h) ?_)
  obtain ⟨form, span⟩ := e
  cases form with
  | paren inner => exact absurd ⟨inner, rfl⟩ plain
  | _ => rfl

/-- Leaving parentheses: they have the type of what they enclose, and give way to it. -/
theorem leaveExpr_paren {id inner : ExprId} {e core : Expr} {o : Operand}
    (get : a.expr? id = some e) (form : e.form = .paren inner)
    (h : s.operand a inner = .ok o) (getInner : a.expr? inner = some core) :
    leaveExpr rules mode a id s = .ok (some core,
      { s.record id (pure o.type) with
        replacements := s.replacements + if mode.exprs then 1 else 0 }) := by
  obtain ⟨_, span⟩ := e
  subst form
  have hform : (ExprForm.paren inner).mapM (s.operand a) = .ok (.paren o) := bind_ok h rfl
  exact bind_ok (Arena.expr_eq_ok get) (bind_ok hform (bind_ok (Arena.expr_eq_ok getInner) rfl))

end Analyzer

/-! ## Runs -/

/-- What a run of the analysis yields if it ends at a moment. -/
def Analysis.ofRun (u : ShaderUnit) (t : Arena × Analyzer) : Analysis :=
  ⟨{ u with arena := t.1 }, (ItemTable.collect u).value, t.2.types, t.2.replacements,
    t.2.findings⟩

/-- An analysis is a run of its transformer from the start. -/
theorem analyze_eq_ok {u : ShaderUnit} {config : AnalysisConfig} {r : Analysis} :
    analyze u config = .ok r ↔ ∃ t : Arena × Analyzer,
      (Analyzer.transformer (u.rules config) config.transform).run u (.start u) =
        .ok ({ u with arena := t.1 }, t.2) ∧ r = .ofRun u t := by
  constructor
  · intro h
    obtain ⟨⟨u', s⟩, hrun, h⟩ := of_bind_ok h
    obtain ⟨⟨a, z⟩, hfold, heq⟩ := of_bind_ok hrun
    cases heq
    cases h
    exact ⟨(a, s), hrun, rfl⟩
  · rintro ⟨t, hrun, rfl⟩
    exact bind_ok hrun rfl

/-- What a run of the analysis yields, given what its hooks keep. -/
theorem analyze_keeps {u : ShaderUnit} (config : AnalysisConfig) {rank : u.arena.Ranking}
    {I : Invariant Analyzer}
    (k : (Analyzer.transformer (u.rules config) config.transform).Keeps u rank I)
    (wf : u.WellFormed) (h : I.Holds (u.arena, .start u)) :
    ∃ t : Arena × Analyzer, analyze u config = .ok
        ⟨{ u with arena := t.1 }, (ItemTable.collect u).value, t.2.types, t.2.replacements,
          t.2.findings⟩ ∧
      I.Leads (u.arena, .start u) t ∧ ∀ id, u.Root id → I.Done id t := by
  obtain ⟨t, hrun, hleads, hdone⟩ := k.run wf h
  exact ⟨t, bind_ok hrun rfl, hleads, hdone⟩

end ShaderFront
