import ShaderFront.Proofs.Analysis.Reports
import ShaderFront.Proofs.Analysis.Visits

/-!
# What reports a name that is declared already

While a unit is gone through, only a declaration says that a name is declared already. Neither the
typing rules nor the checks of statements report anything under that code.
-/

namespace ShaderFront

open Transformer

/-- The findings that say that a name is defined or declared already. -/
def redeclarations (findings : List Finding) : List Finding :=
  findings.filter (·.problem.code == .e2011)

@[simp] theorem redeclarations_nil : redeclarations [] = [] := rfl

@[simp] theorem redeclarations_append (findings more : List Finding) :
    redeclarations (findings ++ more) = redeclarations findings ++ redeclarations more :=
  List.filter_append ..

namespace Reported

/-- Nothing is said to be declared already. -/
def Quiet {α : Type} (x : Reported α) : Prop := redeclarations x.findings = []

theorem Reports.quiet {α : Type} {warn : Bool} {places : Span → Prop} {x : Reported α}
    (h : x.Reports warn places) : x.Quiet :=
  List.filter_eq_nil_iff.2 fun f hf heq => (h f hf).undeclared (eq_of_beq heq)

end Reported

open Reported

namespace Rules

/-- **No expression declares a name.** -/
theorem quiet_type (r : Rules) (scope : Scope) (span : Span) (form : ExprForm Operand) :
    (r.type scope span form).Quiet := by
  have hreports : (r.type scope span form).Reports r.warnOnTruncation fun _ => True :=
    r.type_reports trivial scope (fun _ _ => trivial) fun _ _ _ => trivial
  exact hreports.quiet

theorem quiet_declaredType (r : Rules) (name : String) (written : WrittenType) :
    (r.declaredType name written).Quiet := by
  have hreports : (r.declaredType name written).Reports false fun _ => True :=
    r.declaredType_reports name trivial
  exact hreports.quiet

theorem quiet_store (r : Rules) (span : Span) (value target : Ty) :
    (r.store span value target).Quiet := by
  have hreports : (r.store span value target).Reports r.warnOnTruncation fun _ => True :=
    r.store_reports trivial value target
  exact hreports.quiet

/-- What a declaration says to be declared already is what it declares. -/
theorem redeclarations_declaration (r : Rules) (p : Place) (decl : VarDecl Operand) :
    redeclarations (r.declaration p decl).findings = redeclarations
      (p.declare decl.name (r.declaredType decl.name decl.type).value decl.span).findings := by
  unfold declaration
  rw [findings_bind, redeclarations_append, r.quiet_declaredType, List.nil_append]
  dsimp only
  split
  · rw [findings_bind, redeclarations_append, r.quiet_store, List.nil_append]
  · rfl

/-- **No statement but a declaration declares a name.** -/
theorem quiet_statement (r : Rules) (p : Place) (span : Span) {form : StmtForm Operand StmtId}
    (h : ∀ decl, form ≠ .declare decl) : (r.statement p span form).Quiet := by
  have hreports : (r.statement p span form).Reports r.warnOnTruncation fun _ => True :=
    r.statement_reports trivial p h fun _ _ => trivial
  exact hreports.quiet

end Rules

namespace Analyzer

/-- Leaving an expression says of no name that it is declared already. -/
theorem redeclarations_leaveExpr {rules : Rules} {mode : TransformMode} {s t : Arena × Analyzer}
    {id : ExprId} (h : (transformer rules mode).Does (.leaveExpr id) s t) :
    redeclarations (emitted ⟨.leaveExpr id, s.1, s.2, t.2⟩) = [] := by
  obtain ⟨type, count, htype, heq, -⟩ := does_leaveExpr h
  have hemitted : emitted ⟨.leaveExpr id, s.1, s.2, t.2⟩ = type.findings :=
    emitted_eq (by rw [heq]; rfl)
  rw [hemitted]
  obtain ⟨e, -, htype⟩ := of_bind_ok htype
  obtain ⟨form, -, htype⟩ := of_bind_ok htype
  cases htype
  exact rules.quiet_type s.2.place.scope e.span form

end Analyzer
end ShaderFront
