import ShaderFront.Proofs.Analysis.Levels
import ShaderFront.Proofs.Analysis.Reports
import ShaderFront.Tool.Check

/-!
# Where diagnostics point

Every finding of an analysis is at the place of something that is written in the unit. Nodes may be
replaced on the way, but only by other nodes of the unit, so the arena never holds a span that is
not there from the start. Hence what is recorded for a unit points into that unit, each diagnostic
at one place, and a truncation is the only warning.
-/

namespace ShaderFront

open Transformer Reported

/-- Analyses a unit on a record that may hold something already. -/
def analyzeOnto (sink : DiagnosticSink) (u : ShaderUnit) (config : AnalysisConfig) :
    Except Fault (Analysis × DiagnosticSink) := do
  let r ← analyze u config
  return (r, sink.emitAll r.diagnostics)

/-- A unit is checked on a fresh record. -/
theorem checkUnit_eq (u : ShaderUnit) (config : Config) :
    checkUnit u config = (analyzeOnto {} u config.analysis).map fun x => ⟨x.1, x.2⟩ := by
  unfold checkUnit analyzeOnto
  cases analyze u config.analysis <;> rfl

namespace Analyzer

variable {s : Analyzer} {a : Arena}

/-! ## What is found of operands -/

theorem of_optionalOperand_ok {value : Option ExprId} {seen : Option Operand}
    (h : s.optionalOperand a value = .ok seen) : ∀ o ∈ seen, ∃ id, s.operand a id = .ok o := by
  cases value with
  | none =>
    cases h
    exact nofun
  | some id =>
    obtain ⟨o, ho, h⟩ := of_bind_ok h
    cases h
    intro o' ho'
    cases ho'
    exact ⟨id, ho⟩

/-- A declaration is seen as it is written. -/
theorem of_declOperands_ok {decl : VarDecl ExprId} {seen : VarDecl Operand}
    (h : s.declOperands a decl = .ok seen) :
    seen.spans = decl.spans ∧ ∀ o ∈ seen.init, ∃ id, s.operand a id = .ok o := by
  obtain ⟨init, hinit, h⟩ := of_bind_ok h
  cases h
  exact ⟨rfl, of_optionalOperand_ok hinit⟩

theorem of_stmtOperands_ok {form : StmtForm ExprId StmtId} {seen : StmtForm Operand StmtId}
    (h : s.stmtOperands a form = .ok seen) :
    ∀ o, .inl o ∈ seen.children → ∃ id, s.operand a id = .ok o := by
  cases form with
  | block | discard | breakLoop | continueLoop | empty =>
    cases h
    intro o ho
    simp [StmtForm.children] at ho
  | expr e | whileLoop e | ifElse e =>
    obtain ⟨o, ho, h⟩ := of_bind_ok h
    cases h
    intro o' ho'
    obtain rfl : o' = o := by simpa [StmtForm.children] using ho'
    exact ⟨e, ho⟩
  | declare decl =>
    obtain ⟨d, hd, h⟩ := of_bind_ok h
    cases h
    intro o ho
    exact (of_declOperands_ok hd).2 o (by simpa [StmtForm.children] using ho)
  | returns value =>
    obtain ⟨v, hv, h⟩ := of_bind_ok h
    cases h
    intro o ho
    exact of_optionalOperand_ok hv o (by simpa [StmtForm.children] using ho)
  | forLoop init c step body =>
    obtain ⟨c', hc, h⟩ := of_bind_ok h
    obtain ⟨step', hstep, h⟩ := of_bind_ok h
    cases h
    intro o ho
    have hmem : o ∈ c' ∨ o ∈ step' := by simpa [StmtForm.children] using ho
    rcases hmem with hmem | hmem
    · exact of_optionalOperand_ok hc o hmem
    · exact of_optionalOperand_ok hstep o hmem

/-- What is seen to be a cast was written as one. -/
theorem cast_of_mapM {form : ExprForm ExprId} {written : WrittenType} {o : Operand}
    (h : form.mapM (s.operand a) = .ok (.cast written o)) : ∃ id, form = .cast written id := by
  cases form with
  | cast w id =>
    obtain ⟨_, -, h⟩ := of_bind_ok h
    cases h
    exact ⟨id, rfl⟩
  | literal | ident | error => cases h
  | unary | member | paren | call =>
    obtain ⟨_, -, h⟩ := of_bind_ok h
    cases h
  | binary | index | assign =>
    obtain ⟨_, -, h⟩ := of_bind_ok h
    obtain ⟨_, -, h⟩ := of_bind_ok h
    cases h
  | conditional =>
    obtain ⟨_, -, h⟩ := of_bind_ok h
    obtain ⟨_, -, h⟩ := of_bind_ok h
    obtain ⟨_, -, h⟩ := of_bind_ok h
    cases h

/-! ## Places on the way -/

/-- The arena holds nodes of the unit only, and all findings are at places of the unit. -/
structure Placed (u : ShaderUnit) (s : Arena × Analyzer) : Prop where
  exprs : ∀ id e, s.1.expr? id = some e → ∃ origin, u.arena.expr? origin = some e
  stmts : s.1.stmts = u.arena.stmts
  findings : ∀ f ∈ s.2.findings, f.span ∈ u.spans

variable {u : ShaderUnit} {rules : Rules} {mode : TransformMode} {s t : Arena × Analyzer}

theorem placed_start (u : ShaderUnit) : Placed u (u.arena, .start u) where
  exprs id _ get := ⟨id, get⟩
  stmts := rfl
  findings := ItemTable.addItems_finds {} fun _ hitem _ _ hspan _ =>
    ShaderUnit.mem_spans_item hitem hspan

namespace Placed

theorem operand (h : Placed u s) {id : ExprId} {o : Operand} (found : s.2.operand s.1 id = .ok o) :
    o.span ∈ u.spans := by
  obtain ⟨-, e, get, hspan⟩ := of_operand_ok found
  obtain ⟨origin, hget⟩ := h.exprs id e get
  rw [hspan]
  exact ShaderUnit.mem_spans_expr hget e.span_mem_spans

theorem stmt (h : Placed u s) {id : StmtId} {stmt : Stmt} (get : s.1.stmt? id = some stmt) :
    u.arena.stmt? id = some stmt := by
  rwa [Arena.stmt?_congr h.stmts] at get

/-- Going to a place. -/
theorem moveTo (h : Placed u s) {p : Reported Place} (hp : p.Finds (·.span ∈ u.spans)) :
    Placed u (s.1, s.2.moveTo p) := by
  refine ⟨h.exprs, h.stmts, fun f hf => ?_⟩
  rcases List.mem_append.1 hf with hmem | hmem
  · exact h.findings f hmem
  · exact hp f hmem

/-- A declaration is reported where it is written, or at its initial value. -/
theorem declaration (h : Placed u s) {decl : VarDecl ExprId} {d : VarDecl Operand}
    (found : s.2.declOperands s.1 decl = .ok d) (hdecl : ∀ span ∈ decl.spans, span ∈ u.spans)
    (rules : Rules) : (rules.declaration s.2.place d).Finds (·.span ∈ u.spans) := by
  obtain ⟨hspans, hinit⟩ := of_declOperands_ok found
  rw [← hspans] at hdecl
  have hspan : d.span ∈ u.spans := hdecl _ List.mem_cons_self
  have htype : d.type.span ∈ u.spans := hdecl _ (List.mem_cons_of_mem _ List.mem_cons_self)
  refine rules.declaration_finds s.2.place d ?_ (fun o value target ho => ?_) hspan
  · have hreports : (rules.declaredType d.name d.type).Reports false (· ∈ u.spans) :=
      rules.declaredType_reports d.name htype
    exact hreports.mono fun f hf => hf.place
  · obtain ⟨id, hid⟩ := hinit o ho
    exact Finds.mono (rules.store_reports (h.operand hid) value target) fun f hf => hf.place

/-- A statement is reported where it is written, or at one of its operands. -/
theorem statement (h : Placed u s) {id : StmtId} {stmt : Stmt} (get : s.1.stmt? id = some stmt)
    {form : StmtForm Operand StmtId} (found : s.2.stmtOperands s.1 stmt.form = .ok form)
    (rules : Rules) :
    (rules.statement s.2.place stmt.span form).Finds (·.span ∈ u.spans) := by
  have hget := h.stmt get
  by_cases hdeclare : ∃ d, form = .declare d
  · obtain ⟨d, rfl⟩ := hdeclare
    obtain ⟨decl, hdecl, hd⟩ := of_stmtOperands_declare found
    exact h.declaration hd (fun span hspan =>
      ShaderUnit.mem_spans_stmt hget (Stmt.mem_spans_declare hdecl hspan)) rules
  · have hspan : stmt.span ∈ u.spans := ShaderUnit.mem_spans_stmt hget stmt.span_mem_spans
    have hoperands : ∀ o, .inl o ∈ form.children → o.span ∈ u.spans := fun o ho => by
      obtain ⟨id, hid⟩ := of_stmtOperands_ok found o ho
      exact h.operand hid
    have hreports := rules.statement_reports hspan s.2.place
      (fun d hd => hdeclare ⟨d, hd⟩) hoperands
    exact Finds.mono hreports fun f hf => hf.place

/-- An expression is reported where it is written, or at one of its operands. -/
theorem type (h : Placed u s) {id : ExprId} {e : Expr} (get : s.1.expr? id = some e)
    {form : ExprForm Operand} (found : e.form.mapM (s.2.operand s.1) = .ok form) (rules : Rules) :
    (rules.type s.2.place.scope e.span form).Finds (·.span ∈ u.spans) := by
  obtain ⟨origin, hget⟩ := h.exprs id e get
  have hspan : e.span ∈ u.spans := ShaderUnit.mem_spans_expr hget e.span_mem_spans
  have hoperands : ∀ o ∈ form.children, o.span ∈ u.spans := fun o ho => by
    obtain ⟨c, -, hc⟩ := ExprForm.of_mapM_ok found o ho
    exact h.operand hc
  have hwritten : ∀ w o, form = .cast w o → w.span ∈ u.spans := by
    rintro w o rfl
    obtain ⟨c, hcast⟩ := cast_of_mapM found
    exact ShaderUnit.mem_spans_expr hget (Expr.written_mem_spans hcast)
  have hreports := rules.type_reports hspan s.2.place.scope hoperands hwritten
  exact Finds.mono hreports fun f hf => hf.place

/-- Storing a node of the arena over another one. -/
theorem setExpr (h : Placed u s) {id inner : ExprId} {core : Expr}
    (hcore : s.1.expr? inner = some core) : Placed u (s.1.setExpr id core, s.2) := by
  refine ⟨fun other e get => ?_, h.stmts, h.findings⟩
  by_cases heq : other = id
  · subst heq
    have hlt : other.index < s.1.exprs.size := by
      have hlt := (Array.getElem?_eq_some_iff.1 get).1
      rwa [Arena.size_setExpr] at hlt
    rw [Arena.expr?_setExpr_self _ _ _ hlt] at get
    cases get
    exact h.exprs inner core hcore
  · rw [Arena.expr?_setExpr_ne _ _ _ _ heq] at get
    exact h.exprs other e get

/-- **A step finds nothing but at places of the unit**, and stores no other nodes. -/
theorem does (h : Placed u s) {event : Event} (does : (transformer rules mode).Does event s t)
    (meets : u.Meets event) : Placed u t := by
  cases hleft : event.left? with
  | some id =>
    obtain rfl := Event.eq_of_left? hleft
    obtain ⟨type, count, htype, heq, -⟩ := does_leaveExpr does
    obtain ⟨e, he, htype⟩ := of_bind_ok htype
    obtain ⟨form, hform, htype⟩ := of_bind_ok htype
    cases htype
    have hfinds := h.type (Arena.expr?_of_ok he) hform rules
    have hrecorded : Placed u (s.1, t.2) := by
      refine ⟨h.exprs, h.stmts, fun f hf => ?_⟩
      rw [heq] at hf
      rcases List.mem_append.1 hf with hmem | hmem
      · exact h.findings f hmem
      · exact hfinds f hmem
    obtain ⟨a, z⟩ := t
    rcases does_leaveExpr_arena does with rfl | ⟨_, inner, core, -, -, hcore, rfl⟩
    · exact hrecorded
    · exact hrecorded.setExpr hcore
  | none =>
    cases does with
    | @enterItem item a s _ hook =>
      cases hook
      cases item with
      | function f =>
        have hitem : .function f ∈ u.items := meets _ (.inl rfl)
        refine h.moveTo (rules.enterFunction_finds _ f fun name param hparam => ?_)
        exact ShaderUnit.mem_spans_item hitem
          (List.mem_cons_of_mem _ (List.mem_cons_of_mem _ (Field.mem_spans hparam).1))
      | global | struct | typedef => exact h
    | @leaveItem item a s _ hook =>
      cases item with
      | function f =>
        cases hook
        exact ⟨h.exprs, h.stmts, h.findings⟩
      | global decl =>
        obtain ⟨d, hd, hook⟩ := of_bind_ok hook
        cases hook
        have hitem : .global decl ∈ u.items := meets _ (.inr rfl)
        exact h.moveTo (h.declaration hd
          (fun span hspan => ShaderUnit.mem_spans_item hitem hspan) rules)
      | struct | typedef =>
        cases hook
        exact h
    | @enterStmt id a s _ hook =>
      obtain ⟨stmt, -, hook⟩ := of_bind_ok hook
      cases hook
      split
      · exact ⟨h.exprs, h.stmts, h.findings⟩
      · exact h
    | @leaveStmt id a s out _ hook =>
      obtain ⟨stmt, hstmt, hook⟩ := of_bind_ok hook
      obtain ⟨form, hform, hook⟩ := of_bind_ok hook
      cases hook
      exact h.moveTo (h.statement (Arena.stmt?_of_ok hstmt) hform rules)
    | leaveExpr => cases hleft

theorem trace {steps : List (Transformer.Step Analyzer)}
    (h : (transformer rules mode).Trace s steps t) (hs : Placed u s)
    (meets : ∀ step ∈ steps, u.Meets step.event) : Placed u t := by
  induction h with
  | nil => exact hs
  | snoc _ does ih =>
    have hbefore := ih fun step hstep => meets step (List.mem_append_left _ hstep)
    exact hbefore.does does (meets _ (List.mem_append_right _ List.mem_cons_self))

end Placed
end Analyzer

/-- Every finding of an analysis is at a place of its unit. -/
theorem analyze_placed {u : ShaderUnit} {config : AnalysisConfig} {r : Analysis}
    (ended : analyze u config = .ok r) : ∀ f ∈ r.findings, f.span ∈ u.spans := by
  obtain ⟨t, steps, htrace, -, rfl, -, hmeets⟩ := analyze_items ended
  exact (Analyzer.Placed.trace htrace (Analyzer.placed_start u) hmeets).findings

/-- **Diagnostics are well placed and well classed.** An analysis that ends only adds to the record
of diagnostics, whatever that holds. What it adds is a warning if it is a truncation and an error if
it is not, and has exactly one label: a primary one, at a place of the unit. If all ids of the unit
are in range and no node lies below itself, the analysis ends. -/
theorem diagnostics_placed (sink : DiagnosticSink) (u : ShaderUnit) (config : AnalysisConfig) :
    (u.WellFormed → ∃ x, analyzeOnto sink u config = .ok x) ∧
    ∀ r sink', analyzeOnto sink u config = .ok (r, sink') →
      ∃ more, sink'.toList = sink.toList ++ more ∧ more = r.diagnostics ∧ ∀ d ∈ more,
        d.severity = (if d.code = .w2001 then .warning else .error) ∧
        ∃ span ∈ u.spans, d.labels = [⟨span, "", true⟩] := by
  refine ⟨fun wf => ?_, fun r sink' ended => ?_⟩
  · obtain ⟨r, hr⟩ := Stripping.analyze_ok wf config
    exact ⟨_, bind_ok hr rfl⟩
  · obtain ⟨r', hr, heq⟩ := of_bind_ok ended
    cases heq
    refine ⟨r.diagnostics, sink.toList_emitAll _, rfl, fun d hd => ?_⟩
    obtain ⟨f, hf, rfl⟩ := List.mem_map.1 hd
    exact ⟨f.severity_diagnostic, f.span, analyze_placed hr f hf, rfl⟩

/-- An addition of a cast in parentheses, to a type that is not there, and a name that is not. -/
def misplaced : ShaderUnit where
  items := [.function ⟨"f", [⟨"v", ⟨"float2", .point 0 1 8⟩, .point 0 1 15⟩],
    ⟨"void", .point 0 1 1⟩, ⟨1⟩, .point 0 1 6⟩]
  arena :=
    { exprs :=
        #[⟨.ident "v", .point 0 2 10⟩, ⟨.cast ⟨"Foo", .point 0 2 5⟩ ⟨0⟩, .point 0 2 4⟩,
          ⟨.paren ⟨1⟩, .point 0 2 3⟩, ⟨.ident "w", .point 0 2 15⟩,
          ⟨.binary .add ⟨2⟩ ⟨3⟩, .point 0 2 3⟩]
      stmts := #[⟨.expr ⟨4⟩, .point 0 2 3⟩, ⟨.block [⟨0⟩], .point 0 1 18⟩] }

/-- A note that is there before the unit is analysed stays the first record. -/
theorem diagnostics_placed_misplaced : misplaced.WellFormed ∧
    ∃ r sink' unknown missing,
      analyzeOnto (({} : DiagnosticSink).info .i0001 default "note") misplaced {} =
        .ok (r, sink') ∧
      sink'.toList = [.located .info .i0001 default "note", unknown, missing] ∧
      unknown.code = .e2005 ∧ missing.code = .e2003 ∧ missing.severity = .error ∧
      ∃ span ∈ misplaced.spans, missing.labels = [⟨span, "", true⟩] := by
  have wf : misplaced.WellFormed :=
    ShaderUnit.Ascending.wellFormed ⟨by decide, by decide, by decide⟩
  obtain ⟨hok, hplaced⟩ :=
    diagnostics_placed (({} : DiagnosticSink).info .i0001 default "note") misplaced {}
  obtain ⟨⟨r, sink'⟩, hrun⟩ := hok wf
  obtain ⟨more, hlist, hmore, hall⟩ := hplaced r sink' hrun
  have hcodes : (analyze misplaced {}).map (fun r => r.diagnostics.map (·.code)) =
      .ok [.e2005, .e2003] := by decide +kernel
  obtain ⟨r', hr', hcodes⟩ := of_map_ok hcodes
  obtain ⟨r'', hr'', heq⟩ := of_bind_ok hrun
  cases heq
  cases hr'.symm.trans hr''
  obtain ⟨unknown, rest, hsplit, hunknown, hrest⟩ := List.map_eq_cons_iff.1 (hmore ▸ hcodes)
  obtain ⟨missing, last, rfl, hmissing, hlast⟩ := List.map_eq_cons_iff.1 hrest
  obtain rfl := List.map_eq_nil_iff.1 hlast
  obtain ⟨hseverity, hlabels⟩ := hall missing (by simp [hsplit])
  refine ⟨wf, r, _, unknown, missing, hrun, ?_, hunknown, hmissing, ?_, hlabels⟩
  · rw [hlist, hsplit]
    rfl
  · rw [hseverity, hmissing]
    rfl

end ShaderFront
