import ShaderFront.Proofs.Analysis.Alike
import ShaderFront.Proofs.Analysis.Passed
import ShaderFront.Proofs.Syntax.Recording

/-!
# Comparing two runs of the analysis

Two runs by the same rules, of which the first one is recorded, go side by side through the
statements and items of a forest. As long as what they see of expressions is alike, they move from
place to place together and find the same. So a comparison has to be made for expressions only; it
may stop being of interest on the way, where the state of the first run is not `live`, but even then
the second run goes on.
-/

namespace ShaderFront

open Transformer Reported

/-- The state of a run that is recorded. -/
abbrev Analyzer.Recorded := Analyzer × List (Transformer.Step Analyzer)

/-- The steps of the analysis of a unit. -/
def ShaderUnit.steps (u : ShaderUnit) (config : AnalysisConfig) :
    Except Fault (List (Transformer.Step Analyzer)) := do
  let (_, _, steps) ←
    (Analyzer.transformer (u.rules config) config.transform).recording.run u (.start u, [])
  return steps

/-- An analysis that ends has steps, and they follow upon each other. -/
theorem analyze_steps {u : ShaderUnit} {config : AnalysisConfig} {r : Analysis}
    (ended : analyze u config = .ok r) : ∃ t steps,
      (Analyzer.transformer (u.rules config) config.transform).Trace (u.arena, .start u) steps t ∧
      (Analyzer.transformer (u.rules config) config.transform).recording.run u (.start u, []) =
        .ok ({ u with arena := t.1 }, t.2, steps) ∧
      u.steps config = .ok steps ∧ r = .ofRun u t := by
  obtain ⟨t, hrun, hr⟩ := analyze_eq_ok.1 ended
  obtain ⟨steps, htrace, hrecord⟩ := run_recording hrun
  exact ⟨t, steps, htrace, hrecord, bind_ok hrecord rfl, hr⟩

/-- A relation between a recorded run and another one, each with its own mode, under which they can
be compared. -/
structure Comparison (u : ShaderUnit) (rules : Rules) (mode mode' : TransformMode)
    (near : Span → Span → Prop) (live : Analyzer → Prop)
    (Rel : Set ExprId → Arena × Analyzer.Recorded → Arena × Analyzer → Prop) : Prop where
  stmts {V s s'} : Rel V s s' → s.1.stmts = u.arena.stmts ∧ s'.1.stmts = u.arena.stmts
  place {V s s'} : Rel V s s' → live s.2.1 → s'.2.place = s.2.1.place
  operand {V s s' id} : Rel V s s' → u.Root id → id ∈ V → ∃ o o',
    s.2.1.operand s.1 id = .ok o ∧ s'.2.operand s'.1 id = .ok o' ∧
      (live s.2.1 → o.Alike near o')
  /-- Both runs go to another place. -/
  move {V s s' event p p'} : Rel V s s' → event.left? = none →
    (live s.2.1 → p.Alike near p') →
    Rel V (s.1, recorded event s.1 s.2 (s.2.1.moveTo p)) (s'.1, s'.2.moveTo p')
  expr {id} : u.Root id → Follows Rel Rel (u.arena.extent [.inl id])
    (fun s => (Analyzer.transformer rules mode).recording.transformExpr s.1.exprDepth id s)
    fun s => (Analyzer.transformer rules mode').transformExpr s.1.exprDepth id s

namespace Comparison

variable {u : ShaderUnit} {rules : Rules} {mode mode' : TransformMode}
  {near : Span → Span → Prop} {live : Analyzer → Prop}
  {Rel : Set ExprId → Arena × Analyzer.Recorded → Arena × Analyzer → Prop}

/-- What both runs see of expressions that have been gone through. -/
theorem operands (k : Comparison u rules mode mode' near live Rel) {V : Set ExprId}
    {s : Arena × Analyzer.Recorded} {s' : Arena × Analyzer} (h : Rel V s s')
    {P : ExprId → Prop} (hP : ∀ id, P id → u.Root id ∧ id ∈ V) :
    ∃ f f' : ExprId → Operand, (∀ id, P id → s.2.1.operand s.1 id = .ok (f id)) ∧
      (∀ id, P id → s'.2.operand s'.1 id = .ok (f' id)) ∧
      ∀ id, P id → live s.2.1 → (f id).Alike near (f' id) := by
  have hoperands : ∀ id, P id → ∃ o o', s.2.1.operand s.1 id = .ok o ∧
      s'.2.operand s'.1 id = .ok o' ∧ (live s.2.1 → o.Alike near o') :=
    fun id hid => k.operand h (hP id hid).1 (hP id hid).2
  choose! f f' hf hf' halike using hoperands
  exact ⟨f, f', hf, hf', halike⟩

/-- Both runs go to places that are the same if they were. -/
theorem goTo (k : Comparison u rules mode mode' near live Rel) {V : Set ExprId}
    {s : Arena × Analyzer.Recorded} {s' : Arena × Analyzer} (h : Rel V s s') {event : Event}
    (hevent : event.left? = none) {p p' : Place} (hp : live s.2.1 → p' = p) :
    Rel V (s.1, recorded event s.1 s.2 { s.2.1 with place := p })
      (s'.1, { s'.2 with place := p' }) := by
  have halike (hlive : live s.2.1) : (pure p : Reported Place).Alike near (pure p') := by
    rw [hp hlive]
    exact alike_pure p
  simpa only [Analyzer.moveTo_pure] using k.move h hevent halike

/-- Both runs stay where they are. -/
theorem stay (k : Comparison u rules mode mode' near live Rel) {V : Set ExprId}
    {s : Arena × Analyzer.Recorded} {s' : Arena × Analyzer} (h : Rel V s s') {event : Event}
    (hevent : event.left? = none) :
    Rel V (s.1, recorded event s.1 s.2 s.2.1) s' := k.goTo h hevent (k.place h)

variable [Std.Refl near]

/-- **Statements and items are gone through side by side.** -/
theorem alongside (k : Comparison u rules mode mode' near live Rel) :
    (Analyzer.transformer rules mode).recording.Alongside
      (Analyzer.transformer rules mode') u Rel where
  stmts h := k.stmts h
  expr hid := k.expr hid
  enterStmt {V s s' id z} _ h hrun := by
    obtain ⟨hstmts, hstmts'⟩ := k.stmts h
    obtain ⟨w, henter, rfl⟩ := of_map_ok hrun
    obtain ⟨stmt, hstmt, -⟩ := of_bind_ok henter
    have get := Arena.stmt?_of_ok hstmt
    have get' : s'.1.stmt? id = some stmt :=
      (Arena.stmt?_congr (hstmts'.trans hstmts.symm) id).trans get
    cases henter.symm.trans (Analyzer.enterStmt_ok s.2.1 get)
    refine ⟨_, Analyzer.enterStmt_ok s'.2 get', k.move h rfl ?_⟩
    intro hlive
    rw [k.place h hlive]
    exact alike_refl _
  leaveStmt {V s s' id stmt out z} _ get hseen h hrun := by
    obtain ⟨hstmts, hstmts'⟩ := k.stmts h
    obtain ⟨⟨out, w⟩, hleave, heq⟩ := of_map_ok hrun
    cases heq
    obtain ⟨f, f', hf, hf', halike⟩ := k.operands h hseen
    have hget {a : Arena} (ha : a.stmts = u.arena.stmts) : a.stmt? id = some stmt :=
      (Arena.stmt?_congr ha id).trans get
    cases hleave.symm.trans (Analyzer.leaveStmt_ok rules (hget hstmts) hf)
    refine ⟨none, _, Analyzer.leaveStmt_ok rules (hget hstmts') hf',
      k.move h rfl ?_⟩
    intro hlive
    rw [k.place h hlive]
    exact rules.statement_alike _ _ fun e he => halike e he hlive
  enterItem {V s s' item z} _ h hrun := by
    cases hrun
    refine ⟨_, rfl, ?_⟩
    cases item with
    | function f =>
      refine k.move h rfl fun hlive => ?_
      rw [k.place h hlive]
      exact alike_refl _
    | global | struct | typedef => exact k.stay h rfl
  leaveItem {V s s' item z} _ hseen h hrun := by
    obtain ⟨w, hleave, rfl⟩ := of_map_ok hrun
    cases item with
    | function f =>
      cases hleave
      refine ⟨_, rfl, k.goTo h rfl fun hlive => ?_⟩
      rw [k.place h hlive]
    | global decl =>
      obtain ⟨f, f', hf, hf', halike⟩ := k.operands h fun id hid =>
        hseen id (by simpa [Item.children] using hid)
      cases hleave.symm.trans (bind_ok (Analyzer.declOperands_ok hf) rfl)
      refine ⟨_, bind_ok (Analyzer.declOperands_ok hf') rfl,
        k.move h rfl fun hlive => ?_⟩
      rw [k.place h hlive]
      exact rules.declaration_alike _ fun id hid => halike id hid hlive
    | struct | typedef =>
      cases hleave
      exact ⟨_, rfl, k.stay h rfl⟩

/-- **Both analyses end, and their ends are related.** -/
theorem analyze {config : AnalysisConfig} (config' : AnalysisConfig) {a' : Arena}
    (k : Comparison u (u.rules config) config.transform config'.transform near live Rel)
    (forest : u.Forest) (warn : config'.warnOnTruncation = config.warnOnTruncation)
    (h : Rel ∅ (u.arena, .start u, []) (a', .start { u with arena := a' })) {r : Analysis}
    (ended : ShaderFront.analyze u config = .ok r) :
    ∃ (t : Arena × Analyzer.Recorded) (t' : Arena × Analyzer),
      u.steps config = .ok t.2.2 ∧ r = .ofRun u (t.1, t.2.1) ∧
      ShaderFront.analyze { u with arena := a' } config' = .ok (.ofRun { u with arena := a' } t') ∧
      Rel {id | u.Reaches id} t t' := by
  obtain ⟨t, steps, -, hrecord, hsteps, rfl⟩ := analyze_steps ended
  obtain ⟨t', hrun', hrel⟩ := k.alongside.run forest h (t := (t.1, t.2, steps)) hrecord
  have hrules : ShaderUnit.rules { u with arena := a' } config' = u.rules config := by
    simp only [ShaderUnit.rules, ItemTable.collect, warn]
  refine ⟨(t.1, t.2, steps), t', hsteps, rfl, analyze_eq_ok.2 ⟨t', ?_, rfl⟩, hrel⟩
  rw [hrules]
  exact hrun'

end Comparison
end ShaderFront
