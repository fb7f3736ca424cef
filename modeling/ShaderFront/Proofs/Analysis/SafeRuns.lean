import ShaderFront.Proofs.Analysis.RecordedTypes

/-!
# Analyses that end, one after the other

If all ids of a unit are in range and no node lies below itself, an analysis ends: whatever it looks
up is there, and wherever it counts components they fit into a byte. It leaves a unit of which the
same can be said, so another analysis may follow it, and any number of them.
-/

namespace ShaderFront

open Transformer

/-- The types whose components a rule counts, whether it comes to that or not. -/
inductive Rules.Counts (r : Rules) : ExprForm Operand → Ty → Prop where
  | condition {c y n ty} (type : c.type = some ty) : Counts r (.conditional c y n) ty
  | branches {c y n left right ty} (yes : y.type = some left) (no : n.type = some right)
      (combined : left.combine? right false = some ty) : Counts r (.conditional c y n) ty
  | constructed {callee args ty} (named : r.items.type? callee = some ty) :
      Counts r (.call callee args) ty
  | argument {callee args o ty} (mem : o ∈ args) (type : o.type = some ty) :
      Counts r (.call callee args) ty

/-- Operands that are spelled have no more components than fit into a byte, and neither has
anything else whose components are counted. -/
theorem Rules.Counts.lt_size {r : Rules} (all : r.items.SpellsAll) {form : ExprForm Operand}
    (operands : ∀ o ∈ form.children, r.items.Admits o.type) {ty : Ty} (h : r.Counts form ty) :
    ty.componentCount < UInt8.size := by
  have hspells : r.items.Spells ty := by
    cases h with
    | @condition c y n ty type => exact operands c (by simp [ExprForm.children]) ty type
    | @branches c y n left right ty yes no combined =>
      have hleft := operands y (by simp [ExprForm.children]) left yes
      have hright := operands n (by simp [ExprForm.children]) right no
      exact all.combine? hleft hright false ty combined
    | constructed named => exact ItemTable.spells_of_type? named
    | argument mem type => exact operands _ mem ty type
  exact Nat.lt_of_le_of_lt (all.closed hspells).componentCount_le (by decide)

namespace Analyzer

/-- A step that leaves an expression finds the expression and its operands, and the components that
are counted fit into a byte. -/
def CountsInBytes (rules : Rules) (step : Transformer.Step Analyzer) : Prop :=
  ∀ id, step.event = .leaveExpr id → ∃ e form, step.arena.expr? id = some e ∧
    e.form.mapM (step.before.operand step.arena) = .ok form ∧
    ∀ ty, rules.Counts form ty → ty.componentCount < UInt8.size

theorem does_countsInBytes {rules : Rules} {mode : TransformMode} {event : Event}
    {s t : Arena × Analyzer} (all : rules.items.SpellsAll)
    (h : (transformer rules mode).Does event s t) (spelled : s.2.Spelled rules.items) :
    CountsInBytes rules ⟨event, s.1, s.2, t.2⟩ := by
  rintro id rfl
  obtain ⟨type, -, htype, -⟩ := does_leaveExpr h
  obtain ⟨e, he, htype⟩ := of_bind_ok htype
  obtain ⟨form, hform, -⟩ := of_bind_ok htype
  exact ⟨e, form, Arena.expr?_of_ok he, hform, fun ty counts =>
    counts.lt_size all (spelled.operands hform)⟩

end Analyzer

namespace ShaderUnit

/-- Analyses one after the other, each of the unit that the one before has left. -/
def analyses (u : ShaderUnit) : List AnalysisConfig → Except Fault (List Analysis)
  | [] => .ok []
  | config :: rest => do
    let r ← analyze u config
    let more ← r.unit.analyses rest
    return r :: more

/-- An analysis that ends without a fault, has counted no more components than fit into a byte, and
has left a unit whose ids are in range and where no node lies below itself. -/
structure AnalysedSafely (u : ShaderUnit) (config : AnalysisConfig) (r : Analysis) : Prop where
  ended : analyze u config = .ok r
  left : r.unit.WellFormed
  counts : ∃ steps, u.steps config = .ok steps ∧
    ∀ step ∈ steps, Analyzer.CountsInBytes (u.rules config) step

/-- Each analysis is safe for the unit that the one before has left. -/
inductive SafeRuns : ShaderUnit → List AnalysisConfig → List Analysis → Prop where
  | nil {u} : SafeRuns u [] []
  | cons {u config configs r rs} (safe : u.AnalysedSafely config r)
      (rest : SafeRuns r.unit configs rs) : SafeRuns u (config :: configs) (r :: rs)

theorem WellFormed.analysedSafely {u : ShaderUnit} (wf : u.WellFormed)
    (config : AnalysisConfig) : ∃ r, u.AnalysedSafely config r := by
  have all : (u.rules config).items.SpellsAll := ItemTable.spellsAll_collect u
  obtain ⟨r, ended, left⟩ := Stripping.analyze_wellFormed wf config
  obtain ⟨t, steps, htrace, -, hsteps, -⟩ := analyze_steps ended
  refine ⟨r, ended, left, steps, hsteps, fun step hmem => ?_⟩
  obtain ⟨before, after, rfl⟩ := List.append_of_mem hmem
  obtain ⟨v, v', hbefore, hdoes, heq, -⟩ := htrace.at_step
  rw [heq]
  exact Analyzer.does_countsInBytes all hdoes
    (Analyzer.trace_spelled all hbefore (Analyzer.start_spelled u _))

/-- **Analyses end.** If all ids of a unit are in range and no node lies below itself, an analysis
ends without a fault, it counts no more components than fit into a byte, and it leaves a unit of
which the same holds. So any number of analyses end one after the other, whatever their options. -/
theorem WellFormed.analyses_end {u : ShaderUnit} (wf : u.WellFormed) :
    (∀ config, ∃ r, u.AnalysedSafely config r) ∧
      ∀ configs, ∃ rs, u.analyses configs = .ok rs ∧ u.SafeRuns configs rs := by
  refine ⟨wf.analysedSafely, fun configs => ?_⟩
  induction configs generalizing u with
  | nil => exact ⟨[], rfl, .nil⟩
  | cons config rest ih =>
    obtain ⟨r, safe⟩ := wf.analysedSafely config
    obtain ⟨rs, hruns, hsafe⟩ := ih safe.left
    exact ⟨r :: rs, bind_ok safe.ended (bind_ok hruns rfl), .cons safe hsafe⟩

/-- Two statements share a matrix of four copies of a vector in two pairs of parentheses. -/
def tiled : ShaderUnit where
  items := [.function ⟨"f", [⟨"c", ⟨"float4", .point 0 1 8⟩, .point 0 1 15⟩],
    ⟨"void", .point 0 1 1⟩, ⟨2⟩, .point 0 1 6⟩]
  arena :=
    { exprs := #[⟨.ident "c", .point 0 2 12⟩, ⟨.paren ⟨0⟩, .point 0 2 11⟩,
        ⟨.paren ⟨1⟩, .point 0 2 10⟩, ⟨.call "float4x4" [⟨2⟩, ⟨2⟩, ⟨2⟩, ⟨2⟩], .point 0 2 1⟩]
      stmts := #[⟨.expr ⟨3⟩, .point 0 2 1⟩, ⟨.expr ⟨3⟩, .point 0 3 1⟩,
        ⟨.block [⟨0⟩, ⟨1⟩], .point 0 1 18⟩] }

theorem analyses_end_tiled : tiled.WellFormed ∧ ∃ r r',
    tiled.analyses [{}, .readOnly] = .ok [r, r'] ∧ tiled.AnalysedSafely {} r ∧
      r.unit.AnalysedSafely .readOnly r' ∧ r.types.get? ⟨3⟩ = some (.matrix .float 4 4) := by
  have wf : tiled.WellFormed := Ascending.wellFormed ⟨by decide, by decide, by decide⟩
  have htype : (analyze tiled {}).map (fun r => r.types.get? ⟨3⟩) =
      .ok (some (.matrix .float 4 4)) := by decide +kernel
  obtain ⟨found, hrun, hmatrix⟩ := of_map_ok htype
  obtain ⟨rs, hruns, hsafe⟩ := wf.analyses_end.2 [{}, .readOnly]
  cases hsafe with
  | cons safe rest =>
    cases rest with
    | cons safe' rest =>
      cases rest
      cases hrun.symm.trans safe.ended
      exact ⟨wf, _, _, hruns, safe, safe', hmatrix⟩

end ShaderUnit
end ShaderFront
