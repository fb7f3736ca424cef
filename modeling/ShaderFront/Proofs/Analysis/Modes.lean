import ShaderFront.Proofs.Analysis.Comparison
import ShaderFront.Proofs.Analysis.Stripping

/-!
# Analysis in different modes

Whether an analysis strips parentheses or leaves them, it finds the same in a forest. In one run a
node sees parentheses among its children, in the other one it sees what they enclose; the rules
cannot tell them apart, but for the place.
-/

namespace ShaderFront
namespace Modes

open Transformer

/-- The same span, or two spans of one expression below an item that is in parentheses: that of the
parentheses and that of what they enclose. -/
def Near (u : ShaderUnit) (span span' : Span) : Prop :=
  span' = span ∨ ∃ id, u.Reaches id ∧ u.arena.IsParen id ∧
    u.arena.SpanAt id span ∧ u.arena.SpanAt id span'

instance (u : ShaderUnit) : Std.Refl (Near u) := ⟨fun _ => .inl rfl⟩

/-- How two runs in different modes stand once some expressions have been gone through. -/
structure Rel (u : ShaderUnit) (mode mode' : TransformMode) (V : Set ExprId)
    (s : Arena × Analyzer.Recorded) (s' : Arena × Analyzer) : Prop where
  first : Passed u.arena mode.exprs V s.1
  second : Passed u.arena mode'.exprs V s'.1
  place : s'.2.place = s.2.1.place
  types : s'.2.types = s.2.1.types
  /-- What is ahead has no type yet. -/
  ahead : ∀ id, id ∉ V → s.2.1.types.get? id = none
  findings : List.Forall₂ (Finding.Alike (Near u)) s.2.1.findings s'.2.findings
  visited : ∀ id ∈ visited s.2.2, id ∈ V
  once : (Transformer.visited s.2.2).Nodup

variable {u : ShaderUnit} {mode mode' : TransformMode}

theorem alike {strip strip' : Bool} {types : TypeTable} {id : ExprId} {o o' : Operand}
    (hid : u.Reaches id) (h : Seen u.arena strip types id o)
    (h' : Seen u.arena strip' types id o') : o.Alike (Near u) o' := by
  refine ⟨h'.type_eq.trans h.type_eq.symm, ?_, fun _ => h.core_eq h'⟩
  by_cases hparen : u.arena.IsParen id
  · exact .inr ⟨id, hid, hparen, h.spanAt, h'.spanAt⟩
  · exact .inl (h.span_eq h' hparen)

/-- **Going through an expression in both modes.** -/
theorem follows (forest : u.Forest) (rules : Rules) (depth : Nat) {id : ExprId}
    (hid : u.Reaches id) : Follows (Rel u mode mode') (Rel u mode mode') (u.arena.extent [.inl id])
      ((Analyzer.transformer rules mode).recording.transformExpr depth id)
      ((Analyzer.transformer rules mode').transformExpr depth id) := by
  induction depth generalizing id with
  | zero =>
    intro V s s' t _ _ hrun
    cases hrun
  | succ depth ih =>
    refine follows_expr forest (fun V s s' hnew h => ⟨h.first.ahead id hnew, fun n get => ?_⟩)
      (fun c hc => ih (hid.below (.single hc))) ?_
    · exact ⟨n, (h.second.ahead id hnew).trans get, rfl⟩
    · intro V s s' n out z get hnew hchildren h hleave
      obtain ⟨f, out, count, hseen, hrun, hfirst⟩ :=
        h.first.leaveExpr (s := (s.1, s.2.1)) forest.acyclic rules hnew get hchildren
      obtain ⟨f', out', count', hseen', hrun', hsecond⟩ :=
        h.second.leaveExpr forest.acyclic rules hnew get hchildren
      obtain ⟨after, hhook, rfl⟩ := leaveExpr_of_recording hleave
      cases hhook.symm.trans hrun
      have htype := rules.type_alike s.2.1.place.scope n.span fun c hc => by
        have hreach : u.Reaches c := hid.below (.single ⟨n, get, hc⟩)
        have hc' := hseen' c hc
        rw [h.types] at hc'
        exact alike hreach (hseen c hc) hc'
      rw [h.place] at hrun'
      refine ⟨out', _, hrun', hfirst, hsecond, h.place, ?_,
        Analyzer.record_ahead h.ahead id _, List.rel_append h.findings htype.findings,
        fun x hx => ?_, ?_⟩
      · simp only [recorded, Analyzer.record, htype.value, h.types]
      · rw [recorded, visited_leaveExpr, List.mem_append, List.mem_singleton] at hx
        exact hx.elim (fun hmem => .inr (h.visited x hmem)) .inl
      · rw [recorded, visited_leaveExpr]
        exact List.nodup_append'.2 ⟨h.once, List.nodup_singleton id, by
          rw [List.disjoint_singleton]
          exact fun hmem => hnew (h.visited id hmem)⟩

theorem comparison (forest : u.Forest) (rules : Rules) (mode mode' : TransformMode) :
    Comparison u rules mode mode' (Near u) (fun _ => True) (Rel u mode mode') where
  stmts h := ⟨h.first.stmts, h.second.stmts⟩
  place h _ := h.place
  operand {V s s' id} h hroot hid := by
    obtain ⟨o, ho, hseen⟩ := h.first.operand forest.acyclic hid s.2.1
    obtain ⟨o', ho', hseen'⟩ := h.second.operand forest.acyclic hid s'.2
    rw [h.types] at hseen'
    exact ⟨o, o', ho, ho', fun _ => alike hroot.reaches hseen hseen'⟩
  move h hevent hp := by
    refine ⟨h.first, h.second, (hp trivial).value, h.types, h.ahead,
      List.rel_append h.findings (hp trivial).findings, ?_, ?_⟩
    · rw [recorded, visited_other _ hevent]
      exact h.visited
    · rw [recorded, visited_other _ hevent]
      exact h.once
  expr {id} hroot := follows_exprDepth (fun V s s' h => h.second.size.trans h.first.size.symm)
    fun depth => follows forest rules depth hroot.reaches

theorem rel_start (u : ShaderUnit) (mode mode' : TransformMode) :
    Rel u mode mode' ∅ (u.arena, .start u, []) (u.arena, .start u) where
  first := .start u.arena mode.exprs
  second := .start u.arena mode'.exprs
  place := rfl
  types := rfl
  ahead id _ := Analyzer.get?_start u id
  findings := List.forall₂_same.2 fun _ _ => ⟨rfl, .inl rfl⟩
  visited _ hid := nomatch hid
  once := List.nodup_nil

/-- What the analysis of a forest leaves: everything that is reached has been gone through, and
nothing else has a type. -/
theorem analysis_passed {u : ShaderUnit} (forest : u.Forest) {config : AnalysisConfig}
    {r : Analysis} (ended : analyze u config = .ok r) :
    r.unit = { u with arena := r.unit.arena } ∧
      Passed u.arena config.transform.exprs {id | u.Reaches id} r.unit.arena ∧
      ∀ id, ¬u.Reaches id → r.types.get? id = none := by
  have hcomparison := comparison forest (u.rules config) config.transform config.transform
  obtain ⟨t, t', -, rfl, -, hrel⟩ :=
    hcomparison.analyze config forest rfl (rel_start u _ _) ended
  exact ⟨rfl, hrel.first, hrel.ahead⟩

/-- No expression of a forest is left twice. -/
theorem analysis_once {u : ShaderUnit} (forest : u.Forest) {config : AnalysisConfig}
    {r : Analysis} (ended : analyze u config = .ok r) :
    ∃ steps, u.steps config = .ok steps ∧ (visited steps).Nodup := by
  have hcomparison := comparison forest (u.rules config) config.transform config.transform
  obtain ⟨t, t', hsteps, -, -, hrel⟩ :=
    hcomparison.analyze config forest rfl (rel_start u _ _) ended
  exact ⟨_, hsteps, hrel.once⟩

/-- **Analyses that strip parentheses and analyses that leave them agree.** If the analysis of a
forest does not fault in one mode it does not fault in any other, the table of types is the same,
and so is each diagnostic, but for the place of its label where the expression that is reported is
in parentheses. If all ids are in range there is no fault. -/
theorem analysis_modes {u : ShaderUnit} (forest : u.Forest) (config : AnalysisConfig)
    (mode : TransformMode) :
    (u.WellFormed → ∃ r, analyze u config = .ok r) ∧
    ∀ r, analyze u config = .ok r →
      ∃ r', analyze u { config with transform := mode } = .ok r' ∧ r'.types = r.types ∧
        List.Forall₂ (Diagnostic.Alike (Near u)) r.diagnostics r'.diagnostics := by
  refine ⟨fun wf => Stripping.analyze_ok wf config, fun r ended => ?_⟩
  have hcomparison := comparison forest (u.rules config) config.transform mode
  obtain ⟨t, t', -, rfl, ended', hrel⟩ :=
    hcomparison.analyze { config with transform := mode } forest rfl
      (rel_start u config.transform mode) ended
  exact ⟨_, ended', hrel.types, Finding.Alike.map_diagnostic hrel.findings⟩

/-- A sampler whose initial value is a number in two pairs of parentheses. -/
def mismatched : ShaderUnit where
  items := [.global ⟨"s", ⟨"sampler", .point 0 1 1⟩, some ⟨2⟩, .point 0 1 1⟩]
  arena := Stripping.nested.arena

theorem mismatched_forest : mismatched.Forest :=
  ⟨Stripping.nested_wellFormed.acyclic, by decide⟩

theorem analysis_modes_mismatched :
    mismatched.Forest ∧ ∃ r r', analyze mismatched {} = .ok r ∧
      analyze mismatched .readOnly = .ok r' ∧ r'.types = r.types ∧
      List.Forall₂ (Diagnostic.Alike (Near mismatched)) r.diagnostics r'.diagnostics ∧
      r'.diagnostics ≠ r.diagnostics := by
  obtain ⟨-, hmodes⟩ := analysis_modes mismatched_forest {} .none
  have hlabels : (analyze mismatched {}).map (fun r => r.diagnostics.map Diagnostic.primarySpan?) =
      .ok [some (.point 0 1 3)] := by decide +kernel
  have hlabels' : (analyze mismatched .readOnly).map
      (fun r => r.diagnostics.map Diagnostic.primarySpan?) = .ok [some (.point 0 1 1)] := by
    decide +kernel
  obtain ⟨r, hrun, hspans⟩ := of_map_ok hlabels
  obtain ⟨r', hrun', htypes, halike⟩ := hmodes r hrun
  obtain ⟨r'', hrun'', hspans'⟩ := of_map_ok hlabels'
  cases hrun'.symm.trans hrun''
  refine ⟨mismatched_forest, r, r', hrun, hrun', htypes, halike, fun heq => ?_⟩
  rw [heq, hspans] at hspans'
  exact absurd hspans' (by decide)

end Modes
end ShaderFront
