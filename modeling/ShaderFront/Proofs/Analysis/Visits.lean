import ShaderFront.Proofs.Analysis.Modes

/-!
# What the visits of a run leave behind

A recorded run of the analysis tells for each visit of an expression what type was found. An entry
of the table of types is never taken back: it holds the type that the last visit found that found
one. An expression that is visited once has an entry if and only if that visit found a type. One
that several nodes share keeps the entry of an earlier visit where a later one fails.
-/

namespace ShaderFront

open Transformer

namespace Analyzer

/-- What the rules say about an expression at this moment. -/
def typing (rules : Rules) (a : Arena) (id : ExprId) (s : Analyzer) :
    Except Fault (Reported (Option Ty)) := do
  let e ← a.expr id
  let form ← e.form.mapM (s.operand a)
  return rules.type s.place.scope e.span form

/-- The findings that a step adds. -/
def emitted (step : Transformer.Step Analyzer) : List Finding :=
  step.after.findings.drop step.before.findings.length

theorem emitted_eq {step : Transformer.Step Analyzer} {more : List Finding}
    (h : step.after.findings = step.before.findings ++ more) : emitted step = more := by
  simp [emitted, h]

/-- The type that a step finds for an expression, if it leaves that expression. -/
def foundType (rules : Rules) (id : ExprId) (step : Transformer.Step Analyzer) : Option Ty :=
  if step.event = .leaveExpr id then
    (typing rules step.arena id step.before).toOption.bind (·.value)
  else none

/-- The type that the last of some steps found that found one. -/
def lastFound (rules : Rules) (id : ExprId) (steps : List (Transformer.Step Analyzer)) :
    Option Ty := steps.reverse.findSome? (foundType rules id)

theorem lastFound_snoc (rules : Rules) (id : ExprId) (steps : List (Transformer.Step Analyzer))
    (step : Transformer.Step Analyzer) :
    lastFound rules id (steps ++ [step]) =
      (foundType rules id step).or (lastFound rules id steps) := findSome?_reverse_snoc ..

section

variable {rules : Rules} {mode : TransformMode} {s t : Arena × Analyzer}

/-- Leaving an expression enters the type that was found. -/
theorem leaveExpr_typing {a : Arena} {id : ExprId} {s s' : Analyzer} {out : Option Expr}
    (hook : leaveExpr rules mode a id s = .ok (out, s')) :
    ∃ type count, typing rules a id s = .ok type ∧
      s' = { s.record id type with replacements := count } := by
  obtain ⟨e, he, hook⟩ := of_bind_ok hook
  obtain ⟨form, hform, hook⟩ := of_bind_ok hook
  refine ⟨rules.type s.place.scope e.span form, s'.replacements,
    bind_ok he (bind_ok hform rfl), ?_⟩
  dsimp only at hook
  split at hook
  · obtain ⟨core, -, hook⟩ := of_bind_ok hook
    cases hook
    rfl
  · cases hook
    rfl

/-- Leaving an expression gives nothing, or the node behind parentheses. -/
theorem leaveExpr_gives {a : Arena} {id : ExprId} {s s' : Analyzer} {out : Option Expr}
    (hook : leaveExpr rules mode a id s = .ok (out, s')) :
    out = none ∨ ∃ e inner core, a.expr? id = some e ∧ e.form = .paren inner ∧
      a.expr? inner = some core ∧ out = some core := by
  obtain ⟨⟨form, span⟩, he, hook⟩ := of_bind_ok hook
  obtain ⟨seen, -, hook⟩ := of_bind_ok hook
  cases form with
  | paren inner =>
    obtain ⟨core, hcore, hook⟩ := of_bind_ok hook
    cases hook
    exact .inr ⟨_, inner, core, Arena.expr?_of_ok he, rfl, Arena.expr?_of_ok hcore, rfl⟩
  | _ =>
    cases hook
    exact .inl rfl

/-- **Leaving an expression** leaves the arena alone, or stores the node behind parentheses over
them. -/
theorem does_leaveExpr_arena {id : ExprId}
    (h : (transformer rules mode).Does (.leaveExpr id) s t) :
    t.1 = s.1 ∨ ∃ e inner core, s.1.expr? id = some e ∧ e.form = .paren inner ∧
      s.1.expr? inner = some core ∧ t.1 = s.1.setExpr id core := by
  cases h with
  | leaveExpr hook =>
    rcases leaveExpr_gives hook with rfl | ⟨e, inner, core, he, hform, hcore, rfl⟩
    · exact .inl rfl
    · unfold storeExpr
      dsimp only
      split
      · exact .inr ⟨e, inner, core, he, hform, hcore, rfl⟩
      · exact .inl rfl

/-- Every other hook makes a move and leaves the arena alone. -/
theorem does_moves {event : Event} (h : (transformer rules mode).Does event s t)
    (other : event.left? = none) : t.1 = s.1 ∧ ∃ u, Moves rules u s.2 t.2 := by
  cases h with
  | @enterItem item a s _ hook =>
    cases hook
    exact ⟨rfl, { items := [item] },
      Stripping.enterItem_moves (s := (a, s)) rules List.mem_cons_self⟩
  | @leaveItem item a s _ hook =>
    cases item with
    | function f =>
      cases hook
      exact ⟨rfl, {}, .leaveFunction⟩
    | global decl =>
      obtain ⟨d, -, hook⟩ := of_bind_ok hook
      cases hook
      exact ⟨rfl, {}, .declare d⟩
    | struct | typedef =>
      cases hook
      exact ⟨rfl, {}, .stay⟩
  | @enterStmt id a s _ hook =>
    obtain ⟨stmt, hstmt, -⟩ := of_bind_ok hook
    obtain ⟨s', hrun, hmoves⟩ :=
      Stripping.enterStmt_moves (u := {}) (s := (a, s)) rules (Arena.stmt?_of_ok hstmt)
    cases hook.symm.trans hrun
    exact ⟨rfl, {}, hmoves⟩
  | @leaveStmt id a s out _ hook =>
    obtain ⟨stmt, -, hook⟩ := of_bind_ok hook
    obtain ⟨form, -, hook⟩ := of_bind_ok hook
    cases hook
    exact ⟨rfl, {}, .statement stmt.span form⟩
  | leaveExpr => cases other

/-- Every other hook goes to a place. -/
theorem does_move {event : Event} (h : (transformer rules mode).Does event s t)
    (other : event.left? = none) : ∃ p, t = (s.1, s.2.moveTo p) := by
  obtain ⟨harena, u, hmoves⟩ := does_moves h other
  obtain ⟨p, hp⟩ := hmoves.moveTo
  exact ⟨p, Prod.ext harena hp⟩

theorem does_leaveExpr {id : ExprId} (h : (transformer rules mode).Does (.leaveExpr id) s t) :
    ∃ type count, typing rules s.1 id s.2 = .ok type ∧
      t.2 = { s.2.record id type with replacements := count } ∧
      id.index < s.1.exprs.size ∧ t.1.exprs.size = s.1.exprs.size := by
  cases h with
  | @leaveExpr _ a s out _ hook =>
    obtain ⟨type, count, htype, rfl⟩ := leaveExpr_typing hook
    obtain ⟨e, he, -⟩ := of_bind_ok hook
    refine ⟨type, count, htype, rfl, ?_, ?_⟩
    · exact (Array.getElem?_eq_some_iff.1 (Arena.expr?_of_ok he)).1
    · unfold storeExpr
      split
      · split
        · exact a.size_setExpr id _
        · rfl
      · rfl

/-- No step takes a finding back. -/
theorem does_findings {event : Event} (h : (transformer rules mode).Does event s t) :
    ∃ more, t.2.findings = s.2.findings ++ more := by
  cases hleft : event.left? with
  | some id =>
    obtain rfl := Event.eq_of_left? hleft
    obtain ⟨type, count, -, heq, -⟩ := does_leaveExpr h
    exact ⟨type.findings, by rw [heq]; rfl⟩
  | none =>
    obtain ⟨p, rfl⟩ := does_move h hleft
    exact ⟨p.findings, rfl⟩

/-- **The findings of a run are those that its steps add.** -/
theorem trace_findings {steps : List (Transformer.Step Analyzer)}
    (h : (transformer rules mode).Trace s steps t) :
    t.2.findings = s.2.findings ++ steps.flatMap emitted := by
  induction h with
  | nil => simp
  | @snoc steps t event t' _ does ih =>
    obtain ⟨more, hmore⟩ := does_findings does
    rw [List.flatMap_append, ← List.append_assoc, ← ih, List.flatMap_singleton, emitted_eq hmore]
    exact hmore

theorem foundType_leaveExpr {step : Transformer.Step Analyzer} {id : ExprId}
    {type : Reported (Option Ty)} (event : step.event = .leaveExpr id)
    (found : typing rules step.arena id step.before = .ok type) :
    foundType rules id step = type.value := by
  rw [foundType, if_pos event, found]
  rfl

theorem foundType_ne {step : Transformer.Step Analyzer} {id : ExprId}
    (event : step.event ≠ .leaveExpr id) : foundType rules id step = none := if_neg event

/-- **An entry is the type that was found last.** -/
theorem trace_entries {steps : List (Transformer.Step Analyzer)}
    (h : (transformer rules mode).Trace s steps t) (size : s.2.types.slots.size = s.1.exprs.size)
    (fresh : ∀ id, s.2.types.get? id = none) :
    t.2.types.slots.size = t.1.exprs.size ∧
      ∀ id, t.2.types.get? id = lastFound rules id steps := by
  induction h with
  | nil => exact ⟨size, fresh⟩
  | @snoc steps t event t' _ does ih =>
    obtain ⟨hsize, hentries⟩ := ih
    cases hleft : event.left? with
    | some id =>
      obtain rfl := Event.eq_of_left? hleft
      obtain ⟨type, count, htype, heq, hid, hsame⟩ := does_leaveExpr does
      refine ⟨?_, fun x => ?_⟩
      · rw [hsame, ← hsize, heq]
        exact size_record
      · rw [lastFound_snoc, ← hentries x]
        by_cases hx : x = id
        · subst hx
          rw [foundType_leaveExpr rfl htype, heq]
          exact get?_record (hsize ▸ hid) type
        · have hother : Event.leaveExpr id ≠ .leaveExpr x := by
            intro hevent
            cases hevent
            exact hx rfl
          rw [foundType_ne hother, Option.none_or, heq]
          exact t.2.get?_record_ne hx type
    | none =>
      obtain ⟨p, rfl⟩ := does_move does hleft
      refine ⟨hsize, fun x => ?_⟩
      have hother : event ≠ .leaveExpr x := by
        rintro rfl
        cases hleft
      rw [lastFound_snoc, foundType_ne hother]
      exact hentries x

/-- A moment of a run: what has been found so far is entered, the step of that moment included. -/
theorem trace_entry {steps more : List (Transformer.Step Analyzer)}
    {step : Transformer.Step Analyzer}
    (h : (transformer rules mode).Trace s (steps ++ step :: more) t)
    (size : s.2.types.slots.size = s.1.exprs.size) (fresh : ∀ id, s.2.types.get? id = none)
    (id : ExprId) :
    step.after.types.get? id = (foundType rules id step).or (lastFound rules id steps) := by
  obtain ⟨v, v', -, -, heq, htrace⟩ := h.at_step
  have hafter : step.after = v'.2 := congrArg Step.after heq
  rw [← lastFound_snoc, hafter]
  exact (trace_entries htrace size fresh).2 id

/-- Nothing was found for an expression that was not visited. -/
theorem lastFound_eq_none {steps : List (Transformer.Step Analyzer)} {id : ExprId}
    (h : id ∉ visited steps) : lastFound rules id steps = none := by
  rw [lastFound, List.findSome?_eq_none_iff]
  intro step hstep
  exact foundType_ne fun event => h (mem_visited (List.mem_reverse.1 hstep) event)

end

end Analyzer

namespace Visits

open Analyzer

/-- **An expression has the type of the last of its visits that found one.** In particular one that
fails has an entry if it was visited before and did not fail then; and as no expression of a forest
is visited twice, one of a forest has an entry if and only if its own visit found a type. -/
theorem entry_of_visits (u : ShaderUnit) (config : AnalysisConfig) :
    (u.WellFormed → ∃ r, analyze u config = .ok r) ∧
    ∀ r, analyze u config = .ok r → ∃ steps, u.steps config = .ok steps ∧
      ∀ before step after id, steps = before ++ step :: after → step.event = .leaveExpr id →
        step.after.types.get? id =
          (foundType (u.rules config) id step).or (lastFound (u.rules config) id before) ∧
        (u.Forest → step.after.types.get? id = foundType (u.rules config) id step) := by
  refine ⟨fun wf => Stripping.analyze_ok wf config, fun r ended => ?_⟩
  obtain ⟨t, steps, htrace, -, hsteps, -⟩ := analyze_steps ended
  refine ⟨steps, hsteps, ?_⟩
  rintro before step after id rfl event
  have hentry := trace_entry htrace (Analyzer.size_start u) (Analyzer.get?_start u) id
  refine ⟨hentry, fun forest => ?_⟩
  obtain ⟨steps', hsteps', honce⟩ := Modes.analysis_once forest ended
  cases hsteps.symm.trans hsteps'
  rw [visited, List.filterMap_append, ← visited, ← visited] at honce
  have hnew : id ∉ visited before := fun hmem =>
    (List.nodup_append'.1 honce).2.2 hmem (mem_visited List.mem_cons_self event)
  rw [hentry, lastFound_eq_none hnew, Option.or_none]

theorem entry_of_visits_mismatched :
    Modes.mismatched.WellFormed ∧ Modes.mismatched.Forest ∧ ∃ before step after,
      Modes.mismatched.steps {} = .ok (before ++ step :: after) ∧
      step.event = .leaveExpr ⟨2⟩ ∧ step.after.types.get? ⟨2⟩ = some (.scalar .int) := by
  have wf : Modes.mismatched.WellFormed :=
    ShaderUnit.Ascending.wellFormed ⟨by decide, fun i h => absurd h (Nat.not_lt_zero i), by decide⟩
  have hfound : (Modes.mismatched.steps {}).map (fun steps => steps.any fun step =>
      step.event = .leaveExpr ⟨2⟩ ∧
        foundType (Modes.mismatched.rules {}) ⟨2⟩ step = some (.scalar .int)) = .ok true := by
    decide +kernel
  obtain ⟨hok, hvisits⟩ := entry_of_visits Modes.mismatched {}
  obtain ⟨r, hrun⟩ := hok wf
  obtain ⟨steps, hsteps, hentries⟩ := hvisits r hrun
  obtain ⟨steps', hsteps', hany⟩ := of_map_ok hfound
  cases hsteps.symm.trans hsteps'
  obtain ⟨step, hmem, hstep⟩ := List.any_eq_true.1 hany
  obtain ⟨event, found⟩ := of_decide_eq_true hstep
  obtain ⟨before, after, rfl⟩ := List.append_of_mem hmem
  have hentry := (hentries before step after ⟨2⟩ rfl event).2 Modes.mismatched_forest
  exact ⟨wf, Modes.mismatched_forest, before, step, after, hsteps, event, hentry.trans found⟩

/-- Two functions share an expression. Its operand is a parameter of the first one, and unknown in
the second one, which returns the expression as a sampler. -/
def shared : ShaderUnit where
  items :=
    [.function ⟨"f", [⟨"x", ⟨"float", .point 0 1 1⟩, .point 0 1 1⟩], ⟨"void", .point 0 1 1⟩, ⟨1⟩,
      .point 0 1 1⟩,
    .function ⟨"g", [], ⟨"sampler", .point 0 2 1⟩, ⟨3⟩, .point 0 2 1⟩]
  arena :=
    { exprs := #[⟨.ident "x", .point 0 1 20⟩, ⟨.unary .neg ⟨0⟩, .point 0 1 19⟩]
      stmts := #[⟨.expr ⟨1⟩, .point 0 1 19⟩, ⟨.block [⟨0⟩], .point 0 1 17⟩,
        ⟨.returns (some ⟨1⟩), .point 0 2 15⟩, ⟨.block [⟨2⟩], .point 0 2 13⟩] }

/-- The second visit of the parameter finds no type, and the entry of the first one stays. The
result of the second function is checked against it. -/
theorem entry_outlives_failure :
    shared.WellFormed ∧
    (∃ before step after, shared.steps {} = .ok (before ++ step :: after) ∧
      step.event = .leaveExpr ⟨0⟩ ∧ foundType (shared.rules {}) ⟨0⟩ step = none ∧
      step.after.types.get? ⟨0⟩ = some (.scalar .float)) ∧
    (analyze shared {}).map (fun r => r.findings.map (·.problem)) =
      .ok [.unknownIdentifier "x", .store (.scalar .float) .sampler] := by
  have hstale : (shared.steps {}).map (fun steps => steps.any fun step =>
      step.event = .leaveExpr ⟨0⟩ ∧ foundType (shared.rules {}) ⟨0⟩ step = none ∧
        step.after.types.get? ⟨0⟩ = some (.scalar .float)) = .ok true := by
    decide +kernel
  refine ⟨ShaderUnit.Ascending.wellFormed ⟨by decide, by decide, by decide⟩, ?_, by decide +kernel⟩
  obtain ⟨steps, hsteps, hany⟩ := of_map_ok hstale
  obtain ⟨step, hmem, hstep⟩ := List.any_eq_true.1 hany
  obtain ⟨before, after, rfl⟩ := List.append_of_mem hmem
  exact ⟨before, step, after, hsteps, of_decide_eq_true hstep⟩

end Visits
end ShaderFront
