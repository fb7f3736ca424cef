import ShaderFront.Proofs.Analysis.Visits
import ShaderFront.Proofs.Syntax.Cut

/-!
# Failures stay where they are

An expression that fails has no type, and no rule says anything about an operand without one. So it
makes no difference to the rest of a forest what is wrong below that expression: where an error
takes the place of the whole subtree, the steps outside of it find what they found before.
-/

namespace ShaderFront
namespace Cascade

open Transformer Analyzer

/-- The same span, or two spans of an expression that has given way: its own, and that of the error
in its place. -/
def Near (u : ShaderUnit) (root : ExprId) (span : Span) (before after : Span) : Prop :=
  after = before ∨ u.arena.SpanAt root before ∧ after = span

instance (u : ShaderUnit) (root : ExprId) (span : Span) : Std.Refl (Near u root span) :=
  ⟨fun _ => .inl rfl⟩

/-- A step that leaves an expression of a subtree. -/
def Inside (u : ShaderUnit) (root : ExprId) (step : Transformer.Step Analyzer) : Prop :=
  ∃ id ∈ step.event.left?, u.arena.Below root id

open Classical in
/-- The steps that are not taken in a subtree. -/
noncomputable def outside (u : ShaderUnit) (root : ExprId)
    (steps : List (Transformer.Step Analyzer)) : List (Transformer.Step Analyzer) :=
  steps.filter fun step => ¬Inside u root step

/-- A run that has gone over a subtree, and one that has found an error in its place, agree in the
rest. -/
structure Agree (u : ShaderUnit) (root : ExprId) (span : Span) (s : Analyzer.Recorded)
    (s' : Analyzer) : Prop where
  place : s'.place = s.1.place
  findings : List.Forall₂ (Finding.Alike (Near u root span))
    ((ItemTable.collect u).findings ++ (outside u root s.2).flatMap emitted) s'.findings
  types : ∀ id, id ∉ u.arena.under root → s'.types.get? id = s.1.types.get? id

/-- How a run over a forest, and one over the forest in which a subtree has given way, stand once
some expressions have been gone through. They agree as long as the root of the subtree has no
type. -/
structure Rel (u : ShaderUnit) (root : ExprId) (span : Span) (mode : TransformMode)
    (V : Set ExprId) (s : Arena × Analyzer.Recorded) (s' : Arena × Analyzer) : Prop where
  first : Progress u.arena mode.exprs V (s.1, s.2.1)
  second : Progress (u.arena.cut root span) mode.exprs (V \ u.arena.under root) s'
  /-- In the second run no error has a type, not even in parentheses. -/
  failed : ∀ id n, (u.arena.cut root span).Behind id n → n.form = .error →
    s'.2.types.get? id = none
  agree : s.2.1.types.get? root = none → Agree u root span s.2 s'.2

variable {u : ShaderUnit} {root id : ExprId} {span : Span} {mode : TransformMode} {rules : Rules}

/-! ## Steps outside of a subtree -/

theorem outside_inside {step : Transformer.Step Analyzer} (h : Inside u root step)
    (steps : List (Transformer.Step Analyzer)) :
    outside u root (steps ++ [step]) = outside u root steps := by
  simp [outside, h]

theorem outside_snoc {step : Transformer.Step Analyzer} (h : ¬Inside u root step)
    (steps : List (Transformer.Step Analyzer)) :
    outside u root (steps ++ [step]) = outside u root steps ++ [step] := by
  simp [outside, h]

/-- What a step outside of the subtree finds is found by both runs. -/
theorem Agree.findings_snoc {s : Analyzer.Recorded} {s' : Analyzer} (h : Agree u root span s s')
    (event : Event) (a : Arena) {after : Analyzer} {more more' : List Finding}
    (hout : ∀ id ∈ event.left?, ¬u.arena.Below root id)
    (hmore : after.findings = s.1.findings ++ more)
    (halike : List.Forall₂ (Finding.Alike (Near u root span)) more more') :
    List.Forall₂ (Finding.Alike (Near u root span))
      ((ItemTable.collect u).findings ++
        (outside u root (recorded event a s after).2).flatMap emitted)
      (s'.findings ++ more') := by
  have houtside : ¬Inside u root ⟨event, a, s.1, after⟩ := by
    rintro ⟨id, hleft, hbelow⟩
    exact hout id hleft hbelow
  rw [recorded, outside_snoc houtside, List.flatMap_append, ← List.append_assoc,
    List.flatMap_singleton, emitted_eq hmore]
  exact List.rel_append h.findings halike

/-! ## Operands -/

/-- What both runs see of an expression is alike. It may be the root or in parentheses around it,
but then it has no type. -/
theorem alike {strip : Bool} {types types' : TypeTable} {o o' : Operand}
    (hseen : Seen u.arena strip types id o)
    (hseen' : Seen (u.arena.cut root span) strip types' id o')
    (htypes : types'.get? id = types.get? id)
    (failed : ∀ n, (u.arena.cut root span).Behind id n → n.form = .error →
      types'.get? id = none) : o.Alike (Near u root span) o' := by
  refine ⟨by rw [hseen.type_eq, hseen'.type_eq, htypes], ?_, fun typed => ?_⟩
  · obtain ⟨get, behind⟩ := hseen
    obtain ⟨get', behind'⟩ := hseen'
    cases strip with
    | true =>
      rcases behind.cut root span with hsame | ⟨hroot, herror⟩
      · exact .inl (congrArg Expr.span (hsame.eq behind'))
      · exact .inr ⟨⟨_, .inr hroot, rfl⟩, congrArg Expr.span (herror.eq behind')⟩
    | false =>
      by_cases heq : id = root
      · subst heq
        exact .inr ⟨⟨_, .inl get, rfl⟩, congrArg Expr.span (Arena.eq_of_expr?_cut_self get')⟩
      · rw [Arena.expr?_cut_ne heq] at get'
        cases get.symm.trans get'
        exact .inl rfl
  · rw [hseen.type_eq, ← htypes] at typed
    obtain ⟨get, behind⟩ := hseen
    obtain ⟨get', behind'⟩ := hseen'
    -- Only parentheses around the root look different, and they have no type in the second run.
    rcases behind.cut root span with hsame | ⟨-, herror⟩
    · exact congrArg Expr.form (hsame.eq behind')
    · rw [failed _ herror rfl] at typed
      cases typed

/-- Leaving an expression gives no type to an error. -/
theorem failed_record (rules : Rules) (scope : Scope) {a : Arena} {strip : Bool} {s : Analyzer}
    {n : Expr} {operands : ExprId → Operand}
    (failed : ∀ id n, a.Behind id n → n.form = .error → s.types.get? id = none)
    (get : a.expr? id = some n)
    (hseen : ∀ c ∈ n.form.children, Seen a strip s.types c (operands c))
    {x : ExprId} {m : Expr} (behind : a.Behind x m) (form : m.form = .error) :
    (s.record id (rules.type scope n.span (n.form.map operands))).types.get? x = none := by
  by_cases heq : x = id
  · subst heq
    have hnone : (rules.type scope n.span (n.form.map operands)).value = none := by
      cases behind with
      | node get' plain =>
        cases get.symm.trans get'
        rw [form]
        rfl
      | @paren _ _ inner _ get' form' rest =>
        cases get.symm.trans get'
        have hinner := hseen inner (by simp [form', ExprForm.children])
        rw [form']
        exact hinner.type_eq.trans (failed inner m rest form)
    rw [types_record hnone]
    exact failed x m behind form
  · rw [s.get?_record_ne heq]
    exact failed x m behind form

/-! ## Going through a subtree that has given way -/

/-- A run on its way through a subtree, since it entered it: outside of the subtree nothing has
changed. -/
structure Within (u : ShaderUnit) (root : ExprId) (mode : TransformMode)
    (entered : Analyzer.Recorded) (V : Set ExprId) (s : Arena × Analyzer.Recorded) : Prop where
  progress : Progress u.arena mode.exprs V (s.1, s.2.1)
  place : s.2.1.place = entered.1.place
  types : ∀ id, ¬u.arena.Below root id → s.2.1.types.get? id = entered.1.types.get? id
  outside : outside u root s.2.2 = outside u root entered.2

/-- Going through a subtree changes nothing outside of it. -/
theorem within (forest : u.Forest) (rules : Rules) (depth : Nat) {V : Set ExprId}
    {s t : Arena × Analyzer.Recorded} (hdisjoint : Disjoint (u.arena.extent [.inl root]) V)
    (h : Progress u.arena mode.exprs V (s.1, s.2.1))
    (hrun : (Analyzer.transformer rules mode).recording.transformExpr depth root s = .ok t) :
    Within u root mode s.2 (V ∪ u.arena.extent [.inl root]) t := by
  refine keeps_expr forest (fun V s id hnew h => h.progress.passed.ahead id hnew) ?_ depth .refl
    hdisjoint ⟨h, rfl, fun _ _ => rfl, rfl⟩ hrun
  intro V w id n out z hbelow get hnew hchildren h hleave
  obtain ⟨after, hhook, rfl⟩ := leaveExpr_of_recording hleave
  obtain ⟨operands, out', _, -, hrun, ⟨count, rfl⟩, hprogress⟩ :=
    h.progress.leaveExpr forest.acyclic rules hnew get hchildren
  cases hhook.symm.trans hrun
  refine ⟨hprogress, h.place, fun x hx => ?_, ?_⟩
  · have hne : x ≠ id := by
      rintro rfl
      exact hx hbelow
    exact (w.2.1.get?_record_ne hne _).trans (h.types x hx)
  · exact (outside_inside ⟨id, rfl, hbelow⟩ w.2.2).trans h.outside

/-- The first run goes through the subtree, the second one through the error in its place. -/
theorem follows_root (forest : u.Forest) (rules : Rules) (depth : Nat) :
    Follows (Rel u root span mode) (Rel u root span mode) (u.arena.extent [.inl root])
      ((Analyzer.transformer rules mode).recording.transformExpr depth root)
      ((Analyzer.transformer rules mode).transformExpr depth root) := by
  intro V s s' t hdisjoint h hrun
  cases depth with
  | zero => cases hrun
  | succ depth =>
    have hnew : root ∉ V := Arena.notMem_of_disjoint hdisjoint
    have hwithin := within forest rules (depth + 1) hdisjoint h.first hrun
    obtain ⟨e, he, -⟩ := of_bind_ok hrun
    have get : u.arena.expr? root = some e :=
      (h.first.passed.ahead root hnew).symm.trans (Arena.expr?_of_ok he)
    have get' : (u.arena.cut root span).expr? root = some ⟨.error, span⟩ :=
      Arena.expr?_cut_self get
    have hnew' : root ∉ V \ u.arena.under root := fun hmem => hnew hmem.1
    obtain ⟨operands, out, _, hseen, hleave, ⟨count, rfl⟩, hsecond⟩ :=
      h.second.leaveExpr (forest.acyclic.cut root span) rules hnew' get' nofun
    have he' := Arena.expr_eq_ok ((h.second.passed.ahead root hnew').trans get')
    have hset : (V ∪ u.arena.extent [.inl root]) \ u.arena.under root =
        insert root (V \ u.arena.under root) := by
      rw [Arena.extent_root, Set.union_insert,
        Set.insert_sdiff_of_notMem _ (forest.acyclic.notMem_under root), Set.union_sdiff_right]
    refine ⟨_, bind_ok he' (bind_ok rfl (bind_ok hleave rfl)), hwithin.progress, hset ▸ hsecond,
      fun x m behind => failed_record rules s'.2.place.scope h.failed get' hseen behind,
      fun hlive => ?_⟩
    have hagree := h.agree (h.first.ahead root hnew)
    refine ⟨hagree.place.trans hwithin.place.symm, ?_, fun x hx => ?_⟩
    · show List.Forall₂ _ _ (s'.2.findings ++ [])
      rw [hwithin.outside, List.append_nil]
      exact hagree.findings
    · by_cases hroot : x = root
      · subst hroot
        exact (h.second.ahead x hnew').trans hlive.symm
      · have hout : ¬u.arena.Below root x := fun hbelow =>
          (Arena.below_iff.1 hbelow).elim hroot hx
        exact (hagree.types x hx).trans (hwithin.types x hout).symm

/-! ## Going through the rest -/

/-- Leaving an expression outside of the subtree, whose children have been gone through. -/
theorem leave_outside (forest : u.Forest) (rules : Rules) {V : Set ExprId}
    {s : Arena × Analyzer.Recorded} {s' : Arena × Analyzer} (h : Rel u root span mode V s s')
    (hout : ¬u.arena.Below root id) (hnew : id ∉ V) {n : Expr} (get : u.arena.expr? id = some n)
    (hchildren : ∀ c ∈ n.form.children, c ∈ V) {out : Option Expr} {z : Analyzer.Recorded}
    (hleave : (Analyzer.transformer rules mode).recording.leaveExpr s.1 id s.2 = .ok (out, z)) :
    ∃ out' z', (Analyzer.transformer rules mode).leaveExpr s'.1 id s'.2 = .ok (out', z') ∧
      Rel u root span mode (insert id V)
        ((Analyzer.transformer rules mode).recording.storeExpr id out s.1, z)
        ((Analyzer.transformer rules mode).storeExpr id out' s'.1, z') := by
  have hroot : id ≠ root := by
    rintro rfl
    exact hout .refl
  have hunder : id ∉ u.arena.under root := fun hmem => hout (Arena.below_iff.2 (.inr hmem))
  have hnew' : id ∉ V \ u.arena.under root := fun hmem => hnew hmem.1
  have get' : (u.arena.cut root span).expr? id = some n := (Arena.expr?_cut_ne hroot).trans get
  have hchildren' : ∀ c ∈ n.form.children, c ∈ V \ u.arena.under root := fun c hc =>
    ⟨hchildren c hc, forest.notMem_under_of_child hout ⟨n, get, hc⟩⟩
  obtain ⟨after, hhook, rfl⟩ := leaveExpr_of_recording hleave
  obtain ⟨f, _, _, hseen, hrun, ⟨count, rfl⟩, hfirst⟩ :=
    h.first.leaveExpr forest.acyclic rules hnew get hchildren
  cases hhook.symm.trans hrun
  obtain ⟨f', out', _, hseen', hrun', ⟨count', rfl⟩, hsecond⟩ :=
    h.second.leaveExpr (forest.acyclic.cut root span) rules hnew' get' hchildren'
  rw [← Set.insert_sdiff_of_notMem V hunder] at hsecond
  refine ⟨out', _, hrun', hfirst, hsecond,
    fun x m behind => failed_record rules s'.2.place.scope h.failed get' hseen' behind,
    fun hlive => ?_⟩
  -- The root of the subtree may be one of the children: then it has no type in either run.
  have hagree := h.agree ((s.2.1.get?_record_ne hroot.symm _).symm.trans hlive)
  have htype := rules.type_alike s.2.1.place.scope n.span fun c hc =>
    alike (hseen c hc) (hseen' c hc) (hagree.types c (hchildren' c hc).2) (h.failed c)
  rw [hagree.place]
  refine ⟨hagree.place, ?_, fun x hx => ?_⟩
  · refine hagree.findings_snoc (.leaveExpr id) s.1 ?_ rfl htype.findings
    intro x hx
    cases hx
    exact hout
  · by_cases heq : x = id
    · subst heq
      exact (h.second.get?_record hnew' get' _).trans
        (htype.value.trans (h.first.get?_record hnew get _).symm)
    · exact (s'.2.get?_record_ne heq _).trans
        ((hagree.types x hx).trans (s.2.1.get?_record_ne heq _).symm)

/-- **Going through an expression outside of the subtree, or through its root.** -/
theorem follows (forest : u.Forest) (rules : Rules) (depth : Nat)
    (hid : id ∉ u.arena.under root) :
    Follows (Rel u root span mode) (Rel u root span mode) (u.arena.extent [.inl id])
      ((Analyzer.transformer rules mode).recording.transformExpr depth id)
      ((Analyzer.transformer rules mode).transformExpr depth id) := by
  induction depth generalizing id with
  | zero =>
    intro V s s' t _ _ hrun
    cases hrun
  | succ depth ih =>
    by_cases hroot : id = root
    · subst hroot
      exact follows_root forest rules (depth + 1)
    · have hout : ¬u.arena.Below root id := fun hbelow =>
        (Arena.below_iff.1 hbelow).elim hroot hid
      refine follows_expr forest (fun V s s' hnew h => ?_)
        (fun c hc => ih (forest.notMem_under_of_child hout hc)) ?_
      · refine ⟨h.first.passed.ahead id hnew, fun n get => ⟨n, ?_, rfl⟩⟩
        rw [h.second.passed.ahead id fun hmem => hnew hmem.1, Arena.expr?_cut_ne hroot, get]
      · intro V s s' n out z get hnew hchildren h hleave
        exact leave_outside forest rules h hout hnew get hchildren hleave

theorem comparison (forest : u.Forest) (rules : Rules) (mode : TransformMode) (root : ExprId)
    (span : Span) : Comparison u rules mode mode (Near u root span)
      (fun s => s.types.get? root = none) (Rel u root span mode) where
  stmts h := ⟨h.first.passed.stmts, h.second.passed.stmts⟩
  place h hlive := (h.agree hlive).place
  operand {V s s' id} h hroot hid := by
    have hunder : id ∉ u.arena.under root := forest.notMem_under_of_root hroot
    obtain ⟨o, ho, hseen⟩ := h.first.passed.operand forest.acyclic hid s.2.1
    obtain ⟨o', ho', hseen'⟩ :=
      h.second.passed.operand (forest.acyclic.cut root span) ⟨hid, hunder⟩ s'.2
    exact ⟨o, o', ho, ho', fun hlive =>
      alike hseen hseen' ((h.agree hlive).types id hunder) (h.failed id)⟩
  move {V s s' event p p'} h hevent hp := by
    refine ⟨⟨h.first.passed, h.first.size, h.first.ahead⟩,
      ⟨h.second.passed, h.second.size, h.second.ahead⟩, h.failed, fun hlive => ?_⟩
    have hagree := h.agree hlive
    refine ⟨(hp hlive).value, hagree.findings_snoc event s.1 ?_ rfl (hp hlive).findings,
      hagree.types⟩
    intro id hleft
    rw [hevent] at hleft
    cases hleft
  expr {id} hid := by
    refine follows_exprDepth (fun V s s' h => ?_) fun depth =>
      follows forest rules depth (forest.notMem_under_of_root hid)
    rw [h.second.passed.size, Arena.size_cut, h.first.passed.size]

theorem rel_start (u : ShaderUnit) (mode : TransformMode) (root : ExprId) (span : Span) :
    Rel u root span mode ∅ (u.arena, .start u, [])
      (u.arena.cut root span, .start { u with arena := u.arena.cut root span }) where
  first := .start u mode.exprs
  second := by
    rw [Set.empty_sdiff]
    exact .start { u with arena := u.arena.cut root span } mode.exprs
  failed id _ _ _ := Analyzer.get?_start _ id
  agree _ :=
    { place := rfl
      findings := by
        rw [outside, List.filter_nil, List.flatMap_nil, List.append_nil]
        exact List.forall₂_same.2 fun f _ => ⟨rfl, .inl rfl⟩
      types := fun id _ => (Analyzer.get?_start _ id).trans (Analyzer.get?_start u id).symm }

/-- **A failure stays where it is.** The findings of the analysis of a forest are those of its items
and those of its steps. Where an expression has no type in the end, let an error take the place of
the whole subtree: the analysis does not fault, and yields the same diagnostics but for those that
come from steps in the subtree, in the same order, differing in the place of a label only where that
was the place of the expression itself. No other expression gets a type or loses it. If all ids are
in range there is no fault. -/
theorem failures_stay {u : ShaderUnit} (forest : u.Forest) (config : AnalysisConfig) :
    (u.WellFormed → ∃ r, analyze u config = .ok r) ∧
    ∀ r, analyze u config = .ok r → ∃ steps, u.steps config = .ok steps ∧
      r.findings = (ItemTable.collect u).findings ++ steps.flatMap emitted ∧
      ∀ root span, r.types.get? root = none →
        ∃ r', analyze { u with arena := u.arena.setExpr root ⟨.error, span⟩ } config = .ok r' ∧
          r'.items = r.items ∧
          List.Forall₂ (Diagnostic.Alike (Near u root span))
            (((ItemTable.collect u).findings ++ (outside u root steps).flatMap emitted).map
              (·.diagnostic)) r'.diagnostics ∧
          ∀ id, (¬u.arena.Below root id → r'.types.get? id = r.types.get? id) ∧
            (u.arena.Below root id → r'.types.get? id = none) := by
  refine ⟨fun wf => Stripping.analyze_ok wf config, fun r ended => ?_⟩
  obtain ⟨t, steps, htrace, -, hsteps, hr⟩ := analyze_steps ended
  refine ⟨steps, hsteps, ?_, fun root span untyped => ?_⟩
  · rw [hr]
    exact trace_findings htrace
  · obtain ⟨w, t', hsteps', rfl, ended', hrel⟩ :=
      (comparison forest (u.rules config) config.transform root span).analyze config forest rfl
        (rel_start u config.transform root span) ended
    cases hsteps.symm.trans hsteps'
    have hagree := hrel.agree untyped
    refine ⟨_, ended', rfl, ?_, fun id => ⟨fun hout => ?_, fun hbelow => ?_⟩⟩
    · exact Finding.Alike.map_diagnostic hagree.findings
    · exact hagree.types id fun hunder => hout (Arena.below_iff.2 (.inr hunder))
    · rcases Arena.below_iff.1 hbelow with rfl | hunder
      · exact (hagree.types id (forest.acyclic.notMem_under id)).trans untyped
      · exact hrel.second.ahead id fun hmem => hmem.2 hunder

/-- A function without a result returns the negation of what nobody declared. -/
def returned : ShaderUnit where
  items := [.function ⟨"f", [], ⟨"void", .point 0 1 1⟩, ⟨1⟩, .point 0 1 1⟩]
  arena :=
    { exprs := #[⟨.ident "x", .point 0 1 20⟩, ⟨.unary .neg ⟨0⟩, .point 0 1 19⟩]
      stmts := #[⟨.returns (some ⟨1⟩), .point 0 1 12⟩, ⟨.block [⟨0⟩], .point 0 1 10⟩] }

/-- Two findings, one of them below the negation. Where an error takes its place the other one is
left. -/
theorem failures_stay_returned :
    returned.Forest ∧ ∃ r r', analyze returned {} = .ok r ∧ r.types.get? ⟨1⟩ = none ∧
      r.findings.map (·.problem) = [.unknownIdentifier "x", .voidReturn "f"] ∧
      analyze { returned with arena := returned.arena.setExpr ⟨1⟩ ⟨.error, .point 0 1 19⟩ } {} =
        .ok r' ∧
      r'.findings.map (·.problem) = [.voidReturn "f"] ∧ ∃ steps, returned.steps {} = .ok steps ∧
        List.Forall₂ (Diagnostic.Alike (Near returned ⟨1⟩ (.point 0 1 19)))
          (((ItemTable.collect returned).findings ++
            (outside returned ⟨1⟩ steps).flatMap emitted).map (·.diagnostic)) r'.diagnostics := by
  have wf : returned.WellFormed :=
    ShaderUnit.Ascending.wellFormed ⟨by decide, by decide, by decide⟩
  have forest : returned.Forest := ⟨wf.acyclic, by decide⟩
  have hfound : (analyze returned {}).map (fun r =>
      (r.types.get? ⟨1⟩, r.findings.map (·.problem))) =
        .ok (none, [.unknownIdentifier "x", .voidReturn "f"]) := by
    decide +kernel
  have hfound' : (analyze
      { returned with arena := returned.arena.setExpr ⟨1⟩ ⟨.error, .point 0 1 19⟩ } {}).map
        (fun r => r.findings.map (·.problem)) = .ok [.voidReturn "f"] := by
    decide +kernel
  obtain ⟨-, hstay⟩ := failures_stay forest {}
  obtain ⟨r, hrun, hr⟩ := of_map_ok hfound
  obtain ⟨steps, hsteps, -, hcut⟩ := hstay r hrun
  have untyped : r.types.get? ⟨1⟩ = none := congrArg Prod.fst hr
  obtain ⟨r', hrun', -, halike, -⟩ := hcut ⟨1⟩ (.point 0 1 19) untyped
  obtain ⟨r'', hrun'', hr'⟩ := of_map_ok hfound'
  cases hrun'.symm.trans hrun''
  exact ⟨forest, r, r', hrun, untyped, congrArg Prod.snd hr, hrun', hr', steps, hsteps, halike⟩

end Cascade
end ShaderFront
