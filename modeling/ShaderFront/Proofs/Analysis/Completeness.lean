import ShaderFront.Proofs.Analysis.KnownTypes
import ShaderFront.Proofs.Analysis.Stripping

/-!
# Analysis without errors types everything

If the analysis of a unit finds no error, every expression below its items has a type. As long as no
error is found, the rules give every expression they see a type, and types stay entered. An
expression whose node has been replaced had been typed before, and all below it.
-/

namespace ShaderFront

open Reported

/-! ## Types that are entered -/

namespace Analyzer

variable {s : Analyzer} {id : ExprId} {type : Reported (Option Ty)}

theorem record_self (hid : id.index < s.types.slots.size) (h : type.value.isSome = true) :
    ((s.record id type).types.get? id).isSome = true := by
  obtain ⟨ty, hty⟩ := Option.isSome_iff_exists.1 h
  simp only [record, hty]
  rw [s.types.get?_insert_self id ty hid]
  rfl

/-- Types stay entered. -/
theorem record_keeps (hid : id.index < s.types.slots.size) {x : ExprId}
    (h : (s.types.get? x).isSome = true) : ((s.record id type).types.get? x).isSome = true := by
  by_cases hsome : type.value.isSome = true
  · by_cases heq : x = id
    · subst heq
      exact record_self hid hsome
    · obtain ⟨ty, hty⟩ := Option.isSome_iff_exists.1 hsome
      simp only [record, hty]
      rw [s.types.get?_insert_ne id x ty heq]
      exact h
  · rw [Option.not_isSome_iff_eq_none] at hsome
    simpa only [record, hsome] using h

end Analyzer

namespace Completeness

open Stripping (Changed)

/-- Unless there is an error, every expression from this one downwards has a type. -/
def Typed (u : ShaderUnit) (s : Analyzer) (id : ExprId) : Prop :=
  Clean s.findings → ∀ x, u.arena.Below id x → (s.types.get? x).isSome = true

/-- What holds of the analysis at any moment, unless there is an error. -/
structure Holds (u : ShaderUnit) (s : Arena × Analyzer) : Prop where
  size : s.2.types.slots.size = u.arena.exprs.size
  collected : Clean s.2.findings → Clean (ItemTable.collect u).findings
  scope : Clean s.2.findings → s.2.place.scope.Complete
  /-- A node that was replaced had been typed. -/
  changed : ∀ id, Changed u s.1 id → Typed u s.2 id

/-- Errors stay, and so do types. -/
structure Before (s t : Arena × Analyzer) : Prop where
  clean : Clean t.2.findings → Clean s.2.findings
  types : ∀ id, (s.2.types.get? id).isSome = true → (t.2.types.get? id).isSome = true

theorem Before.typed {s t : Arena × Analyzer} (h : Before s t) {u : ShaderUnit} {id : ExprId}
    (htyped : Typed u s.2 id) : Typed u t.2 id :=
  fun hclean x hx => h.types x (htyped (h.clean hclean) x hx)

/-- How types are entered while a unit is analysed. -/
def invariant (u : ShaderUnit) : Invariant Analyzer where
  Holds := Holds u
  Before := Before
  Done id s := Typed u s.2 id

section

variable {u : ShaderUnit} {s : Arena × Analyzer}

theorem holds_start (u : ShaderUnit) : (invariant u).Holds (u.arena, .start u) where
  size := by simp [Analyzer.start, TypeTable.empty]
  collected := id
  scope _ b hb := by
    cases List.mem_singleton.1 hb
    intro entry hentry
    cases hentry
  changed _ hchanged := absurd rfl hchanged

theorem Holds.move (h : Holds u s) {config : AnalysisConfig} {s' : Analyzer}
    (hmoves : Analyzer.Moves (u.rules config) u s.2 s') : (invariant u).Leads s (s.1, s') := by
  have hbefore : Before s (s.1, s') :=
    ⟨hmoves.clean, fun x hx => by rw [hmoves.types]; exact hx⟩
  refine ⟨⟨?_, fun hclean => h.collected (hmoves.clean hclean), fun hclean => ?_,
    fun id hid => hbefore.typed (h.changed id hid)⟩, hbefore⟩
  · rw [hmoves.types, h.size]
  · obtain ⟨hitems, hcollects⟩ := ItemTable.collect_complete (h.collected (hmoves.clean hclean))
    exact hmoves.complete hitems hcollects (h.scope (hmoves.clean hclean)) hclean

/-- A node that is found below an item was not left by a parser. -/
theorem form_ne_error {mode : TransformMode} (h : Stripping.Holds mode u s) (wf : u.WellFormed)
    (noError : ∀ id e, u.Reaches id → u.arena.expr? id = some e → e.form ≠ .error) {id : ExprId}
    (hid : u.Reaches id) {e : Expr} (get : s.1.expr? id = some e) : e.form ≠ .error := by
  obtain ⟨e', get', horigin⟩ := h.found wf hid
  cases get'.symm.trans get
  rcases horigin with hsame | hbehind
  · exact noError id e hid hsame
  · obtain ⟨core, hbelow, hcore⟩ := hbehind.exists_below
    exact noError core e (hid.below hbelow) hcore

/-- What the type of an expression is entered with. -/
def typing (u : ShaderUnit) (config : AnalysisConfig) (s : Analyzer) (e : Expr)
    (operands : ExprId → Operand) : Reported (Option Ty) :=
  (u.rules config).type s.place.scope e.span (e.form.map operands)

/-- If the children of an expression have their types and there is no error, so has the
expression. -/
theorem Holds.typing_explained (h : Holds u s) (config : AnalysisConfig) {e : Expr}
    (hform : e.form ≠ .error) {operands : ExprId → Operand}
    (htypes : ∀ c ∈ e.form.children, (operands c).type = s.2.types.get? c)
    (hdone : ∀ c ∈ e.form.children, Typed u s.2 c) (hclean : Clean s.2.findings) :
    (typing u config s.2 e operands).Explained := by
  obtain ⟨hitems, -⟩ := ItemTable.collect_complete (h.collected hclean)
  refine Rules.type_explained hitems (h.scope hclean) e.span (fun o ho => ?_) ?_
  · rw [ExprForm.children_map] at ho
    obtain ⟨c, hc, rfl⟩ := List.mem_map.1 ho
    rw [htypes c hc]
    exact hdone c hc hclean c .refl
  · intro hmap
    obtain ⟨form, span⟩ := e
    cases form with
    | error => exact hform rfl
    | _ => cases hmap

/-- **Leaving an expression types it**, unless there is an error. -/
theorem Holds.record (h : Holds u s) (wf : u.WellFormed) (config : AnalysisConfig) {id : ExprId}
    (hid : u.Reaches id) {e : Expr} (get : s.1.expr? id = some e) (hform : e.form ≠ .error)
    {operands : ExprId → Operand}
    (htypes : ∀ c ∈ e.form.children, (operands c).type = s.2.types.get? c)
    (hdone : ∀ c ∈ e.form.children, Typed u s.2 c) (a : Arena) :
    Before s (a, s.2.record id (typing u config s.2 e operands)) ∧
      Typed u (s.2.record id (typing u config s.2 e operands)) id := by
  have hindex : id.index < s.2.types.slots.size := h.size ▸ hid.has wf
  have hbefore : Before s (a, s.2.record id (typing u config s.2 e operands)) :=
    ⟨fun hclean => (clean_append.1 hclean).1, fun x hx => Analyzer.record_keeps hindex hx⟩
  refine ⟨hbefore, fun hclean x hx => ?_⟩
  obtain ⟨hold, hnew⟩ := clean_append.1 hclean
  rcases Relation.ReflTransGen.cases_head hx with rfl | ⟨c, hedge, hrest⟩
  · exact Analyzer.record_self hindex (h.typing_explained config hform htypes hdone hold hnew)
  · by_cases hchanged : Changed u s.1 id
    · exact hbefore.types x (h.changed id hchanged hold x hx)
    · obtain ⟨e', get', hc⟩ := hedge
      have hsame : u.arena.expr? id = some e := by rw [← not_not.1 hchanged, get]
      cases get'.symm.trans hsame
      exact hbefore.types x (hdone c hc hold x hrest)

/-- **Every hook of the analysis enters types as it should.** -/
theorem preserves (wf : u.WellFormed)
    (noError : ∀ id e, u.Reaches id → u.arena.expr? id = some e → e.form ≠ .error)
    (config : AnalysisConfig) :
    (Analyzer.transformer (u.rules config) config.transform).Preserves u
      (Stripping.invariant config.transform u) (invariant u) where
  refl _ := ⟨id, fun _ => id⟩
  trans hst htv := ⟨fun hclean => hst.clean (htv.clean hclean),
    fun x hx => htv.types x (hst.types x hx)⟩
  done hst htyped := hst.typed htyped
  leaveExpr {s id e out s'} hs h hid get hdone hrun := by
    obtain ⟨operands, out, n, htypes, -, hrun'⟩ :=
      Stripping.Holds.leaveExpr hs wf (u.rules config) hid get
    cases hrun.symm.trans hrun'
    obtain ⟨hbefore, htyped⟩ := Holds.record h wf config hid get
      (form_ne_error hs wf noError hid get) htypes hdone
      ((Analyzer.transformer (u.rules config) config.transform).storeExpr id out s.1)
    refine ⟨⟨⟨?_, fun hclean => h.collected (hbefore.clean hclean),
      fun hclean => h.scope (hbefore.clean hclean), fun x hx => ?_⟩, hbefore.clean, hbefore.types⟩,
      htyped⟩
    · exact Analyzer.size_record.trans h.size
    · by_cases heq : x = id
      · subst heq
        exact htyped
      · rw [Changed, Transformer.expr?_storeExpr_ne heq] at hx
        exact hbefore.typed (h.changed x hx)
  enterStmt hs h _ get hrun := by
    obtain ⟨s', hrun', hmoves⟩ := Stripping.enterStmt_moves (u.rules config) get
    cases hrun.symm.trans hrun'
    exact h.move hmoves
  leaveStmt hs h _ get hform hrun := by
    obtain ⟨s', hrun', hmoves⟩ :=
      Stripping.Holds.leaveStmt hs wf (u.rules config) get fun e he => (hform e he).1
    cases hrun.symm.trans hrun'
    exact h.move hmoves
  enterItem _ h hitem hrun := by
    cases hrun
    exact h.move (Stripping.enterItem_moves (u.rules config) hitem)
  leaveItem hs h _ hform hrun := by
    obtain ⟨s', hrun', hmoves⟩ :=
      Stripping.Holds.leaveItem hs wf (u.rules config) fun e he => (hform e he).1
    cases hrun.symm.trans hrun'
    exact h.move hmoves

end

theorem succeeded_iff {r : Analysis} : r.succeeded = true ↔ Clean r.findings := by
  have hone (f : Finding) :
      (!f.diagnostic.isError) = true ↔ f.problem.severity = .warning := by
    have hseverity : f.problem.severity = .warning ∨ f.problem.severity = .error := by
      cases f.problem <;> simp [Problem.severity]
    rcases hseverity with h | h <;> simp [Diagnostic.isError, Finding.diagnostic, h]
  simp only [Analysis.succeeded, Analysis.diagnostics, List.all_map, List.all_eq_true,
    Function.comp_apply, hone, Clean]

/-- **Nothing is left untyped silently.** The analysis of a well-formed unit, of which no
expression below an item is one that a parser could not read, does not fault; and if it finds no
error, every expression below an item has a type. -/
theorem analysis_types {u : ShaderUnit} (wf : u.WellFormed)
    (noError : ∀ id e, u.Reaches id → u.arena.expr? id = some e → e.form ≠ .error)
    (config : AnalysisConfig) :
    ∃ r, analyze u config = .ok r ∧
      (r.succeeded = true → ∀ id, u.Reaches id → (r.types.get? id).isSome = true) := by
  obtain ⟨rank⟩ := wf.ranking
  have hkeeps := (Stripping.keeps wf rank (u.rules config) config.transform).and
    (preserves wf noError config)
  obtain ⟨t, hrun, -, hroots⟩ :=
    analyze_keeps config hkeeps wf ⟨Stripping.holds_start u _, holds_start u⟩
  refine ⟨_, hrun, fun hsucceeded id ⟨root, hroot, hbelow⟩ => ?_⟩
  exact (hroots root hroot).2 (succeeded_iff.1 hsucceeded) id hbelow

theorem analysis_types_nested :
    Stripping.nested.WellFormed ∧ ∃ r, analyze Stripping.nested {} = .ok r ∧
      r.succeeded = true ∧ (r.types.get? ⟨2⟩).isSome = true := by
  have noError : ∀ e ∈ Stripping.nested.arena.exprs, e.form ≠ .error := by decide
  obtain ⟨r, hrun, htypes⟩ := analysis_types Stripping.nested_wellFormed
    (fun id e _ get => noError e (Array.mem_of_getElem? get)) {}
  have hsucceeded : (analyze Stripping.nested {}).map Analysis.succeeded = .ok true := by
    decide +kernel
  rw [hrun] at hsucceeded
  have hok : r.succeeded = true := Except.ok.inj hsucceeded
  exact ⟨Stripping.nested_wellFormed, r, hrun, hok, htypes hok ⟨2⟩ Stripping.nested_reaches⟩

end Completeness
end ShaderFront
