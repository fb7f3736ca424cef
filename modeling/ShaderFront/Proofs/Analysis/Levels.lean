import ShaderFront.Proofs.Analysis.Visits
import ShaderFront.Proofs.Syntax.Nesting

/-!
# Where the analysis is

Scopes are opened and closed in pairs. So on the way through a statement the tables outside of the
scope it stands in stay as they are, and what that scope binds stays bound as it is; whatever is
opened further in is closed again. A body sees the names around it as they were when it was entered.
-/

namespace ShaderFront

open Transformer Reported

/-- Whatever the first table binds is bound in the second one as it is there. -/
def Bindings.Kept (b b' : Bindings) : Prop :=
  ∀ name type, b.find? name = some type → b'.find? name = some type

theorem Bindings.Kept.refl (b : Bindings) : b.Kept b := fun _ _ h => h

theorem Bindings.Kept.trans {b b' b'' : Bindings} (h : b.Kept b') (h' : b'.Kept b'') :
    b.Kept b'' := fun name type hb => h' name type (h name type hb)

/-- The tables of a scope, the innermost first. -/
def Scope.tables (s : Scope) : List Bindings := s.inner :: s.outer

namespace Place

/-- The second place is in the scope of the first one, in which more may be bound by now. -/
structure Level (p q : Place) : Prop where
  function : q.function = p.function
  outer : q.scope.outer = p.scope.outer
  inner : p.scope.inner.Kept q.scope.inner

/-- The second place is in the scope of the first one or further in. -/
structure Over (p q : Place) : Prop where
  function : q.function = p.function
  tables : ∃ locals own, q.scope.tables = locals ++ own :: p.scope.outer ∧ p.scope.inner.Kept own

variable {p q v : Place}

theorem Level.refl (p : Place) : p.Level p := ⟨rfl, rfl, .refl _⟩

theorem Level.trans (h : p.Level q) (h' : q.Level v) : p.Level v :=
  ⟨h'.function.trans h.function, h'.outer.trans h.outer, h.inner.trans h'.inner⟩

/-- What is level with a place has its scopes around it. -/
theorem Level.over (h : p.Level q) : p.Over q :=
  ⟨h.function, [], q.scope.inner, by rw [Scope.tables, h.outer]; rfl, h.inner⟩

theorem Level.trans_over (h : p.Level q) (h' : q.Over v) : p.Over v := by
  obtain ⟨locals, own, htables, hown⟩ := h'.tables
  exact ⟨h'.function.trans h.function, locals, own, h.outer ▸ htables, h.inner.trans hown⟩

/-- What is inside a scope that was opened. -/
theorem Over.of_enterScope (h : p.enterScope.Over q) : p.Over q := by
  obtain ⟨locals, own, htables, -⟩ := h.tables
  refine ⟨h.function, locals ++ [own], p.scope.inner, ?_, .refl _⟩
  rw [htables]
  simp [enterScope, Scope.child]

/-- A scope that was opened is closed. -/
theorem leaveScope_eq (h : q.scope.outer = p.scope.inner :: p.scope.outer) :
    q.leaveScope.scope = p.scope := by
  simp [leaveScope, Scope.leave, Scope.parent?, h]

/-- A scope that was opened is closed again. -/
theorem Level.leaveScope (h : p.enterScope.Level q) : p.Level q.leaveScope := by
  have hscope := leaveScope_eq h.outer
  exact ⟨h.function, by rw [hscope], by rw [hscope]; exact .refl _⟩

/-- A declaration opens and closes no scope. -/
theorem declare_level (p : Place) (name : String) (type : Option Ty) (span : Span) :
    p.Level (p.declare name type span).value := by
  unfold declare
  split
  · exact .refl p
  · split
    · rename_i scope hbind
      unfold Scope.bind? Scope.hasLocal Bindings.has at hbind
      split at hbind
      · cases hbind
      · rename_i hfree
        cases hbind
        refine ⟨rfl, rfl, fun other bound hother => ?_⟩
        have hne : (other == name) = false := by
          refine beq_false_of_ne ?_
          rintro rfl
          exact hfree (by rw [hother]; rfl)
        simpa [Bindings.find?, List.lookup_cons, hne] using hother
    · exact .refl p

theorem declareAll_level (p : Place) (entries : List (String × Option Ty × Span)) :
    p.Level (p.declareAll entries).value := by
  induction entries generalizing p with
  | nil => exact .refl p
  | cons entry rest ih =>
    obtain ⟨name, type, span⟩ := entry
    exact (p.declare_level name type span).trans (ih _)

/-- A place between two items: in no function, and in the scope of the globals. -/
structure Outermost (p : Place) : Prop where
  function : p.function = none
  outer : p.scope.outer = []

theorem Outermost.of_level (h : p.Outermost) (level : p.Level q) : q.Outermost :=
  ⟨level.function.trans h.function, level.outer.trans h.outer⟩

end Place

namespace Rules

variable (r : Rules) (p : Place)

/-- A function is gone into by one scope. -/
theorem enterFunction_outer (f : Function) :
    (r.enterFunction p f).value.scope.outer = p.scope.inner :: p.scope.outer :=
  (p.enterScope.declareAll_level _).outer

theorem declaration_level (decl : VarDecl Operand) : p.Level (r.declaration p decl).value := by
  unfold declaration
  rw [value_bind]
  dsimp only
  split
  · exact p.declare_level ..
  · exact p.declare_level ..

/-- A statement that opened no scope stays on its level. -/
theorem statement_level (span : Span) {form : StmtForm Operand StmtId}
    (h : form.opensScope = false) : p.Level (r.statement p span form).value := by
  cases form with
  | declare decl => exact r.declaration_level p decl
  | block | forLoop => cases h
  | ifElse | whileLoop | returns => exact .refl p
  | expr | discard | breakLoop | continueLoop | empty => exact .refl p

/-- A statement that opened a scope leaves it. -/
theorem statement_leaves (span : Span) {form : StmtForm Operand StmtId}
    (h : form.opensScope = true) : (r.statement p span form).value = p.leaveScope := by
  cases form with
  | block => rfl
  | forLoop init c step body =>
    cases c with
    | none => rfl
    | some c => rfl
  | _ => cases h

end Rules

namespace Analyzer

variable {rules : Rules} {mode : TransformMode}

/-- What the rules see of a statement opens a scope if the statement does. -/
theorem opensScope_of_stmtOperands {s : Analyzer} {a : Arena} {form : StmtForm ExprId StmtId}
    {seen : StmtForm Operand StmtId} (h : s.stmtOperands a form = .ok seen) :
    seen.opensScope = form.opensScope := by
  cases form with
  | block | discard | breakLoop | continueLoop | empty =>
    cases h
    rfl
  | expr e | whileLoop e | ifElse e | returns e =>
    obtain ⟨o, -, h⟩ := of_bind_ok h
    cases h
    rfl
  | declare decl =>
    obtain ⟨o, -, h⟩ := of_bind_ok h
    cases h
    rfl
  | forLoop init c step body =>
    obtain ⟨o, -, h⟩ := of_bind_ok h
    obtain ⟨o', -, h⟩ := of_bind_ok h
    cases h
    rfl

/-- From one moment of a recorded run to another: the second place is on the level of the first one,
and the steps between them are over it and concern no item. -/
structure Nested (s t : Arena × Recorded) : Prop where
  stmts : t.1.stmts = s.1.stmts
  level : s.2.1.place.Level t.2.1.place
  steps : ∃ steps, t.2.2 = s.2.2 ++ steps ∧ ∀ step ∈ steps,
    (∀ item, step.event ≠ .enterItem item ∧ step.event ≠ .leaveItem item) ∧
      s.2.1.place.Over step.before.place

theorem Nested.refl (s : Arena × Recorded) : Nested s s :=
  ⟨rfl, .refl _, [], (List.append_nil _).symm, List.forall_mem_nil _⟩

theorem Nested.trans {s t v : Arena × Recorded} (h : Nested s t) (h' : Nested t v) :
    Nested s v := by
  obtain ⟨steps, hlog, hsteps⟩ := h.steps
  obtain ⟨more, hlog', hmore⟩ := h'.steps
  refine ⟨h'.stmts.trans h.stmts, h.level.trans h'.level, steps ++ more, ?_, fun step hstep => ?_⟩
  · rw [hlog', hlog, List.append_assoc]
  · rcases List.mem_append.1 hstep with hmem | hmem
    · exact hsteps step hmem
    · exact ⟨(hmore step hmem).1, h.level.trans_over (hmore step hmem).2⟩

/-- One step that stays on its level. -/
theorem Nested.step {a b : Arena} {s : Recorded} {event : Event} {after : Analyzer}
    (stmts : b.stmts = a.stmts) (level : s.1.place.Level after.place)
    (other : ∀ item, event ≠ .enterItem item ∧ event ≠ .leaveItem item) :
    Nested (a, s) (b, recorded event a s after) := by
  refine ⟨stmts, level, [⟨event, a, s.1, after⟩], rfl, fun step hstep => ?_⟩
  cases List.mem_singleton.1 hstep
  exact ⟨other, (Place.Level.refl _).over⟩

/-- Steps between two others, over a place that is over the first one. -/
theorem Nested.around {a b : Arena} {s t : Recorded} {event event' : Event}
    {entered after : Analyzer} (inside : ∀ q, entered.place.Over q → s.1.place.Over q)
    (nested : Nested (a, recorded event a s entered) (b, t))
    (level : s.1.place.Level after.place)
    (other : ∀ item, event ≠ .enterItem item ∧ event ≠ .leaveItem item)
    (other' : ∀ item, event' ≠ .enterItem item ∧ event' ≠ .leaveItem item) :
    Nested (a, s) (b, recorded event' b t after) := by
  obtain ⟨steps, hlog, hsteps⟩ := nested.steps
  refine ⟨nested.stmts, level,
    ⟨event, a, s.1, entered⟩ :: steps ++ [⟨event', b, t.1, after⟩], ?_, fun step hstep => ?_⟩
  · have hlog : t.2 = s.2 ++ [⟨event, a, s.1, entered⟩] ++ steps := hlog
    simp [recorded, hlog]
  rcases List.mem_append.1 hstep with hmem | hmem
  · rcases List.mem_cons.1 hmem with rfl | hmem
    · exact ⟨other, (Place.Level.refl _).over⟩
    · exact ⟨(hsteps step hmem).1, inside _ (hsteps step hmem).2⟩
  · cases List.mem_singleton.1 hmem
    exact ⟨other', inside _ nested.level.over⟩

/-- **Statements are analysed on one level.** -/
theorem nests (rules : Rules) (mode : TransformMode) :
    (transformer rules mode).recording.Nests Nested where
  refl := Nested.refl
  trans := Nested.trans
  leaveExpr {a s id out s'} hook := by
    obtain ⟨after, hleave, rfl⟩ := leaveExpr_of_recording hook
    obtain ⟨type, count, -, rfl⟩ := leaveExpr_typing hleave
    refine Nested.step ?_ (.refl _) (by simp)
    unfold storeExpr
    split
    · split <;> rfl
    · rfl
  stmt {a s id s' b t out t'} henter hnested hleave := by
    obtain ⟨z, hz, rfl⟩ := of_map_ok henter
    obtain ⟨⟨out, w⟩, hw, heq⟩ := of_map_ok hleave
    cases heq
    obtain ⟨stmt, hstmt, -⟩ := of_bind_ok hz
    cases hz.symm.trans (enterStmt_ok s.1 (Arena.stmt?_of_ok hstmt))
    obtain ⟨stmt', hstmt', hw⟩ := of_bind_ok hw
    obtain ⟨form, hform, hw⟩ := of_bind_ok hw
    cases hw
    have hsame : stmt' = stmt := by
      have hget := Arena.stmt?_of_ok hstmt'
      rw [Arena.stmt?_congr hnested.stmts, Arena.stmt?_of_ok hstmt] at hget
      exact (Option.some.inj hget).symm
    subst hsame
    have hopens := opensScope_of_stmtOperands hform
    refine Nested.around ?_ hnested ?_ (by simp) (by simp)
    · rw [moveTo_pure]
      split
      · exact fun q hq => hq.of_enterScope
      · exact fun q hq => hq
    · have hinner : Place.Level (if stmt'.form.opensScope then s.1.place.enterScope
          else s.1.place) t.1.place := by simpa [recorded] using hnested.level
      cases hscope : stmt'.form.opensScope with
      | true =>
        rw [hscope, if_pos rfl] at hinner
        rw [moveTo, rules.statement_leaves _ _ (hopens.trans hscope)]
        exact hinner.leaveScope
      | false =>
        rw [hscope, if_neg Bool.false_ne_true] at hinner
        exact hinner.trans (rules.statement_level _ _ (hopens.trans hscope))

/-! ## Items -/

/-- The items that some steps enter, in order. -/
def entered (steps : List (Transformer.Step Analyzer)) : List Item :=
  steps.filterMap fun step =>
    match step.event with
    | .enterItem item => some item
    | _ => none

theorem entered_append (steps more : List (Transformer.Step Analyzer)) :
    entered (steps ++ more) = entered steps ++ entered more := List.filterMap_append

/-- Between items none is entered. -/
theorem entered_eq_nil {steps : List (Transformer.Step Analyzer)}
    (h : ∀ step ∈ steps, ∀ item, step.event ≠ .enterItem item) : entered steps = [] := by
  refine List.filterMap_eq_nil_iff.2 fun step hstep => ?_
  split
  · rename_i item hevent
    exact absurd hevent (h step hstep item)
  · rfl

/-- The steps at an item: it is entered and left, and what lies between is over the place where it
was entered. -/
structure ItemSteps (rules : Rules) (item : Item) (s : Analyzer)
    (enter : Transformer.Step Analyzer) (body : List (Transformer.Step Analyzer))
    (leave : Transformer.Step Analyzer) : Prop where
  enters : enter.event = .enterItem item
  before : enter.before = s
  after : enter.after = enterItem rules item s
  body : ∀ step ∈ body, (∀ other, step.event ≠ .enterItem other ∧ step.event ≠ .leaveItem other) ∧
    enter.after.place.Over step.before.place
  leaves : leave.event = .leaveItem item

variable {s t : Arena × Recorded}

/-- An item is gone through from one place between items to another. -/
theorem steps_item {item : Item}
    (h : (transformer rules mode).recording.transformItem item s = .ok t)
    (outermost : s.2.1.place.Outermost) :
    t.2.1.place.Outermost ∧ ∃ enter body leave,
      t.2.2 = s.2.2 ++ enter :: (body ++ [leave]) ∧
        ItemSteps rules item s.2.1 enter body leave := by
  obtain ⟨z, b, w, henter, hnested, hleave, -⟩ := (nests rules mode).transformItem h
  cases henter
  obtain ⟨w', hw, heq⟩ := of_map_ok hleave
  constructor
  · rw [← heq]
    cases item with
    | function f =>
      cases hw
      have hscope : (Rules.leaveFunction w.1.place).scope = s.2.1.place.scope :=
        Place.leaveScope_eq (hnested.level.outer.trans (rules.enterFunction_outer _ f))
      exact ⟨rfl, (congrArg Scope.outer hscope).trans outermost.outer⟩
    | global decl =>
      obtain ⟨d, -, hw⟩ := of_bind_ok hw
      cases hw
      exact (outermost.of_level hnested.level).of_level (rules.declaration_level _ d)
    | struct | typedef =>
      cases hw
      exact outermost.of_level hnested.level
  · obtain ⟨steps, hlog, hsteps⟩ := hnested.steps
    refine ⟨⟨.enterItem item, s.1, s.2.1, enterItem rules item s.2.1⟩, steps,
      ⟨.leaveItem item, b, w.1, w'⟩, ?_, rfl, rfl, rfl, hsteps, rfl⟩
    have hlog : w.2 = s.2.2 ++ [_] ++ steps := hlog
    simp [← heq, recorded, hlog]

/-- Items are gone through one after the other. -/
theorem steps_items {items : List Item}
    (h : items.foldlM (fun s item => (transformer rules mode).recording.transformItem item s) s =
      .ok t)
    (outermost : s.2.1.place.Outermost) :
    t.2.1.place.Outermost ∧ ∃ steps, t.2.2 = s.2.2 ++ steps ∧ entered steps = items := by
  induction items generalizing s with
  | nil =>
    cases h
    exact ⟨outermost, [], (List.append_nil _).symm, rfl⟩
  | cons item rest ih =>
    rw [List.foldlM_cons] at h
    obtain ⟨v, hfirst, hrest⟩ := of_bind_ok h
    obtain ⟨hv, enter, body, leave, hlog, hsteps⟩ := steps_item hfirst outermost
    obtain ⟨ht, more, hlog', hmore⟩ := ih hrest hv
    refine ⟨ht, enter :: (body ++ [leave]) ++ more, by rw [hlog', hlog, List.append_assoc], ?_⟩
    have hbody : entered body = [] := entered_eq_nil fun step hstep other =>
      ((hsteps.body step hstep).1 other).1
    have hends : entered [enter] = [item] ∧ entered [leave] = [] := by
      simp [entered, hsteps.enters, hsteps.leaves]
    rw [← List.singleton_append, entered_append, entered_append, entered_append, hmore, hbody,
      hends.1, hends.2]
    rfl

/-- Only these items are entered and left. -/
theorem steps_items_mem {items : List Item}
    (h : items.foldlM (fun s item => (transformer rules mode).recording.transformItem item s) s =
      .ok t)
    (outermost : s.2.1.place.Outermost) :
    ∃ steps, t.2.2 = s.2.2 ++ steps ∧ ∀ step ∈ steps, ∀ item,
      step.event = .enterItem item ∨ step.event = .leaveItem item → item ∈ items := by
  induction items generalizing s with
  | nil =>
    cases h
    exact ⟨[], (List.append_nil _).symm, nofun⟩
  | cons item rest ih =>
    rw [List.foldlM_cons] at h
    obtain ⟨v, hfirst, hrest⟩ := of_bind_ok h
    obtain ⟨hv, enter, body, leave, hlog, hsteps⟩ := steps_item hfirst outermost
    obtain ⟨more, hlog', hmore⟩ := ih hrest hv
    refine ⟨enter :: (body ++ [leave]) ++ more, by rw [hlog', hlog, List.append_assoc],
      fun step hstep other hother => ?_⟩
    rcases List.mem_append.1 hstep with hmem | hmem
    · rcases List.mem_cons.1 hmem with rfl | hmem
      · rw [hsteps.enters] at hother
        obtain ⟨⟨⟩⟩ | ⟨⟨⟩⟩ := hother
        exact List.mem_cons_self
      · rcases List.mem_append.1 hmem with hbody | hleave
        · exact absurd hother (not_or.2 ((hsteps.body step hbody).1 other))
        · cases List.mem_singleton.1 hleave
          rw [hsteps.leaves] at hother
          obtain ⟨⟨⟩⟩ | ⟨⟨⟩⟩ := hother
          exact List.mem_cons_self
    · exact List.mem_cons_of_mem _ (hmore step hmem other hother)

end Analyzer

/-- An item that is entered or left is one of the unit. -/
def ShaderUnit.Meets (u : ShaderUnit) (event : Event) : Prop :=
  ∀ item, event = .enterItem item ∨ event = .leaveItem item → item ∈ u.items

/-- **The steps of an analysis** follow upon each other, enter the items of the unit in their order,
and concern no others. -/
theorem analyze_items {u : ShaderUnit} {config : AnalysisConfig} {r : Analysis}
    (ended : analyze u config = .ok r) : ∃ t steps,
      (Analyzer.transformer (u.rules config) config.transform).Trace (u.arena, .start u) steps t ∧
      u.steps config = .ok steps ∧ r = .ofRun u t ∧ Analyzer.entered steps = u.items ∧
      ∀ step ∈ steps, u.Meets step.event := by
  obtain ⟨t, steps, htrace, hrecord, hsteps, hr⟩ := analyze_steps ended
  obtain ⟨⟨b, z, log⟩, hfold, hend⟩ := of_bind_ok hrecord
  cases hend
  obtain ⟨-, all, hall, hentered⟩ := Analyzer.steps_items hfold ⟨rfl, rfl⟩
  obtain ⟨all', hall', hmem⟩ := Analyzer.steps_items_mem hfold ⟨rfl, rfl⟩
  rw [List.nil_append] at hall hall'
  subst hall hall'
  exact ⟨t, _, htrace, hsteps, hr, hentered, hmem⟩

end ShaderFront
