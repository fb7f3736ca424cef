import ShaderFront.Proofs.Analysis.Checks
import ShaderFront.Proofs.Analysis.Sight
import ShaderFront.Proofs.Analysis.Stripping

/-!
# Names are resolved lexically

The analysis goes through a unit that it changes, opens scopes when it enters statements and closes
them when it leaves them. A lexical resolution hands scopes down the unit as it was at the start.
The two keep step: where the analysis leaves a name, it finds what the resolution says the name
refers to, and both reject the same declarations. Parentheses that have given way before leave the
names of an expression as they are, so it does not matter that an expression may be come to twice.
-/

namespace ShaderFront

open Transformer Lexical Reported Stripping

namespace Lexical

/-- The name that is used and what it is bound to. -/
def Use.binding (use : Use) : String × Span × Option (Option Ty) :=
  (use.name, use.span, use.declared.map (·.type))

end Lexical

namespace Analyzer

/-- A name that a step leaves, and what it is bound to there. -/
def seen? (step : Transformer.Step Analyzer) : Option (String × Span × Option (Option Ty)) :=
  match step.event.left?.bind step.arena.expr? with
  | some ⟨.ident name, span⟩ => some (name, span, step.before.place.scope.lookup? name)
  | _ => none

theorem seen?_ident {step : Transformer.Step Analyzer} {id : ExprId} {name : String} {span : Span}
    (event : step.event = .leaveExpr id) (get : step.arena.expr? id = some ⟨.ident name, span⟩) :
    seen? step = some (name, span, step.before.place.scope.lookup? name) := by
  simp [seen?, event, Event.left?, get]

theorem seen?_other {step : Transformer.Step Analyzer} {id : ExprId} {e : Expr}
    (event : step.event = .leaveExpr id) (get : step.arena.expr? id = some e)
    (other : ∀ name, e.form ≠ .ident name) : seen? step = none := by
  obtain ⟨form, span⟩ := e
  cases form with
  | ident name => exact absurd rfl (other name)
  | _ => simp [seen?, event, Event.left?, get]

theorem seen?_elsewhere {step : Transformer.Step Analyzer} (event : step.event.left? = none) :
    seen? step = none := by
  simp [seen?, event]

end Analyzer

open Analyzer

/-! ## Expressions -/

/-- The names behind parentheses are those in them. -/
theorem identifiers_behind {u : ShaderUnit} {t : ExprId → ExprTree}
    (node : ∀ id e, u.arena.expr? id = some e → t id = .node (e.form.map t) e.span) {id : ExprId}
    {e : Expr} (h : u.arena.Behind id e) :
    (t id).identifiers = (ExprTree.node (e.form.map t) e.span).identifiers := by
  induction h with
  | node get _ => rw [node _ _ get]
  | @paren id e inner e' get form _ ih =>
    rw [node _ _ get, ← ih, form, ExprForm.map, ExprTree.identifiers_node (by simp)]
    simp [ExprForm.children]

section Expressions

variable {u : ShaderUnit} {rules : Rules} {mode : TransformMode} {t : ExprId → ExprTree}

/-- What a step that leaves an expression sees, after its children were gone through. -/
theorem seen_expr (wf : u.WellFormed) (rank : u.arena.Ranking)
    (node : ∀ id e, u.arena.expr? id = some e → t id = .node (e.form.map t) e.span) (depth : Nat)
    {id : ExprId} {s z : Arena × Recorded} (h : Holds mode u (s.1, s.2.1)) (hid : u.Reaches id)
    (hdepth : rank.expr id < depth)
    (hrun : (transformer rules mode).recording.transformExpr depth id s = .ok z) :
    ∃ steps, z.2.2 = s.2.2 ++ steps ∧ redeclarations (steps.flatMap emitted) = [] ∧
      steps.filterMap seen? = (t id).identifiers.map fun (name, span) =>
        (name, span, s.2.1.place.scope.lookup? name) := by
  induction depth generalizing id s z with
  | zero => cases hrun
  | succ depth ih =>
    have k := Stripping.keeps wf rank rules mode
    have hchildren (l : List ExprId) (hl : ∀ c ∈ l, u.Reaches c ∧ rank.expr c < rank.expr id)
        (s z : Arena × Recorded) (h : Holds mode u (s.1, s.2.1))
        (hrun : l.foldlM (fun s c => (transformer rules mode).recording.transformExpr depth c s) s =
          .ok z) :
        z.1.expr? id = s.1.expr? id ∧ z.2.1.place = s.2.1.place ∧
          ∃ steps, z.2.2 = s.2.2 ++ steps ∧ redeclarations (steps.flatMap emitted) = [] ∧
            steps.filterMap seen? = (l.flatMap fun c => (t c).identifiers).map fun (name, span) =>
              (name, span, s.2.1.place.scope.lookup? name) := by
      induction l generalizing s with
      | nil =>
        cases hrun
        exact ⟨rfl, rfl, [], (List.append_nil _).symm, rfl, rfl⟩
      | cons c rest ihrest =>
        rw [List.foldlM_cons] at hrun
        obtain ⟨v, hfirst, hrest⟩ := of_bind_ok hrun
        obtain ⟨hreach, hrank⟩ := hl c List.mem_cons_self
        obtain ⟨hplain, hleads, -, hsame⟩ := k.recorded_expr h hreach (by omega) hfirst
        obtain ⟨steps, hlog, hquiet, hseen⟩ := ih h hreach (by omega) hfirst
        have hplace : v.2.1.place = s.2.1.place := place_expr hplain
        obtain ⟨hslot, hplace', more, hlog', hquiet', hmore⟩ :=
          ihrest (fun c hc => hl c (List.mem_cons_of_mem _ hc)) v hleads.holds hrest
        refine ⟨hslot.trans (hsame id hrank), hplace'.trans hplace, steps ++ more, ?_, ?_, ?_⟩
        · rw [hlog', hlog, List.append_assoc]
        · rw [List.flatMap_append, redeclarations_append, hquiet, hquiet', List.append_nil]
        · rw [List.filterMap_append, hseen, hmore, hplace, List.flatMap_cons, List.map_append]
    obtain ⟨e, he, horigin⟩ := Holds.found h wf hid
    obtain ⟨e', he', hranks⟩ := Holds.expr h wf rank hid
    cases he.symm.trans he'
    have hnames : (t id).identifiers = (ExprTree.node (e.form.map t) e.span).identifiers := by
      rcases horigin with hsame | hbehind
      · rw [node _ _ hsame]
      · exact identifiers_behind node hbehind
    obtain ⟨e', hget, hrun⟩ := of_bind_ok hrun
    cases he.symm.trans (Arena.expr?_of_ok hget)
    obtain ⟨⟨a, w⟩, hfold, hrun⟩ := of_bind_ok hrun
    obtain ⟨⟨out, w'⟩, hleave, hrun⟩ := of_bind_ok hrun
    cases hrun
    obtain ⟨after, hook, rfl⟩ := leaveExpr_of_recording hleave
    obtain ⟨hslot, hplace, steps, hlog, hquiet, hseen⟩ := hchildren _ hranks s (a, w) h hfold
    have hown : redeclarations (emitted ⟨.leaveExpr id, a, w.1, after⟩) = [] :=
      redeclarations_leaveExpr (.leaveExpr hook)
    refine ⟨steps ++ [⟨.leaveExpr id, a, w.1, after⟩], ?_, ?_, ?_⟩
    · have hlog : w.2 = s.2.2 ++ steps := hlog
      rw [recorded, hlog, List.append_assoc]
    · rw [List.flatMap_append, redeclarations_append, hquiet, List.flatMap_singleton, hown,
        List.append_nil]
    · have hget : a.expr? id = some e := hslot.trans he
      rw [List.filterMap_append, hseen, hnames]
      by_cases hident : ∃ name, e.form = .ident name
      · obtain ⟨form, span⟩ := e
        obtain ⟨name, rfl⟩ := hident
        rw [List.filterMap_cons, seen?_ident rfl hget]
        have hplace : w.1.place = s.2.1.place := hplace
        simp [ExprForm.children, ExprForm.map, ExprTree.identifiers_ident, hplace]
      · have hother : ∀ name, e.form ≠ .ident name := fun name heq => hident ⟨name, heq⟩
        have hother' : ∀ name, e.form.map t ≠ .ident name := by
          intro name heq
          cases hform : e.form with
          | ident other => exact hother other hform
          | _ => rw [hform] at heq; cases heq
        rw [List.filterMap_cons, seen?_other rfl hget hother, ExprTree.identifiers_node hother',
          ExprForm.children_map, List.flatMap_map]
        simp

end Expressions

/-! ## Statements -/

/-- The resolution has gone on by what some steps have seen and rejected. -/
structure Tracks (steps : List (Transformer.Step Analyzer)) (x y : Resolution) : Prop where
  uses : y.uses.map Use.binding = x.uses.map Use.binding ++ steps.filterMap seen?
  rejected : y.rejected.map Declared.finding =
    x.rejected.map Declared.finding ++ redeclarations (steps.flatMap emitted)

namespace Tracks

variable {steps more : List (Transformer.Step Analyzer)} {x y z : Resolution}

theorem refl (x : Resolution) : Tracks [] x x := ⟨by simp, by simp⟩

theorem append (h : Tracks steps x y) (h' : Tracks more y z) : Tracks (steps ++ more) x z where
  uses := by rw [h'.uses, h.uses, List.filterMap_append, List.append_assoc]
  rejected := by
    rw [h'.rejected, h.rejected, List.flatMap_append, redeclarations_append, List.append_assoc]

/-- A step at which no name is left. -/
theorem single {step : Transformer.Step Analyzer} {findings : List Finding}
    (event : step.event.left? = none)
    (found : step.after.findings = step.before.findings ++ findings) (uses : y.uses = x.uses)
    (rejected : y.rejected.map Declared.finding =
      x.rejected.map Declared.finding ++ redeclarations findings) : Tracks [step] x y where
  uses := by rw [uses, List.filterMap_cons, seen?_elsewhere event]; simp
  rejected := by rw [rejected, List.flatMap_singleton, emitted_eq found]

/-- A step at which nothing is left and nothing is rejected. -/
theorem quiet {step : Transformer.Step Analyzer} {findings : List Finding}
    (event : step.event.left? = none)
    (found : step.after.findings = step.before.findings ++ findings)
    (quiet : redeclarations findings = []) (x : Resolution) : Tracks [step] x x :=
  single event found rfl (by rw [quiet, List.append_nil])

end Tracks

/-- From one moment of a recorded run to another one the resolution keeps up. -/
structure KeepsUp (mode : TransformMode) (u : ShaderUnit) (s z : Arena × Recorded)
    (x y : Moment) : Prop where
  holds : Holds mode u (z.1, z.2.1)
  sees : z.2.1.place.Sees y.1
  function : z.2.1.place.function = s.2.1.place.function
  steps : ∃ steps, z.2.2 = s.2.2 ++ steps ∧ Tracks steps x.2 y.2

section Statements

variable {u : ShaderUnit} {rules : Rules} {mode : TransformMode} {s v z : Arena × Recorded}
  {w x y : Moment}

namespace KeepsUp

theorem refl (h : Holds mode u (s.1, s.2.1)) (sees : s.2.1.place.Sees x.1) :
    KeepsUp mode u s s x x := ⟨h, sees, rfl, [], (List.append_nil _).symm, .refl _⟩

theorem trans (h : KeepsUp mode u s v x w) (h' : KeepsUp mode u v z w y) :
    KeepsUp mode u s z x y := by
  obtain ⟨steps, hlog, htracks⟩ := h.steps
  obtain ⟨more, hlog', htracks'⟩ := h'.steps
  exact ⟨h'.holds, h'.sees, h'.function.trans h.function, steps ++ more,
    by rw [hlog', hlog, List.append_assoc], htracks.append htracks'⟩

end KeepsUp

/-- An expression uses names, and leaves the place as it is. -/
theorem keepsUp_expr (wf : u.WellFormed) (rank : u.arena.Ranking) {id : ExprId}
    (h : Holds mode u (s.1, s.2.1)) (sees : s.2.1.place.Sees x.1) (hid : u.Reaches id)
    (hrun : (transformer rules mode).recording.transformExpr s.1.exprDepth id s = .ok z) :
    ∃ t, u.arena.tree id = .ok t ∧ KeepsUp mode u s z x (x.use t) := by
  obtain ⟨t, node, htree⟩ := wf.exists_unfold rank
  have hdepth : rank.expr id < s.1.exprDepth := by
    have hle := rank.expr_le id
    rw [Arena.exprDepth, Holds.size h]
    omega
  have hsize : s.1.exprDepth = u.arena.exprDepth := by
    rw [Arena.exprDepth, Arena.exprDepth, Holds.size h]
  obtain ⟨hplain, hleads, -, -⟩ :=
    (Stripping.keeps wf rank rules mode).recorded_expr h hid hdepth hrun
  obtain ⟨steps, hlog, hquiet, hseen⟩ := seen_expr wf rank node _ h hid hdepth hrun
  have hplace : z.2.1.place = s.2.1.place := place_expr hplain
  refine ⟨t id, htree id (hid.has wf) _ (hsize ▸ hdepth), hleads.holds, hplace ▸ sees,
    by rw [hplace], steps, hlog, ?_, ?_⟩
  · rw [hseen, Moment.use, List.map_append, List.map_map]
    congr 1
    exact List.map_congr_left fun name _ => by simp [Use.binding, sees.lookup?]
  · rw [hquiet, List.append_nil]
    rfl

theorem keepsUp_children (wf : u.WellFormed) (rank : u.arena.Ranking)
    (walk : StmtId → Arena × Recorded → Except Fault (Arena × Recorded))
    {walk' : StmtId → Moment → Except Fault Moment}
    (kept : ∀ id s t, walk' id s = .ok t → t.1.map (·.kind) = s.1.map (·.kind))
    (l : List (ExprId ⊕ StmtId)) (exprs : ∀ e, .inl e ∈ l → u.Reaches e)
    {frame : Option FunctionFrame} {kinds : List ScopeKind}
    (stmts : ∀ id, .inr id ∈ l → ∀ s z x, Holds mode u (s.1, s.2.1) → s.2.1.place.Sees x.1 →
      s.2.1.place.function = frame → x.1.map (·.kind) = kinds →
      walk id s = .ok z → ∃ y, walk' id x = .ok y ∧ KeepsUp mode u s z x y)
    (h : Holds mode u (s.1, s.2.1)) (sees : s.2.1.place.Sees x.1)
    (hframe : s.2.1.place.function = frame) (hkinds : x.1.map (·.kind) = kinds)
    (hrun : l.foldlM ((transformer rules mode).recording.transformChild walk) s = .ok z) :
    ∃ y, l.foldlM (resolveChild u.arena walk') x = .ok y ∧ KeepsUp mode u s z x y := by
  induction l generalizing s x with
  | nil =>
    cases hrun
    exact ⟨x, rfl, .refl h sees⟩
  | cons child rest ih =>
    rw [List.foldlM_cons] at hrun
    obtain ⟨v, hfirst, hrest⟩ := of_bind_ok hrun
    obtain ⟨w, hwalk, hkeeps, hsame⟩ : ∃ w, resolveChild u.arena walk' x child = .ok w ∧
        KeepsUp mode u s v x w ∧ w.1.map (·.kind) = x.1.map (·.kind) := by
      cases child with
      | inl e =>
        obtain ⟨t, htree, hkeeps⟩ :=
          keepsUp_expr wf rank h sees (exprs e List.mem_cons_self) hfirst
        exact ⟨_, bind_ok htree rfl, hkeeps, rfl⟩
      | inr id =>
        obtain ⟨w, hwalk, hkeeps⟩ := stmts id List.mem_cons_self s v x h sees hframe hkinds hfirst
        exact ⟨w, hwalk, hkeeps, kept id x w hwalk⟩
    obtain ⟨y, hwalk', hkeeps'⟩ := ih (fun e he => exprs e (List.mem_cons_of_mem _ he))
      (fun id hid => stmts id (List.mem_cons_of_mem _ hid)) hkeeps.holds hkeeps.sees
      (hkeeps.function.trans hframe) (hsame.trans hkinds) hrest
    exact ⟨y, by rw [List.foldlM_cons]; exact bind_ok hwalk hwalk', hkeeps.trans hkeeps'⟩

/-- A scope that was opened is closed, and the place is what it was before. -/
theorem leaveScope_of_level {p q : Place} (h : p.enterScope.Level q) : q.leaveScope = p := by
  have hscope : q.leaveScope.scope = p.scope := Place.leaveScope_eq h.outer
  have hfunction : q.leaveScope.function = p.function := h.function
  calc q.leaveScope = ⟨q.leaveScope.scope, q.leaveScope.function⟩ := rfl
    _ = p := by rw [hscope, hfunction]

/-- What a recorded run does at a statement: it goes into the scope of the statement if there is
one, through the children, and does what the rules say. -/
theorem recorded_stmt {depth : Nat} {id : StmtId} {a : Arena} {s : Recorded}
    (hrun : (transformer rules mode).recording.transformStmt (depth + 1) id (a, s) = .ok z) :
    ∃ stmt b w seen, a.stmt? id = some stmt ∧
      stmt.form.children.foldlM ((transformer rules mode).recording.transformChild
        ((transformer rules mode).recording.transformStmt depth))
        (a, recorded (.enterStmt id) a s (s.1.moveTo
          (pure (if stmt.form.opensScope then s.1.place.enterScope else s.1.place)))) =
          .ok (b, w) ∧
      (if stmt.form.opensScope then s.1.place.enterScope else s.1.place).Level w.1.place ∧
      w.1.stmtOperands b stmt.form = .ok seen ∧
      z = (b, recorded (.leaveStmt id) b w
        (w.1.moveTo (rules.statement w.1.place stmt.span seen))) := by
  obtain ⟨stmt, hstmt, hrun⟩ := of_bind_ok hrun
  obtain ⟨v, henter, hrun⟩ := of_bind_ok hrun
  obtain ⟨⟨b, w⟩, hfold, hrun⟩ := of_bind_ok hrun
  obtain ⟨⟨out, w'⟩, hleave, hrun⟩ := of_bind_ok hrun
  cases hrun
  have get := Arena.stmt?_of_ok hstmt
  obtain ⟨v, hentered, rfl⟩ := of_map_ok henter
  cases hentered.symm.trans (enterStmt_ok s.1 get)
  have hnested := (nests rules mode).children (fun id s t => (nests rules mode).transformStmt _)
    hfold
  obtain ⟨⟨out, after⟩, hleft, heq⟩ := of_map_ok hleave
  cases heq
  obtain ⟨stmt', hstmt', hleft⟩ := of_bind_ok hleft
  have hsame : b.stmt? id = some stmt := (Arena.stmt?_congr hnested.stmts id).trans get
  cases hsame.symm.trans (Arena.stmt?_of_ok hstmt')
  obtain ⟨seen, hseen, hleft⟩ := of_bind_ok hleft
  cases hleft
  refine ⟨stmt, b, w, seen, get, hfold, ?_, hseen, rfl⟩
  have hlevel := hnested.level
  rwa [moveTo_pure] at hlevel

/-- **A statement that opens a scope leaves the place as it was.** -/
theorem place_scope {depth : Nat} {id : StmtId} {stmt : Stmt} {s z : Arena × Recorded}
    (get : s.1.stmt? id = some stmt) (hopens : stmt.form.opensScope = true)
    (hrun : (transformer rules mode).recording.transformStmt depth id s = .ok z) :
    z.2.1.place = s.2.1.place := by
  cases depth with
  | zero => cases hrun
  | succ depth =>
    obtain ⟨stmt', b, w, seen, get', -, hlevel, hseen, rfl⟩ := recorded_stmt hrun
    cases get.symm.trans get'
    rw [hopens, if_pos rfl] at hlevel
    have hleaves := rules.statement_leaves w.1.place stmt.span
      ((opensScope_of_stmtOperands hseen).trans hopens)
    exact hleaves.trans (leaveScope_of_level hlevel)

/-- A statement that opens no scope and declares nothing leaves the place as it is. -/
theorem Rules.value_statement_other (r : Rules) (p : Place) (span : Span)
    {form : StmtForm Operand StmtId} (h : form.opensScope = false)
    (hdecl : ∀ decl, form ≠ .declare decl) : (r.statement p span form).value = p := by
  cases form with
  | declare decl => exact absurd rfl (hdecl decl)
  | block | forLoop => cases h
  | _ => rfl

/-- What the rules see of a declaration. -/
theorem declare_of_stmtOperands {s : Analyzer} {a : Arena} {decl : VarDecl ExprId}
    {seen : StmtForm Operand StmtId} (h : s.stmtOperands a (.declare decl) = .ok seen) :
    ∃ d, seen = .declare d ∧ d.name = decl.name ∧ d.type = decl.type ∧ d.span = decl.span := by
  obtain ⟨d, hd, h⟩ := of_bind_ok h
  cases h
  obtain ⟨init, -, hd⟩ := of_bind_ok hd
  cases hd
  exact ⟨_, rfl, rfl, rfl, rfl⟩

/-- Only a declaration is seen as one. -/
theorem stmtOperands_ne_declare {s : Analyzer} {a : Arena} {form : StmtForm ExprId StmtId}
    {seen : StmtForm Operand StmtId} (h : s.stmtOperands a form = .ok seen)
    (hform : ∀ decl, form ≠ .declare decl) (decl : VarDecl Operand) : seen ≠ .declare decl := by
  rintro rfl
  obtain ⟨written, hwritten, -⟩ := of_stmtOperands_declare h
  exact hform written hwritten

/-- Entering a statement. -/
theorem keepsUp_enter (id : StmtId) (opens : Bool) {frame : FunctionFrame} {a : Arena}
    {s : Recorded} (h : Holds mode u (a, s.1)) (sees : s.1.place.Sees x.1)
    (settled : ∀ scope ∈ x.1, scope.Settled) (hframe : s.1.place.function = some frame) :
    KeepsUp mode u (a, s) (a, recorded (.enterStmt id) a s (s.1.moveTo
      (pure (if opens then s.1.place.enterScope else s.1.place)))) x
      (if opens then x.1.inside .statement else x.1, x.2) := by
  rw [moveTo_pure]
  have hleads : (invariant mode u).Leads (a, s.1)
      (a, { s.1 with place := if opens then s.1.place.enterScope else s.1.place }) :=
    Holds.move h rfl
  refine ⟨hleads.holds, ?_, ?_, [_], rfl, .quiet rfl (List.append_nil _).symm rfl _⟩
  · cases opens with
    | false => exact sees
    | true =>
      refine sees.enterScope ?_ settled
      have hbody := sees.frame
      rw [hframe] at hbody ⊢
      generalize x.1.map (·.kind) = kinds at hbody ⊢
      cases hbody with
      | body n names depth => exact .body (n + 1) names depth
  · cases opens <;> rfl

variable (sigs : Signatures)

/-- A declaration by the rules and by the resolution. -/
theorem keepsUp_declaration {event : Event} (hevent : event.left? = none) {d : VarDecl Operand}
    {decl : VarDecl ExprId} (name : d.name = decl.name) (type : d.type = decl.type)
    (span : d.span = decl.span)
    (typed : ∀ name written, sigs.typeOf name written = (rules.declaredType name written).value)
    (h : Holds mode u (s.1, s.2.1)) (sees : s.2.1.place.Sees x.1) :
    KeepsUp mode u s (s.1, recorded event s.1 s.2
      (s.2.1.moveTo (rules.declaration s.2.1.place d))) x (x.declare (declaredBy sigs decl)) := by
  obtain ⟨hsees, hfindings⟩ := sees.declare x.2 (declaredBy sigs decl)
  have hdeclare : s.2.1.place.declare d.name (rules.declaredType d.name d.type).value d.span =
      s.2.1.place.declare (declaredBy sigs decl).name (declaredBy sigs decl).type
        (declaredBy sigs decl).span := by
    rw [name, type, span, ← typed]
    rfl
  have hleads : (invariant mode u).Leads (s.1, s.2.1)
      (s.1, s.2.1.moveTo (rules.declaration s.2.1.place d)) := Holds.move h rfl
  refine ⟨hleads.holds, ?_, (rules.declaration_level s.2.1.place d).function, [_], rfl,
    .single hevent rfl (Moment.uses_declare x _) ?_⟩
  · show (rules.declaration s.2.1.place d).value.Sees _
    rw [value_declaration, hdeclare]
    exact hsees
  · rw [Moment.rejected_declare, List.map_append, rules.redeclarations_declaration, hdeclare,
      hfindings]
    congr 1
    split <;> rfl

/-- **The resolution keeps up with a statement** that has a scope of its own or lies in one, so that
it declares nothing beside the parameters. -/
theorem keepsUp_stmt (wf : u.WellFormed) (rank : u.arena.Ranking)
    (typed : ∀ name written, sigs.typeOf name written = (rules.declaredType name written).value)
    {frame : FunctionFrame} (depth : Nat) {id : StmtId} (h : Holds mode u (s.1, s.2.1))
    (sees : s.2.1.place.Sees x.1) (settled : ∀ scope ∈ x.1, scope.Settled)
    (hframe : s.2.1.place.function = some frame) (hid : u.ReachesStmt id)
    (inner : x.1.Local ∨ ∃ stmt, u.arena.stmt? id = some stmt ∧ stmt.form.opensScope = true)
    (hrun : (transformer rules mode).recording.transformStmt depth id s = .ok z) :
    ∃ y, resolveStmt u.arena sigs depth id x = .ok y ∧ KeepsUp mode u s z x y := by
  induction depth generalizing id s x z with
  | zero => cases hrun
  | succ depth ih =>
    obtain ⟨a, s⟩ := s
    obtain ⟨stmt, b, w, seen, get, hfold, hlevel, hseen, rfl⟩ := recorded_stmt hrun
    have get' : u.arena.stmt? id = some stmt :=
      (Arena.stmt?_congr (Holds.stmts h) id).symm.trans get
    have hexprs (e : ExprId) (he : .inl e ∈ stmt.form.children) : u.Reaches e :=
      (hid.root (.stmt get' he (.expr e))).reaches
    have henter := keepsUp_enter id stmt.form.opensScope h sees settled hframe
    have hinner : Sight.Local (if stmt.form.opensScope then x.1.inside .statement else x.1) := by
      rcases inner with hlocal | ⟨stmt', hstmt, hopens⟩
      · split
        · rfl
        · exact hlocal
      · cases get'.symm.trans hstmt
        rw [if_pos hopens]
        rfl
    -- The scopes around each child are those around the first one.
    obtain ⟨y, hwalk, hkeeps⟩ := keepsUp_children wf rank _
      (resolveStmt_kinds sigs depth) stmt.form.children hexprs
      (fun c hc s z x h sees hframe hkinds hrun => by
        have hlocal : x.1.Local := (congrArg List.head? hkinds).trans hinner
        exact ih h sees (sees.settled_of_local hlocal) hframe (.child hid ⟨stmt, get', hc⟩)
          (.inl hlocal) hrun)
      henter.holds henter.sees (henter.function.trans hframe) rfl hfold
    refine ⟨_, bind_ok (Arena.stmt_eq_ok get') (bind_ok hwalk rfl), ?_⟩
    by_cases hdecl : ∃ decl, stmt.form = .declare decl
    · obtain ⟨decl, hform⟩ := hdecl
      rw [hform] at hseen ⊢
      obtain ⟨d, rfl, hname, htype, hspan⟩ := declare_of_stmtOperands hseen
      exact (henter.trans hkeeps).trans
        (keepsUp_declaration sigs rfl hname htype hspan typed hkeeps.holds hkeeps.sees)
    · have hother : ∀ decl, stmt.form ≠ .declare decl := fun decl heq => hdecl ⟨decl, heq⟩
      have hquiet := rules.quiet_statement w.1.place stmt.span
        (stmtOperands_ne_declare hseen hother)
      have hleads : (invariant mode u).Leads (b, w.1)
          (b, w.1.moveTo (rules.statement w.1.place stmt.span seen)) := Holds.move hkeeps.holds rfl
      have hopens := opensScope_of_stmtOperands hseen
      have hleave : Tracks [⟨.leaveStmt id, b, w.1,
          w.1.moveTo (rules.statement w.1.place stmt.span seen)⟩] y.2 y.2 :=
        .quiet rfl rfl hquiet y.2
      have hbefore := henter.trans hkeeps
      cases hscope : stmt.form.opensScope with
      | true =>
        have hplace : (rules.statement w.1.place stmt.span seen).value = s.1.place :=
          place_scope (s := (a, s)) get hscope hrun
        rw [pastStmt_scope sigs hscope]
        obtain ⟨steps, hlog, htracks⟩ := hbefore.steps
        refine ⟨hleads.holds, ?_, congrArg Place.function hplace, steps ++ [_], ?_,
          htracks.append hleave⟩
        · exact (congrArg (Place.Sees · x.1) hplace).mpr sees
        · have hlog : w.2 = s.2 ++ steps := hlog
          rw [recorded, hlog, List.append_assoc]
      | false =>
        have hplace : (rules.statement w.1.place stmt.span seen).value = w.1.place :=
          rules.value_statement_other w.1.place stmt.span (hopens.trans hscope)
            (stmtOperands_ne_declare hseen hother)
        rw [pastStmt_other sigs hscope hother]
        refine hbefore.trans ⟨hleads.holds, ?_, congrArg Place.function hplace, [_], rfl, hleave⟩
        exact (congrArg (Place.Sees · y.1) hplace).mpr hkeeps.sees

end Statements
end ShaderFront
