import ShaderFront.Proofs.Analysis.Resolution

/-!
# Lexical scoping

The analysis of a unit resolves its names as a lexical resolution does. A function is gone into with
its parameters in a scope of their own, and nothing of it is left afterwards; a global is in sight
from its declaration on. So between two items the analysis is in the scope of the globals.
-/

namespace ShaderFront

open Transformer Lexical Reported Stripping Analyzer

/-- The parameters with which the rules go into a function. -/
def Rules.declared (r : Rules) (f : Function) : List Declared :=
  ((r.signature f).1.zip f.params).map fun ((name, type), param) => ⟨name, type, param.span⟩

/-- The body of each function is a block, as the syntax has it. -/
def ShaderUnit.BlockBodies (u : ShaderUnit) : Prop :=
  ∀ f, .function f ∈ u.items → ∃ body span, u.arena.stmt? f.body = some ⟨.block body, span⟩

/-- The parameters of a function as it writes them, where the types of `t` are known. -/
def Function.declared (f : Function) (t : ItemTable) : List Declared :=
  f.params.map fun param => ⟨param.name, t.type? param.type.name, param.span⟩

/-- By its own signature a function has the parameters that it writes. -/
theorem Rules.declared_own {r : Rules} {f : Function} {t : ItemTable}
    (h : r.signature f = f.signature t) : r.declared f = f.declared t := by
  rw [declared, h, Function.signature, Function.declared]
  induction f.params with
  | nil => rfl
  | cons param rest ih => simpa using ih

theorem redeclarations_map (ds : List Declared) :
    redeclarations (ds.map Declared.finding) = ds.map Declared.finding := by
  rw [redeclarations, List.filter_eq_self]
  intro finding hmem
  obtain ⟨d, -, rfl⟩ := List.mem_map.1 hmem
  rfl

section Items

variable {u : ShaderUnit} {rules : Rules} {mode : TransformMode} {s z : Arena × Recorded}
  {x y : Moment}

/-- Between two items only the globals are in sight. -/
theorem kinds_outermost {p : Place} {sight : Sight} (h : p.Sees sight) (outermost : p.Outermost) :
    sight.map (·.kind) = [.globals] := by
  have hframe := h.frame
  have hlength := h.tables.length_eq
  rw [outermost.function] at hframe
  simp only [Scope.tables, outermost.outer, List.length_singleton] at hlength
  generalize hkinds : sight.map (·.kind) = kinds at hframe
  cases hframe with
  | globals => rfl
  | parameters names =>
    have hcount := congrArg List.length hkinds
    simp [← hlength] at hcount

/-- Going into a function. -/
theorem keepsUp_enterFunction (sigs : Signatures) {f : Function} {a : Arena} {s : Recorded}
    (params : sigs.params f = rules.declared f) (h : Holds mode u (a, s.1))
    (sees : s.1.place.Sees x.1) (outermost : s.1.place.Outermost) :
    let t := s.1.moveTo (rules.enterFunction s.1.place f)
    let y := (sigs.params f).foldl Moment.declare
      (x.1.inside (.parameters ((sigs.params f).map (·.name))), x.2)
    Holds mode u (a, t) ∧ t.place.Sees y.1 ∧ (∀ scope ∈ y.1, scope.Settled) ∧
      Tracks [⟨.enterItem (.function f), a, s.1, t⟩] x.2 y.2 := by
  intro t y
  have hkinds := kinds_outermost sees outermost
  have hsettled : ∀ scope ∈ y.1, scope.Settled :=
    Moment.settled_parameters hkinds x.2 (sigs.params f)
  have hinside : s.1.place.enterScope.Sees
      (x.1.inside (.parameters ((sigs.params f).map (·.name)))) := by
    refine sees.enterScope ?_ ?_
    · rw [outermost.function, hkinds]
      exact .parameters _
    · intro scope hmem
      have hkind : scope.kind ∈ x.1.map (·.kind) := List.mem_map_of_mem hmem
      rw [hkinds, List.mem_singleton] at hkind
      exact Scope.settled_of_kind fun names heq => by cases hkind.symm.trans heq
  obtain ⟨hsees, hkinds', rejected, hfound, hfindings⟩ :=
    hinside.declareAll x.2 (sigs.params f)
  have hentries : (sigs.params f).map (fun d => (d.name, d.type, d.span)) =
      ((rules.signature f).1.zip f.params).map fun ((name, ty), param) =>
        (name, ty, param.span) := by
    rw [params, Rules.declared, List.map_map]
    rfl
  rw [hentries] at hsees hfindings
  have hleads : (invariant mode u).Leads (a, s.1) (a, t) := Holds.move h rfl
  have hfound' : (rules.enterFunction s.1.place f).findings = rejected.map Declared.finding :=
    (List.append_nil _).trans hfindings
  refine ⟨hleads.holds, ⟨hsees.tables, ?_, hsees.settled⟩, hsettled,
    .single rfl rfl (by rw [hfound]) ?_⟩
  · have hkinds : y.1.map (·.kind) = [.parameters ((sigs.params f).map (·.name)), .globals] := by
      rw [hkinds', Sight.inside, List.map_cons, hkinds]
    have hlength := congrArg List.length hkinds
    rw [List.length_map, ← hsees.tables.length_eq] at hlength
    rw [hkinds]
    exact .body 0 _ hlength
  · rw [hfound, List.map_append, hfound', redeclarations_map]

/-- **The resolution keeps up with an item.** -/
theorem keepsUp_item (wf : u.WellFormed) (rank : u.arena.Ranking) (blocks : u.BlockBodies)
    (sigs : Signatures)
    (typed : ∀ name written, sigs.typeOf name written = (rules.declaredType name written).value)
    (params : ∀ f, sigs.params f = rules.declared f) {item : Item} (hitem : item ∈ u.items)
    (h : Holds mode u (s.1, s.2.1)) (sees : s.2.1.place.Sees x.1)
    (outermost : s.2.1.place.Outermost)
    (hrun : (transformer rules mode).recording.transformItem item s = .ok z) :
    ∃ y, resolveItem u.arena sigs x item = .ok y ∧ KeepsUp mode u s z x y := by
  obtain ⟨a, s⟩ := s
  cases item with
  | struct d | typedef d =>
    cases hrun
    have hstep (event : Event) (hevent : event.left? = none) (x : Resolution) :
        Tracks [⟨event, a, s.1, s.1⟩] x x := .quiet hevent (List.append_nil _).symm rfl x
    exact ⟨x, rfl, h, sees, rfl, [_] ++ [_], List.append_assoc ..,
      (hstep _ rfl x.2).append (hstep _ rfl x.2)⟩
  | global decl =>
    obtain ⟨v, henter, hrun⟩ := of_bind_ok hrun
    cases henter
    obtain ⟨⟨b, w⟩, hfold, hrun⟩ := of_bind_ok hrun
    obtain ⟨w', hleave, hrun⟩ := of_bind_ok hrun
    cases hrun
    obtain ⟨after, hleft, rfl⟩ := of_map_ok hleave
    obtain ⟨d, hd, hleft⟩ := of_bind_ok hleft
    cases hleft
    obtain ⟨init, -, hd⟩ := of_bind_ok hd
    cases hd
    have hentered : KeepsUp mode u (a, s) (a, recorded (.enterItem (.global decl)) a s s.1) x x :=
      ⟨h, sees, rfl, [_], rfl, .quiet rfl (List.append_nil _).symm rfl x.2⟩
    obtain ⟨y, hwalk, hkeeps⟩ := keepsUp_children wf rank
      (fun id s => (transformer rules mode).recording.transformStmt s.1.stmtDepth id s)
      (resolveStmt_kinds sigs u.arena.stmtDepth) (Item.global decl).children
      (fun e he => ShaderUnit.Root.reaches ⟨_, hitem, _, he, .expr e⟩)
      (fun id hid => by simp [Item.children] at hid) hentered.holds hentered.sees rfl rfl hfold
    exact ⟨_, bind_ok hwalk rfl, (hentered.trans hkeeps).trans
      (keepsUp_declaration sigs rfl rfl rfl rfl typed hkeeps.holds hkeeps.sees)⟩
  | function f =>
    obtain ⟨v, henter, hrun⟩ := of_bind_ok hrun
    cases henter
    obtain ⟨⟨b, w⟩, hfold, hrun⟩ := of_bind_ok hrun
    obtain ⟨w', hleave, hrun⟩ := of_bind_ok hrun
    cases hrun
    cases hleave
    obtain ⟨hentered, hsees, hsettled, htracks⟩ :=
      keepsUp_enterFunction sigs (params f) h sees outermost
    obtain ⟨body, span, hbody⟩ := blocks f hitem
    simp only [Item.children, List.foldlM_cons, List.foldlM_nil, bind_pure] at hfold
    have hdepth : a.stmtDepth = u.arena.stmtDepth := by
      rw [Arena.stmtDepth, Arena.stmtDepth, Holds.stmts h]
    rw [hdepth] at hfold
    obtain ⟨y, hwalk, hkeeps⟩ := keepsUp_stmt sigs wf rank typed _ hentered hsees hsettled rfl
      (.item hitem (List.mem_singleton_self _)) (.inr ⟨_, hbody, rfl⟩) hfold
    obtain ⟨steps, hlog, hbody⟩ := hkeeps.steps
    have hlevel := ((nests rules mode).transformStmt _ hfold).level
    have hplace : Rules.leaveFunction w.1.place = s.1.place := by
      have hscope : (Rules.leaveFunction w.1.place).scope = s.1.place.scope :=
        Place.leaveScope_eq (hlevel.outer.trans (rules.enterFunction_outer _ f))
      calc Rules.leaveFunction w.1.place
          = ⟨(Rules.leaveFunction w.1.place).scope, none⟩ := rfl
        _ = s.1.place := by rw [hscope, ← outermost.function]
    have hleads : (invariant mode u).Leads (b, w.1)
        (b, { w.1 with place := Rules.leaveFunction w.1.place }) := Holds.move hkeeps.holds rfl
    have hleave : Tracks [⟨.leaveItem (.function f), b, w.1,
        { w.1 with place := Rules.leaveFunction w.1.place }⟩] y.2 y.2 :=
      .quiet rfl (List.append_nil _).symm rfl y.2
    refine ⟨(x.1, y.2), bind_ok hwalk rfl, hleads.holds, ?_, congrArg Place.function hplace,
      [_] ++ steps ++ [_], ?_, (htracks.append hbody).append hleave⟩
    · exact (congrArg (Place.Sees · x.1) hplace).mpr sees
    · have hlog : w.2 = s.2 ++ [_] ++ steps := hlog
      rw [recorded, hlog]
      simp only [List.append_assoc]
      rfl

/-- **The resolution keeps up with all items.** -/
theorem keepsUp_items (wf : u.WellFormed) (rank : u.arena.Ranking) (blocks : u.BlockBodies)
    (sigs : Signatures)
    (typed : ∀ name written, sigs.typeOf name written = (rules.declaredType name written).value)
    (params : ∀ f, sigs.params f = rules.declared f) (items : List Item)
    (hitems : ∀ item ∈ items, item ∈ u.items) (h : Holds mode u (s.1, s.2.1))
    (sees : s.2.1.place.Sees x.1) (outermost : s.2.1.place.Outermost)
    (hrun : items.foldlM (fun s item => (transformer rules mode).recording.transformItem item s) s =
      .ok z) :
    ∃ y, items.foldlM (resolveItem u.arena sigs) x = .ok y ∧ KeepsUp mode u s z x y := by
  induction items generalizing s x with
  | nil =>
    cases hrun
    exact ⟨x, rfl, .refl h sees⟩
  | cons item rest ih =>
    rw [List.foldlM_cons] at hrun
    obtain ⟨v, hfirst, hrest⟩ := of_bind_ok hrun
    obtain ⟨w, hresolve, hkeeps⟩ := keepsUp_item wf rank blocks sigs typed params
      (hitems item List.mem_cons_self) h sees outermost hfirst
    obtain ⟨y, hresolve', hkeeps'⟩ := ih (fun other hmem => hitems other
      (List.mem_cons_of_mem _ hmem)) hkeeps.holds hkeeps.sees (steps_item hfirst outermost).1 hrest
    exact ⟨y, by rw [List.foldlM_cons]; exact bind_ok hresolve hresolve', hkeeps.trans hkeeps'⟩

/-- The last step at an item leaves it for the place where it ends. -/
theorem leaveItem_last {item : Item}
    (hrun : (transformer rules mode).recording.transformItem item s = .ok z) :
    ∃ front b before, z.2.2 = front ++ [⟨.leaveItem item, b, before, z.2.1⟩] := by
  obtain ⟨v, -, hrun⟩ := of_bind_ok hrun
  obtain ⟨⟨b, w⟩, -, hrun⟩ := of_bind_ok hrun
  obtain ⟨w', hleave, hrun⟩ := of_bind_ok hrun
  cases hrun
  obtain ⟨after, -, rfl⟩ := of_map_ok hleave
  exact ⟨w.2, b, w.1, rfl⟩

/-- After each item the analysis is between items. -/
theorem outermost_after {items : List Item} (outermost : s.2.1.place.Outermost)
    (hrun : items.foldlM (fun s item => (transformer rules mode).recording.transformItem item s) s =
      .ok z) :
    ∃ steps, z.2.2 = s.2.2 ++ steps ∧ ∀ step ∈ steps, ∀ item, step.event = .leaveItem item →
      step.after.place.Outermost := by
  induction items generalizing s with
  | nil =>
    cases hrun
    exact ⟨[], (List.append_nil _).symm, List.forall_mem_nil _⟩
  | cons item rest ih =>
    rw [List.foldlM_cons] at hrun
    obtain ⟨v, hfirst, hrest⟩ := of_bind_ok hrun
    obtain ⟨hv, enter, body, leave, hlog, hsteps⟩ := steps_item hfirst outermost
    obtain ⟨front, b, before, hlast⟩ := leaveItem_last hfirst
    obtain ⟨more, hlog', hmore⟩ := ih hv hrest
    have hleave : leave.after = v.2.1 := by
      rw [hlast, ← List.cons_append, ← List.append_assoc] at hlog
      cases (List.append_inj' hlog rfl).2
      rfl
    refine ⟨enter :: (body ++ [leave]) ++ more, by rw [hlog', hlog, List.append_assoc], ?_⟩
    intro step hstep other event
    rcases List.mem_append.1 hstep with hmem | hmem
    · rcases List.mem_cons.1 hmem with rfl | hmem
      · cases hsteps.enters.symm.trans event
      · rcases List.mem_append.1 hmem with hmem | hmem
        · exact absurd event ((hsteps.body step hmem).1 other).2
        · cases List.mem_singleton.1 hmem
          rwa [hleave]
    · exact hmore step hmem other event

/-- Without a record a scope is closed as well. -/
theorem place_scope_plain {depth : Nat} {id : StmtId} {stmt : Stmt} {s t : Arena × Analyzer}
    (get : s.1.stmt? id = some stmt) (hopens : stmt.form.opensScope = true)
    (hrun : (transformer rules mode).transformStmt depth id s = .ok t) :
    t.2.place = s.2.place := by
  obtain ⟨steps, -, hrecord⟩ := (transformer rules mode).records_stmt depth id s t hrun
  exact place_scope (s := (s.1, s.2, [])) get hopens (hrecord [])

/-- What leaving a name does: it has the type that it is bound to, and a name that is bound to
nothing is reported. -/
theorem found_ident {steps more : List (Transformer.Step Analyzer)}
    {step : Transformer.Step Analyzer} {s t : Arena × Analyzer}
    (htrace : (transformer rules mode).Trace s (steps ++ step :: more) t) {id : ExprId}
    {name : String} {span : Span} (event : step.event = .leaveExpr id)
    (get : step.arena.expr? id = some ⟨.ident name, span⟩) :
    foundType rules id step = (step.before.place.scope.lookup? name).join ∧
      emitted step = if (step.before.place.scope.lookup? name).isSome then []
        else [⟨.unknownIdentifier name, span⟩] := by
  obtain ⟨v, v', -, does, heq, -⟩ := htrace.at_step
  rw [event] at does heq
  obtain ⟨type, count, htype, hafter, -⟩ := does_leaveExpr does
  rw [heq] at get ⊢
  have hget : v.1.expr id = .ok ⟨.ident name, span⟩ := Arena.expr_eq_ok get
  have htyping : typing rules v.1 id v.2 =
      .ok (Rules.identifier v.2.place.scope name span) := bind_ok hget rfl
  cases htype.symm.trans htyping
  have hemitted : emitted ⟨.leaveExpr id, v.1, v.2, v'.2⟩ =
      (Rules.identifier v.2.place.scope name span).findings := emitted_eq (by rw [hafter]; rfl)
  rw [foundType_leaveExpr rfl htyping, hemitted]
  unfold Rules.identifier
  dsimp only
  cases v.2.place.scope.lookup? name with
  | some binding => exact ⟨rfl, rfl⟩
  | none => exact ⟨rfl, rfl⟩

end Items

/-- What the analysis knows of a unit for its resolution: the types by which the rules declare a
variable, and the parameters with which they go into a function. -/
def ShaderUnit.lexical (u : ShaderUnit) (config : AnalysisConfig) : Signatures where
  typeOf name written := ((u.rules config).declaredType name written).value
  params := (u.rules config).declared

/-- The steps of an analysis do what a resolution says. -/
structure Lexical.Resolution.FollowedBy (resolution : Resolution) (rules : Rules)
    (steps : List (Transformer.Step Analyzer)) : Prop where
  /-- A name is bound to what it refers to. -/
  uses : steps.filterMap seen? = resolution.uses.map Use.binding
  /-- The names that are said to be declared already are those that were rejected. -/
  rejected : redeclarations (steps.flatMap emitted) = resolution.rejected.map Declared.finding
  /-- What a name is bound to is its type, and a name that is bound to nothing is reported. -/
  names : ∀ step ∈ steps, ∀ id name span, step.event = .leaveExpr id →
    step.arena.expr? id = some ⟨.ident name, span⟩ →
    foundType rules id step = (step.before.place.scope.lookup? name).join ∧
      emitted step = if (step.before.place.scope.lookup? name).isSome then []
        else [⟨.unknownIdentifier name, span⟩]
  /-- After an item only the scope of the globals is open. -/
  closed : ∀ step ∈ steps, ∀ item, step.event = .leaveItem item →
    step.after.place.function = none ∧ step.after.place.scope.depth = 0

/-- Going through what opens a scope leaves everything in sight as it was. -/
structure Rules.Restores (rules : Rules) (mode : TransformMode) : Prop where
  stmt {depth id stmt s t} : s.1.stmt? id = some stmt → stmt.form.opensScope = true →
    (transformer rules mode).transformStmt depth id s = .ok t → t.2.place = s.2.place
  function {f s t} : s.2.place.Outermost →
    (transformer rules mode).transformItem (.function f) s = .ok t → t.2.place = s.2.place

theorem Rules.restores (rules : Rules) (mode : TransformMode) : rules.Restores mode where
  stmt := place_scope_plain
  function outermost hrun := place_item hrun outermost

namespace Scoping

/-- **Names are resolved lexically.** In a well-formed unit where bodies are blocks, a name is bound
to what a lexical resolution says it refers to, and the declarations that are said to be there
already are those that the resolution rejects. A function that can be told from those of its name
above it has the parameters that it writes. Statements with a scope of their own and functions leave
what is in sight as it was. -/
theorem names_resolved {u : ShaderUnit} (wf : u.WellFormed) (blocks : u.BlockBodies)
    (config : AnalysisConfig) :
    (∃ r steps resolution, analyze u config = .ok r ∧ u.steps config = .ok steps ∧
      r.findings = (ItemTable.collect u).findings ++ steps.flatMap emitted ∧
      resolve u (u.lexical config) = .ok resolution ∧
      resolution.FollowedBy (u.rules config) steps) ∧
    (∀ above f below, u.items = above ++ .function f :: below →
      (∀ g, .function g ∈ above → g.name = f.name → g.span ≠ f.span) →
      (u.lexical config).params f = f.declared (u.known above f)) ∧
    (u.rules config).Restores config.transform := by
  obtain ⟨rank⟩ := wf.ranking
  refine ⟨?_, fun above f below hitems distinct =>
    Rules.declared_own (Rules.signature_own config hitems distinct), Rules.restores _ _⟩
  obtain ⟨r, ended⟩ := Stripping.analyze_ok wf config
  obtain ⟨t, steps, htrace, hrecord, hsteps, rfl⟩ := analyze_steps ended
  obtain ⟨⟨b, w, log⟩, hfold, hend⟩ := of_bind_ok hrecord
  cases hend
  have outermost : (start u).place.Outermost := ⟨rfl, rfl⟩
  have hsees : (start u).place.Sees [⟨.globals, []⟩] :=
    ⟨.cons (fun _ => rfl) .nil, .globals, List.forall_mem_nil _⟩
  obtain ⟨y, hresolve, hkeeps⟩ := keepsUp_items
    (s := (u.arena, start u, [])) (x := ([⟨.globals, []⟩], {})) wf rank blocks
    (u.lexical config) (fun _ _ => rfl) (fun _ => rfl) u.items (fun _ => id)
    (Stripping.holds_start u config.transform) hsees outermost hfold
  obtain ⟨logged, hlog, htracks⟩ := hkeeps.steps
  cases hlog
  obtain ⟨logged, hlog, hclosed⟩ := outermost_after outermost hfold
  cases hlog
  refine ⟨_, _, y.2, ended, hsteps, trace_findings htrace, bind_ok hresolve rfl,
    ⟨htracks.uses.symm, htracks.rejected.symm, ?_, ?_⟩⟩
  · intro step hstep id name span event get
    obtain ⟨before, after, hsplit⟩ := List.append_of_mem hstep
    exact found_ident (hsplit ▸ htrace) event get
  · intro step hstep item event
    have hplace := hclosed step hstep item event
    exact ⟨hplace.function, congrArg List.length hplace.outer⟩

/-- A global, a parameter and a variable of one name. The parameter is declared again in the body,
and the variable in a block of it, where the parameter is its initial value. -/
def shadowing : ShaderUnit where
  items :=
    [.global ⟨"x", ⟨"float", .point 0 1 1⟩, none, .point 0 1 1⟩,
    .function ⟨"f", [⟨"x", ⟨"int", .point 0 2 1⟩, .point 0 2 1⟩], ⟨"void", .point 0 2 1⟩, ⟨6⟩,
      .point 0 2 1⟩,
    .function ⟨"g", [], ⟨"void", .point 0 9 1⟩, ⟨8⟩, .point 0 9 1⟩]
  arena :=
    { exprs := #[⟨.ident "x", .point 0 3 1⟩, ⟨.ident "x", .point 0 5 10⟩,
        ⟨.ident "x", .point 0 6 1⟩, ⟨.ident "x", .point 0 8 1⟩, ⟨.ident "x", .point 0 10 1⟩]
      stmts := #[⟨.expr ⟨0⟩, .point 0 3 1⟩,
        ⟨.declare ⟨"x", ⟨"float", .point 0 4 1⟩, none, .point 0 4 1⟩, .point 0 4 1⟩,
        ⟨.declare ⟨"x", ⟨"bool", .point 0 5 1⟩, some ⟨1⟩, .point 0 5 1⟩, .point 0 5 1⟩,
        ⟨.expr ⟨2⟩, .point 0 6 1⟩, ⟨.block [⟨2⟩, ⟨3⟩], .point 0 5 1⟩, ⟨.expr ⟨3⟩, .point 0 8 1⟩,
        ⟨.block [⟨0⟩, ⟨1⟩, ⟨4⟩, ⟨5⟩], .point 0 2 20⟩, ⟨.expr ⟨4⟩, .point 0 10 1⟩,
        ⟨.block [⟨7⟩], .point 0 9 20⟩] }

theorem names_resolved_shadowing :
    shadowing.WellFormed ∧ shadowing.BlockBodies ∧ ∃ steps, shadowing.steps {} = .ok steps ∧
      (steps.filterMap seen?).map (fun (_, span, bound) => (span.start.line, bound)) =
        [(3, some (some (.scalar .int))), (5, some (some (.scalar .int))),
          (6, some (some (.scalar .bool))), (8, some (some (.scalar .int))),
          (10, some (some (.scalar .float)))] ∧
      redeclarations (steps.flatMap emitted) = [⟨.redeclared "x", .point 0 4 1⟩] := by
  have wf : shadowing.WellFormed :=
    ShaderUnit.Ascending.wellFormed ⟨by decide, by decide, by decide⟩
  have blocks : shadowing.BlockBodies := by
    intro f hf
    simp only [shadowing, List.mem_cons, reduceCtorEq, Item.function.injEq, List.not_mem_nil,
      false_or, or_false] at hf
    obtain rfl | rfl := hf
    · exact ⟨_, _, rfl⟩
    · exact ⟨_, _, rfl⟩
  obtain ⟨⟨r, steps, resolution, -, hsteps, -, hresolve, hfollowed⟩, -⟩ :=
    names_resolved wf blocks {}
  obtain ⟨resolution', hresolve', hfound⟩ := of_map_ok (show
    (resolve shadowing (shadowing.lexical {})).map (fun resolution =>
      ((resolution.uses.map Use.binding).map fun (_, span, bound) => (span.start.line, bound),
        resolution.rejected.map Declared.finding)) =
      .ok ([(3, some (some (.scalar .int))), (5, some (some (.scalar .int))),
        (6, some (some (.scalar .bool))), (8, some (some (.scalar .int))),
        (10, some (some (.scalar .float)))], [⟨.redeclared "x", .point 0 4 1⟩]) by decide +kernel)
  cases hresolve.symm.trans hresolve'
  refine ⟨wf, blocks, steps, hsteps, ?_, ?_⟩
  · rw [hfollowed.uses]
    exact congrArg Prod.fst hfound
  · rw [hfollowed.rejected]
    exact congrArg Prod.snd hfound

/-- A function without parameters whose body is no block, so that what a branch of it declares is in
the scope of the parameters. -/
def bareBody : ShaderUnit where
  items := [.function ⟨"f", [], ⟨"void", .point 0 1 1⟩, ⟨3⟩, .point 0 1 1⟩]
  arena :=
    { exprs := #[⟨.literal (.bool true), .point 0 1 15⟩]
      stmts := #[⟨.declare ⟨"x", ⟨"int", .point 0 2 1⟩, none, .point 0 2 1⟩, .point 0 2 1⟩,
        ⟨.declare ⟨"x", ⟨"float", .point 0 4 1⟩, none, .point 0 4 1⟩, .point 0 4 1⟩,
        ⟨.block [⟨1⟩], .point 0 3 1⟩, ⟨.ifElse ⟨0⟩ ⟨0⟩ (some ⟨2⟩), .point 0 1 12⟩] }

/-- If a body is no block, a name can be rejected that is neither a parameter nor declared in the same
scope. If two functions of one name share their span, the second does not find its own parameter. -/
theorem names_misresolved :
    (bareBody.WellFormed ∧ (∀ f, .function f ∈ bareBody.items → f.params = []) ∧
      ∃ steps step, bareBody.steps {} = .ok steps ∧ step ∈ steps ∧ step.event = .leaveStmt ⟨1⟩ ∧
        step.before.place.scope.hasLocal "x" = false ∧
        emitted step = [⟨.redeclared "x", .point 0 4 1⟩]) ∧
    let u := Signatures.homonyms default default
    u.WellFormed ∧ u.BlockBodies ∧
      ∃ steps step, u.steps {} = .ok steps ∧ step ∈ steps ∧ step.event = .leaveExpr ⟨1⟩ ∧
        step.arena.expr? ⟨1⟩ = some ⟨.ident "y", default⟩ ∧
        step.before.place.scope.lookup? "y" = none := by
  have hbare : (bareBody.steps {}).map (fun steps => steps.any fun step =>
      step.event = .leaveStmt ⟨1⟩ ∧ step.before.place.scope.hasLocal "x" = false ∧
        emitted step = [⟨.redeclared "x", .point 0 4 1⟩]) = .ok true := by
    decide +kernel
  have hshared : ((Signatures.homonyms default default).steps {}).map (fun steps =>
      steps.any fun step => step.event = .leaveExpr ⟨1⟩ ∧
        step.arena.expr? ⟨1⟩ = some ⟨.ident "y", default⟩ ∧
        step.before.place.scope.lookup? "y" = none) = .ok true := by
    decide +kernel
  refine ⟨⟨ShaderUnit.Ascending.wellFormed ⟨by decide, by decide, by decide⟩, ?_, ?_⟩,
    ShaderUnit.Ascending.wellFormed ⟨by decide, by decide, by decide⟩, ?_, ?_⟩
  · intro f hf
    cases List.mem_singleton.1 hf
    rfl
  · obtain ⟨steps, hsteps, hany⟩ := of_map_ok hbare
    obtain ⟨step, hmem, hstep⟩ := List.any_eq_true.1 hany
    exact ⟨steps, step, hsteps, hmem, of_decide_eq_true hstep⟩
  · intro f hf
    rcases List.mem_pair.1 hf with heq | heq
    · cases heq
      exact ⟨_, _, rfl⟩
    · cases heq
      exact ⟨_, _, rfl⟩
  · obtain ⟨steps, hsteps, hany⟩ := of_map_ok hshared
    obtain ⟨step, hmem, hstep⟩ := List.any_eq_true.1 hany
    exact ⟨steps, step, hsteps, hmem, of_decide_eq_true hstep⟩

end Scoping
end ShaderFront
