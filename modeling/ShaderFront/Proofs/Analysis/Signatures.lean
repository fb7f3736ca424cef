import ShaderFront.Proofs.Analysis.Levels
import ShaderFront.Proofs.Analysis.TypeNames

/-!
# Bodies and their signatures

The signature of a function is looked up by its name, and then recognised by its span. So a later
definition of a name is checked by what it writes itself, unless it has the span of the first one:
then it is taken for that one, and checked by its parameters and its type.
-/

namespace ShaderFront

open Transformer Reported

/-- The parameters of a function and its type as it writes them, where the types of `t` are
known. -/
def Function.signature (f : Function) (t : ItemTable) : Bindings × Option Ty :=
  (f.params.map fun p => (p.name, t.type? p.type.name), t.type? f.returns.name)

/-- Whether the item is a function of that name. -/
def Item.defines (name : String) : Item → Bool
  | .function f => f.name == name
  | _ => false

/-- The types that the signature of a function may name: those above it, or all of them if it is not
the first of its name. -/
def ShaderUnit.known (u : ShaderUnit) (above : List Item) (f : Function) : ItemTable :=
  if above.any (·.defines f.name) then (ItemTable.collect u).value
  else (ItemTable.addItems {} above).value

namespace ItemTable

/-- The signature that is collected for a function if it is the first of its name. -/
def collected (t : ItemTable) (f : Function) : FunctionSig :=
  ⟨f.name, (f.signature t).1, (f.signature t).2, f.span⟩

theorem function?_addFunction (t : ItemTable) (f : Function) (name : String) :
    (t.addFunction f).value.function? name =
      (t.function? name).or (if f.name = name then some (t.collected f) else none) := by
  unfold addFunction
  split
  · rename_i hknown
    by_cases hname : f.name = name
    · obtain ⟨sig, hsig⟩ := Option.isSome_iff_exists.1 (hname ▸ hknown)
      simp [hsig]
    · simp [hname]
  · by_cases hname : f.name = name
    · simp [function?, List.find?_append, hname, value_resolveParams, resolve, collected,
        Function.signature]
    · simp [function?, List.find?_append, hname]

/-- Items that do not define a function of the name leave it as it is. -/
theorem function?_addItem {t : ItemTable} {item : Item} {name : String}
    (h : item.defines name = false) :
    (t.addItem item).value.function? name = t.function? name := by
  cases item with
  | function f =>
    have hname : f.name ≠ name := by simpa [Item.defines] using h
    rw [addItem, function?_addFunction, if_neg hname, Option.or_none]
  | struct s =>
    simp only [addItem, addStruct]
    split <;> rfl
  | typedef d =>
    simp only [addItem, addTypedef]
    split
    · rfl
    · rw [value_bind]
      split <;> rfl
  | global decl => rfl

/-- What was found under a name is found still. -/
theorem function?_addItem_of_some {t : ItemTable} {name : String} {sig : FunctionSig}
    (h : t.function? name = some sig) (item : Item) :
    (t.addItem item).value.function? name = some sig := by
  cases hdefines : item.defines name with
  | false => rw [function?_addItem hdefines, h]
  | true =>
    cases item with
    | function f => rw [addItem, function?_addFunction, h, Option.some_or]
    | struct | typedef | global => cases hdefines

theorem function?_addItems_of_some {t : ItemTable} {name : String} {sig : FunctionSig}
    (h : t.function? name = some sig) (items : List Item) :
    (t.addItems items).value.function? name = some sig := by
  induction items generalizing t with
  | nil => exact h
  | cons item rest ih => exact ih (function?_addItem_of_some h item)

/-- If nothing is known under a name, the items tell what is. -/
theorem function?_addItems_of_none {t : ItemTable} {name : String}
    (h : t.function? name = none) (items : List Item) :
    if items.any (·.defines name) then
      ∃ sig g, (t.addItems items).value.function? name = some sig ∧
        .function g ∈ items ∧ g.name = name ∧ sig.span = g.span
    else (t.addItems items).value.function? name = none := by
  induction items generalizing t with
  | nil => exact h
  | cons item rest ih =>
    cases hdefines : item.defines name with
    | true =>
      cases item with
      | function g =>
        have hname : g.name = name := by simpa [Item.defines] using hdefines
        have hadd : (t.addItem (.function g)).value.function? name = some (t.collected g) := by
          rw [addItem, function?_addFunction, h, if_pos hname, Option.none_or]
        rw [List.any_cons, hdefines, Bool.true_or, if_pos rfl]
        exact ⟨t.collected g, g, function?_addItems_of_some hadd rest, List.mem_cons_self, hname,
          rfl⟩
      | struct | typedef | global => cases hdefines
    | false =>
      have hrest := ih ((function?_addItem hdefines).trans h)
      rw [List.any_cons, hdefines, Bool.false_or]
      split at hrest
      · rename_i hany
        obtain ⟨sig, g, hsig, hmem, hg⟩ := hrest
        rw [if_pos hany]
        exact ⟨sig, g, hsig, List.mem_cons_of_mem _ hmem, hg⟩
      · rename_i hany
        rw [if_neg hany]
        exact hrest

theorem value_addItems_append (t : ItemTable) (items more : List Item) :
    (t.addItems (items ++ more)).value = ((t.addItems items).value.addItems more).value := by
  induction items generalizing t with
  | nil => rfl
  | cons item rest ih => exact ih _

end ItemTable

/-- The first definition of a name is what is collected for it. -/
theorem ShaderUnit.function?_first {u : ShaderUnit} {above below : List Item} {f : Function}
    (hitems : u.items = above ++ .function f :: below)
    (hfirst : above.any (·.defines f.name) = false) :
    (ItemTable.collect u).value.function? f.name =
      some ((ItemTable.addItems {} above).value.collected f) := by
  have hnone : ({} : ItemTable).function? f.name = none := rfl
  have habove := ItemTable.function?_addItems_of_none hnone above
  rw [hfirst, if_neg Bool.false_ne_true] at habove
  rw [ItemTable.collect, hitems, ItemTable.value_addItems_append]
  refine ItemTable.function?_addItems_of_some (t := ((ItemTable.addItems {} above).value.addItem
    (.function f)).value) ?_ below
  rw [ItemTable.addItem, ItemTable.function?_addFunction, habove, if_pos rfl, Option.none_or]

/-- A later definition of a name is not what is collected for it. -/
theorem ShaderUnit.function?_later {u : ShaderUnit} {above below : List Item} {f : Function}
    (hitems : u.items = above ++ .function f :: below)
    (hlater : above.any (·.defines f.name) = true) :
    ∃ sig g, (ItemTable.addItems {} above).value.function? f.name = some sig ∧
      (ItemTable.collect u).value.function? f.name = some sig ∧
      .function g ∈ above ∧ g.name = f.name ∧ sig.span = g.span := by
  have hnone : ({} : ItemTable).function? f.name = none := rfl
  have habove := ItemTable.function?_addItems_of_none hnone above
  rw [hlater, if_pos rfl] at habove
  obtain ⟨sig, g, hsig, hg⟩ := habove
  refine ⟨sig, g, hsig, ?_, hg⟩
  rw [ItemTable.collect, hitems, ItemTable.value_addItems_append]
  exact ItemTable.function?_addItems_of_some hsig _

/-- A function is checked by what it writes itself, unless a definition of its name above it has its
span. -/
theorem Rules.signature_own {u : ShaderUnit} (config : AnalysisConfig) {above below : List Item}
    {f : Function} (hitems : u.items = above ++ .function f :: below)
    (distinct : ∀ g, .function g ∈ above → g.name = f.name → g.span ≠ f.span) :
    (u.rules config).signature f = f.signature (u.known above f) := by
  unfold signature ShaderUnit.known
  cases hdefined : above.any (·.defines f.name) with
  | true =>
    obtain ⟨sig, g, -, hsig, hg, hname, hspan⟩ := u.function?_later hitems hdefined
    have hother : (sig.span == f.span) = false := by simpa [hspan] using distinct g hg hname
    rw [ShaderUnit.rules, hsig, Option.filter_some, hother, if_neg Bool.false_ne_true]
    rfl
  | false =>
    rw [ShaderUnit.rules, u.function?_first hitems hdefined, Option.filter_some,
      if_pos (by simp [ItemTable.collected]), if_neg Bool.false_ne_true]
    rfl

/-! ## Going into a function -/

/-- Outside of functions a declaration binds a name that the scope does not bind. -/
theorem Place.declare_find? {p : Place} (h : p.function = none) (other : String) (type : Option Ty)
    (span : Span) (name : String) :
    (p.declare other type span).value.scope.inner.find? name =
      (p.scope.inner.find? name).or ([(other, type)].lookup name) := by
  have hfree : p.hidesParameter other = false := by simp [hidesParameter, h]
  rw [declare, hfree, if_neg Bool.false_ne_true]
  unfold Scope.bind? Scope.hasLocal Bindings.has
  cases hfind : p.scope.inner.find? other with
  | some bound =>
    by_cases hname : name = other
    · subst hname
      simp [hfind]
    · have hne : (name == other) = false := beq_false_of_ne hname
      simp [List.lookup_cons, hne]
  | none =>
    by_cases hname : name = other
    · subst hname
      rw [hfind, Option.none_or]
      simp [Bindings.find?]
    · have hne : (name == other) = false := beq_false_of_ne hname
      simp [Bindings.find?, List.lookup_cons, hne]

/-- Of parameters with one name the first one counts. -/
theorem Place.declareAll_find? {p : Place} (h : p.function = none)
    (entries : List (String × Option Ty × Span)) (name : String) :
    (p.declareAll entries).value.scope.inner.find? name =
      (p.scope.inner.find? name).or ((entries.map fun e => (e.1, e.2.1)).lookup name) := by
  induction entries generalizing p with
  | nil => simp [declareAll]
  | cons entry rest ih =>
    obtain ⟨other, type, span⟩ := entry
    have hlevel := p.declare_level other type span
    rw [declareAll, Reported.value_bind, ih (hlevel.function.trans h), declare_find? h,
      Option.or_assoc, List.map_cons, List.lookup_cons, List.lookup_cons]
    cases name == other <;> rfl

/-- Going into a function that is checked by what it writes itself. -/
theorem Rules.enterFunction_own {r : Rules} {p : Place} {f : Function} {t : ItemTable}
    (hsig : r.signature f = f.signature t) (h : p.Outermost) :
    let q := (r.enterFunction p f).value
    q.function = some ⟨f.name, (f.signature t).2, 2⟩ ∧
      q.scope.outer = [p.scope.inner] ∧
      ∀ name, q.scope.inner.find? name = (f.signature t).1.find? name := by
  intro q
  have houter : q.scope.outer = [p.scope.inner] := by
    rw [r.enterFunction_outer, h.outer]
  let entries := ((f.signature t).1.zip f.params).map fun entry =>
    (entry.1.1, entry.1.2, entry.2.span)
  have hentries : entries.map (fun e => (e.1, e.2.1)) = (f.signature t).1 := by
    rw [List.map_map]
    exact List.map_fst_zip (by simp [Function.signature])
  have hq : q = { (p.enterScope.declareAll entries).value with
      function := some ⟨f.name, (f.signature t).2, q.scope.depth + 1⟩ } := by
    simp only [q, enterFunction, hsig]
    rfl
  refine ⟨?_, houter, fun name => ?_⟩
  · rw [hq, Scope.depth, houter]
    rfl
  · rw [hq]
    have hchild : p.enterScope.function = none := h.function
    refine (Place.declareAll_find? hchild entries name).trans ?_
    rw [hentries]
    rfl

/-! ## Bodies -/

/-- A place in the body of a function: it has the name and the type, and of the tables in sight the
outermost are that of its parameters, to which a body that is no block may add, and the globals. -/
structure Place.InBody (p : Place) (f : Function) (signature : Bindings × Option Ty)
    (globals : Bindings) : Prop where
  function : p.function = some ⟨f.name, signature.2, 2⟩
  tables : ∃ locals own, p.scope.tables = locals ++ [own, globals] ∧ signature.1.Kept own

/-- What is reported at a `return` statement depends on the function it stands in only. -/
theorem Rules.returnStatement_eq (r : Rules) {p : Place} {frame : FunctionFrame}
    (h : p.function = some frame) (value : Option Operand) (span : Span) :
    r.returnStatement p value span = r.returnStatement { function := some frame } value span := by
  simp only [returnStatement, h]

namespace Analyzer

/-- A step that leaves a `return` statement reports what the rules report there. -/
theorem emitted_returns {rules : Rules} {mode : TransformMode} {s t : Arena × Analyzer}
    {steps more : List (Transformer.Step Analyzer)} {step : Transformer.Step Analyzer}
    (htrace : (transformer rules mode).Trace s (steps ++ step :: more) t) {id : StmtId}
    {value : Option ExprId} {span : Span} (event : step.event = .leaveStmt id)
    (hstmt : step.arena.stmt? id = some ⟨.returns value, span⟩) :
    ∃ operand, step.before.optionalOperand step.arena value = .ok operand ∧
      emitted step = (rules.returnStatement step.before.place operand span).findings := by
  obtain ⟨v, v', -, does, heq, -⟩ := htrace.at_step
  rw [event] at does heq
  subst heq
  cases does with
  | @leaveStmt _ a s out _ hook =>
    obtain ⟨stmt, hget, hook⟩ := of_bind_ok hook
    obtain ⟨form, hform, hook⟩ := of_bind_ok hook
    cases (Arena.stmt?_of_ok hget).symm.trans hstmt
    obtain ⟨operand, hoperand, hform⟩ := of_bind_ok hform
    cases hform
    cases hook
    refine ⟨operand, hoperand, emitted_eq ?_⟩
    simp [moveTo, Rules.statement]

/-- The steps at a function, from where it is entered to where it is left, check its body by a
signature: it is entered with exactly the parameters of the signature, they stay in sight, and what
is reported at a `return` statement is what is reported in a function of that type. -/
structure ChecksBody (rules : Rules) (f : Function) (signature : Bindings × Option Ty)
    (enter : Transformer.Step Analyzer) (body : List (Transformer.Step Analyzer)) : Prop where
  params : ∀ name, enter.after.place.scope.inner.find? name = signature.1.find? name
  entered : enter.after.place.InBody f signature enter.before.place.scope.inner
  inside : ∀ step ∈ body, step.before.place.InBody f signature enter.before.place.scope.inner
  returns : ∀ step ∈ body, ∀ id value span, step.event = .leaveStmt id →
    step.arena.stmt? id = some ⟨.returns value, span⟩ →
    ∃ operand, step.before.optionalOperand step.arena value = .ok operand ∧
      emitted step = (rules.returnStatement
        { function := some ⟨f.name, signature.2, 2⟩ } operand span).findings

/-- A function that is checked by what it writes itself. -/
theorem ItemSteps.checksBody {rules : Rules} {mode : TransformMode} {s t : Arena × Analyzer}
    {before after body : List (Transformer.Step Analyzer)}
    {enter leave : Transformer.Step Analyzer} {start : Analyzer} {f : Function} {known : ItemTable}
    (hitem : ItemSteps rules (.function f) start enter body leave)
    (htrace : (transformer rules mode).Trace s (before ++ enter :: (body ++ leave :: after)) t)
    (hstart : start.place.Outermost) (hsig : rules.signature f = f.signature known) :
    ChecksBody rules f (f.signature known) enter body := by
  obtain ⟨hfunction, houter, hparams⟩ := Rules.enterFunction_own hsig hstart
  have hafter : enter.after.place = (rules.enterFunction start.place f).value := by
    rw [hitem.after]
    rfl
  rw [← hafter] at hfunction houter hparams
  rw [← hitem.before] at houter
  have hown : (f.signature known).1.Kept enter.after.place.scope.inner := fun name type hname =>
    (hparams name).trans hname
  have inside : ∀ step ∈ body,
      step.before.place.InBody f (f.signature known) enter.before.place.scope.inner := by
    intro step hstep
    obtain ⟨-, hover⟩ := hitem.body step hstep
    obtain ⟨locals, inner, htables, hkept⟩ := hover.tables
    exact ⟨hover.function.trans hfunction, locals, inner, houter ▸ htables, hown.trans hkept⟩
  refine ⟨hparams, ⟨hfunction, [], _, by rw [Scope.tables, houter]; rfl, hown⟩, inside, ?_⟩
  intro step hstep id value span event hstmt
  have hbody := inside step hstep
  obtain ⟨front, back, rfl⟩ := List.append_of_mem hstep
  have hsplit : before ++ enter :: ((front ++ step :: back) ++ leave :: after) =
      (before ++ enter :: front) ++ step :: (back ++ leave :: after) := by simp
  rw [hsplit] at htrace
  obtain ⟨operand, hoperand, hemitted⟩ := emitted_returns htrace event hstmt
  exact ⟨operand, hoperand, by rw [hemitted, Rules.returnStatement_eq _ hbody.function]⟩

end Analyzer

namespace Signatures

open Analyzer

/-- The steps at an item among all others. -/
theorem steps_split {rules : Rules} {mode : TransformMode} {above below : List Item} {item : Item}
    {a : Arena} {s : Analyzer} {t : Arena × Recorded} (outermost : s.place.Outermost)
    (h : (above ++ item :: below).foldlM
      (fun s item => (transformer rules mode).recording.transformItem item s) (a, s, []) = .ok t) :
    ∃ before enter body leave after z, t.2.2 = before ++ enter :: (body ++ leave :: after) ∧
      entered before = above ∧ z.place.Outermost ∧ ItemSteps rules item z enter body leave := by
  rw [List.foldlM_append] at h
  obtain ⟨v, habove, h⟩ := of_bind_ok h
  rw [List.foldlM_cons] at h
  obtain ⟨w, hitem, hbelow⟩ := of_bind_ok h
  obtain ⟨hv, before, hbefore, hentered⟩ := steps_items habove outermost
  obtain ⟨hw, enter, body, leave, hlog, hsteps⟩ := steps_item hitem hv
  obtain ⟨-, after, hafter, -⟩ := steps_items hbelow hw
  refine ⟨before, enter, body, leave, after, v.2.1, ?_, hentered, hv, hsteps⟩
  rw [hafter, hlog, hbefore]
  simp

/-- **A body is checked against its own signature**, unless a definition of its name above it has
its span. The analysis enters and leaves each function once, after the items above it, and between
the two it checks the body by the parameters and the type that the function writes itself. -/
theorem bodies_checked (u : ShaderUnit) (config : AnalysisConfig) :
    (u.WellFormed → ∃ r, analyze u config = .ok r) ∧
    ∀ r, analyze u config = .ok r → ∃ steps, u.steps config = .ok steps ∧
      ∀ above f below, u.items = above ++ .function f :: below →
        (∀ g, .function g ∈ above → g.name = f.name → g.span ≠ f.span) →
        ∃ (before body after : List (Transformer.Step Analyzer))
          (enter leave : Transformer.Step Analyzer),
          steps = before ++ enter :: (body ++ leave :: after) ∧ entered before = above ∧
          enter.event = .enterItem (.function f) ∧ leave.event = .leaveItem (.function f) ∧
          (∀ step ∈ body, ∀ item, step.event ≠ .enterItem item ∧ step.event ≠ .leaveItem item) ∧
          ChecksBody (u.rules config) f (f.signature (u.known above f)) enter body := by
  refine ⟨fun wf => Stripping.analyze_ok wf config, fun r ended => ?_⟩
  obtain ⟨t, steps, htrace, hrecord, hsteps, -⟩ := analyze_steps ended
  refine ⟨steps, hsteps, fun above f below hitems distinct => ?_⟩
  obtain ⟨⟨b, z, log⟩, hfold, hend⟩ := of_bind_ok hrecord
  cases hend
  rw [hitems] at hfold
  obtain ⟨before, enter, body, leave, after, s, rfl, hentered, hs, hitem⟩ :=
    steps_split ⟨rfl, rfl⟩ hfold
  exact ⟨before, body, after, enter, leave, rfl, hentered, hitem.enters, hitem.leaves,
    fun step hstep => (hitem.body step hstep).1,
    hitem.checksBody htrace hs (Rules.signature_own config hitems distinct)⟩

/-- A function `f` with one parameter, which has the type of the function. -/
def homonym (param type : String) (body : StmtId) (span : Span) : Function :=
  ⟨"f", [⟨param, ⟨type, span⟩, span⟩], ⟨type, span⟩, body, span⟩

/-- Two functions of one name, each of which returns its parameter. -/
def homonyms (first second : Span) : ShaderUnit where
  items :=
    [.function (homonym "x" "float" ⟨1⟩ first), .function (homonym "y" "int" ⟨3⟩ second)]
  arena :=
    { exprs := #[⟨.ident "x", first⟩, ⟨.ident "y", second⟩]
      stmts := #[⟨.returns (some ⟨0⟩), first⟩, ⟨.block [⟨0⟩], first⟩,
        ⟨.returns (some ⟨1⟩), second⟩, ⟨.block [⟨2⟩], second⟩] }

/-- The second one has a span of its own. -/
theorem bodies_checked_later :
    let u := homonyms (.point 0 1 1) (.point 0 2 1)
    let second := homonym "y" "int" ⟨3⟩ (.point 0 2 1)
    ∃ (before body after : List (Transformer.Step Analyzer))
      (enter leave : Transformer.Step Analyzer),
      u.steps {} = .ok (before ++ enter :: (body ++ leave :: after)) ∧
      enter.event = .enterItem (.function second) ∧
      enter.after.place.scope.inner.find? "x" = none ∧
      enter.after.place.scope.inner.find? "y" = some (some (.scalar .int)) ∧
      ∀ step ∈ body, step.before.place.function = some ⟨"f", some (.scalar .int), 2⟩ := by
  intro u second
  obtain ⟨hok, hbodies⟩ := bodies_checked u {}
  have wf : u.WellFormed :=
    ShaderUnit.Ascending.wellFormed ⟨by decide, by decide, by decide⟩
  obtain ⟨r, hrun⟩ := hok wf
  obtain ⟨steps, hsteps, hbody⟩ := hbodies r hrun
  have distinct : ∀ g, .function g ∈ u.items.take 1 → g.name = second.name →
      g.span ≠ second.span := by
    intro g hg _
    obtain rfl : g = homonym "x" "float" ⟨1⟩ (.point 0 1 1) := by
      simpa [u, homonyms] using hg
    decide
  obtain ⟨before, body, after, enter, leave, rfl, -, henter, -, -, hchecks⟩ :=
    hbody (u.items.take 1) second [] rfl distinct
  refine ⟨before, body, after, enter, leave, hsteps, henter, ?_, ?_, fun step hstep => ?_⟩
  · rw [hchecks.params]
    decide +kernel
  · rw [hchecks.params]
    decide +kernel
  · rw [(hchecks.inside step hstep).function]
    decide +kernel

/-- If it has the span of the first one, it is checked against the signature of that one. -/
theorem bodies_confused :
    let u := homonyms default default
    u.WellFormed ∧
    (∃ steps step, u.steps {} = .ok steps ∧ step ∈ steps ∧
      step.event = .enterItem (.function (homonym "y" "int" ⟨3⟩ default)) ∧
      step.after.place.scope.inner.find? "y" = none ∧
      step.after.place.function = some ⟨"f", some (.scalar .float), 2⟩) ∧
    (analyze u {}).map (fun r => r.findings.map (·.problem)) =
      .ok [.duplicate .functions "f", .unknownIdentifier "y"] := by
  intro u
  have hany : (u.steps {}).map (fun steps => steps.any fun step =>
      step.event = .enterItem (.function (homonym "y" "int" ⟨3⟩ default)) ∧
      step.after.place.scope.inner.find? "y" = none ∧
      step.after.place.function = some ⟨"f", some (.scalar .float), 2⟩) = .ok true := by
    decide +kernel
  refine ⟨ShaderUnit.Ascending.wellFormed ⟨by decide, by decide, by decide⟩, ?_,
    by decide +kernel⟩
  obtain ⟨steps, hsteps, hany⟩ := of_map_ok hany
  obtain ⟨step, hmem, hstep⟩ := List.any_eq_true.1 hany
  exact ⟨steps, step, hsteps, hmem, of_decide_eq_true hstep⟩

end Signatures
end ShaderFront
