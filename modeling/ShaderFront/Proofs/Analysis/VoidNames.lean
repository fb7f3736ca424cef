import ShaderFront.Proofs.Analysis.Binding
import ShaderFront.Proofs.Analysis.Completeness
import ShaderFront.Proofs.Types.Origins

/-!
# What is void

No variable that is declared has type `void`: a declaration that is written so is reported, and its
name is bound without a type. Nothing asks this of parameters and of fields. So in the scopes and
in the table of types, names and members are void exactly through parameters and fields that are
written with a type that means `void`.
-/

namespace ShaderFront

open Transformer Reported

namespace ShaderUnit

/-- A function of this name writes a parameter of that name with a type that means `void`. -/
def VoidParameter (u : ShaderUnit) (function name : String) : Prop :=
  ∃ f, .function f ∈ u.items ∧ f.name = function ∧
    ∃ ty, (ItemTable.collect u).value.Gives f.params name ty ∧ ty.isVoid = true

/-- A struct writes a field of this name with a type that means `void`. -/
def VoidField (u : ShaderUnit) (name : String) : Prop :=
  ∃ s, .struct s ∈ u.items ∧
    ∃ ty, (ItemTable.collect u).value.Gives s.fields name ty ∧ ty.isVoid = true

/-- A name or a member of this form may be void, as a parameter or a field is. -/
def MayBeVoid (u : ShaderUnit) (form : ExprForm ExprId) : Prop :=
  (∀ name, form = .ident name → ∃ f, u.VoidParameter f name) ∧
    ∀ target name, form = .member target name → u.VoidField name

theorem mayBeVoid_of_other {u : ShaderUnit} {form : ExprForm ExprId}
    (ident : ∀ name, form ≠ .ident name) (member : ∀ target name, form ≠ .member target name) :
    u.MayBeVoid form :=
  ⟨fun name h => absurd h (ident name), fun target name h => absurd h (member target name)⟩

end ShaderUnit

/-! ## Rules -/

namespace Rules

variable {r : Rules} {name : String} {ty : Ty}

/-- No variable is declared to be void. -/
theorem declaredType_isVoid {written : WrittenType}
    (h : (r.declaredType name written).value = some ty) : ty.isVoid = false := by
  unfold declaredType at h
  rw [value_bind, ItemTable.value_resolve] at h
  split at h
  · cases h
  · split at h
    · cases h
    · rename_i hvoid
      cases h
      exact Bool.eq_false_iff.2 hvoid

/-- What a function is entered with is written by a function of its name. -/
theorem signature_gives {u : ShaderUnit} {config : AnalysisConfig} {f : Function}
    (mem : .function f ∈ u.items) (h : (name, some ty) ∈ ((u.rules config).signature f).1) :
    ∃ g, .function g ∈ u.items ∧ g.name = f.name ∧
      (ItemTable.collect u).value.Gives g.params name ty := by
  unfold signature at h
  split at h
  · rename_i sig hsig
    have hfound := (Option.filter_eq_some_iff.1 hsig).1
    obtain ⟨g, hg, hname, hparams⟩ :=
      (ItemTable.written_collect u).functions sig (List.mem_of_find?_eq_some hfound)
    have hsame : sig.name = f.name := by simpa using List.find?_some hfound
    exact ⟨g, hg, hname.trans hsame, hparams name ty h⟩
  · obtain ⟨p, hp, heq⟩ := List.mem_map.1 h
    exact ⟨f, mem, rfl, p, hp, congrArg Prod.fst heq, congrArg Prod.snd heq⟩

/-- A function is entered with the parameters that it writes, if nothing is wrong with the items. -/
theorem signature_of_clean {u : ShaderUnit} {config : AnalysisConfig} {f : Function}
    (mem : .function f ∈ u.items) (clean : Clean (ItemTable.collect u).findings) :
    ((u.rules config).signature f).1 = (f.signature (ItemTable.collect u).value).1 := by
  obtain ⟨sig, hsig, hspan, hparams⟩ := ItemTable.function?_of_clean (t := {}) clean mem
  have hfound : (u.rules config).items.function? f.name = some sig := hsig
  rw [signature, hfound, Option.filter_some, if_pos (beq_iff_eq.2 hspan)]
  exact hparams

/-- A function that is entered without an error binds all of its parameters. -/
theorem enterFunction_of_clean {r : Rules} {p : Place} {f : Function} {t : ItemTable}
    (hsig : (r.signature f).1 = (f.signature t).1) (clean : Clean (r.enterFunction p f).findings) :
    ∀ q ∈ f.params, (q.name, t.type? q.type.name) ∈ (r.enterFunction p f).value.scope.inner := by
  intro q hq
  unfold enterFunction at clean ⊢
  rw [findings_bind, clean_append] at clean
  refine (Place.declareAll_of_clean clean.1).2 (q.name, t.type? q.type.name, q.span) ?_
  rw [hsig]
  refine List.mem_map.2 ⟨((q.name, t.type? q.type.name), q), ?_, rfl⟩
  rw [Function.signature, ← List.map_prod_right_eq_zip]
  exact List.mem_map.2 ⟨q, hq, rfl⟩

theorem swizzle_isVoid {k : ScalarKind} {size : UInt8} {target : Ty} {span : Span}
    (h : (swizzle k size name target span).value = some ty) : ty.isVoid = false := by
  rw [swizzle, value_orReject] at h
  unfold swizzle? at h
  dsimp only at h
  split at h
  · cases h
  · split at h
    · cases h
    · split at h
      · cases h
        split <;> rfl
      · cases h

/-- A member that is void is a field. -/
theorem member_isVoid {target : Ty} {span : Span}
    (h : (r.member target name span).value = some ty) (void : ty.isVoid = true) :
    ∃ info ∈ r.items.structs, (name, some ty) ∈ info.fields := by
  unfold member at h
  split at h
  · split at h
    · rename_i field hfield
      obtain ⟨info, hinfo, hget⟩ := Option.bind_eq_some_iff.1 hfield
      cases h
      obtain ⟨before, after, hfields, -⟩ := List.lookup_eq_some_iff.1 hget
      exact ⟨info, List.mem_of_find?_eq_some hinfo,
        hfields ▸ List.mem_append_right _ List.mem_cons_self⟩
    · cases h
  · exact absurd void (Bool.eq_false_iff.1 (swizzle_isVoid h))
  · exact absurd void (Bool.eq_false_iff.1 (swizzle_isVoid h))
  · cases h

theorem identifier_mem {scope : Scope} {span : Span}
    (h : (identifier scope name span).value = some ty) :
    ∃ b ∈ scope.tables, (name, some ty) ∈ b := by
  unfold identifier at h
  split at h
  · rename_i binding hlookup
    cases h
    obtain ⟨b, hb, hfind⟩ := List.exists_of_findSome?_eq_some hlookup
    obtain ⟨before, after, rfl, -⟩ := List.lookup_eq_some_iff.1 hfind
    exact ⟨_, hb, List.mem_append_right _ List.mem_cons_self⟩
  · cases h

end Rules

/-! ## Steps -/

namespace Analyzer

variable {u : ShaderUnit} {config : AnalysisConfig} {mode : TransformMode} {event : Event}
  {s t : Arena × Analyzer}

/-- **What is bound to void is a parameter.** -/
theorem does_binds_void (h : (transformer (u.rules config) mode).Does event s t)
    (meets : u.Meets event) {name : String} {ty : Ty}
    (binds : Binds ⟨event, s.1, s.2, t.2⟩ name (some ty)) (void : ty.isVoid = true) :
    ∃ f, event = .enterItem (.function f) ∧ u.VoidParameter f.name name := by
  cases binds with
  | @parameter f hevent entry =>
    cases hevent
    cases h with
    | enterItem hook =>
      cases hook
      obtain ⟨g, hg, hname, hgives⟩ :=
        Rules.signature_gives (meets _ (.inl rfl)) (Rules.mem_enterFunction entry)
      exact ⟨f, rfl, g, hg, hname, ty, hgives, void⟩
  | declared bound =>
    obtain ⟨decl, -, htype⟩ := type_of_variable h bound
    exact absurd void (Bool.eq_false_iff.1 (Rules.declaredType_isVoid htype.symm))

/-- No step changes what is behind parentheses. -/
theorem does_behind {rules : Rules} (h : (transformer rules mode).Does event s t) {id : ExprId}
    {e : Expr} : t.1.Behind id e ↔ s.1.Behind id e := by
  cases hleft : event.left? with
  | some left =>
    obtain rfl := Event.eq_of_left? hleft
    rcases does_leaveExpr_arena h with hsame | ⟨_, inner, core, hget, hform, hcore, hstored⟩
    · rw [hsame]
    · rw [hstored]
      exact Arena.behind_setExpr hget hform hcore
  | none => rw [(does_moves h hleft).1]

/-- Whatever is void in the table of types may be so. -/
def VoidsExplained (u : ShaderUnit) (s : Arena × Analyzer) : Prop :=
  ∀ id ty e, s.2.types.get? id = some ty → ty.isVoid = true → s.1.Behind id e →
    u.MayBeVoid e.form

/-- The type that is found for an expression may be void. -/
theorem VoidsExplained.typing (h : VoidsExplained u s) {id : ExprId} {type : Reported (Option Ty)}
    (typed : typing (u.rules config) s.1 id s.2 = .ok type) {ty : Ty}
    (value : type.value = some ty) (void : ty.isVoid = true)
    (bound : ∀ b ∈ s.2.place.scope.tables, ∀ name, (name, some ty) ∈ b →
      ∃ f, u.VoidParameter f name) {e : Expr} (behind : s.1.Behind id e) :
    u.MayBeVoid e.form := by
  obtain ⟨⟨form, span⟩, he, typed⟩ := of_bind_ok typed
  obtain ⟨seen, hseen, typed⟩ := of_bind_ok typed
  cases typed
  have hget := Arena.expr?_of_ok he
  cases behind with
  | node get plain =>
    cases hget.symm.trans get
    cases form with
    | ident name =>
      cases hseen
      obtain ⟨b, hb, hentry⟩ := Rules.identifier_mem value
      exact ⟨fun other hother => by cases hother; exact bound b hb name hentry, nofun⟩
    | member target name =>
      obtain ⟨o, -, hseen⟩ := of_bind_ok hseen
      cases hseen
      refine ⟨nofun, fun _ other hother => ?_⟩
      cases hother
      dsimp only [Rules.type] at value
      split at value
      · obtain ⟨info, hinfo, hentry⟩ := Rules.member_isVoid value void
        obtain ⟨st, hst, -, hfields⟩ := (ItemTable.written_collect u).structs info hinfo
        exact ⟨st, hst, ty, hfields name ty hentry, void⟩
      · cases value
    | _ => exact ShaderUnit.mayBeVoid_of_other nofun nofun
  | paren get hform rest =>
    -- Parentheses have the type of what they enclose, and the same node behind them.
    cases hget.symm.trans get
    cases hform
    obtain ⟨o, ho, hseen⟩ := of_bind_ok hseen
    cases hseen
    rw [Rules.type, value_pure, (of_operand_ok ho).1] at value
    exact h _ ty e value void rest

/-- **A step enters no other void.** -/
theorem VoidsExplained.does (h : VoidsExplained u s)
    (does : (transformer (u.rules config) mode).Does event s t)
    (bound : ∀ b ∈ s.2.place.scope.tables, ∀ name ty, (name, some ty) ∈ b → ty.isVoid = true →
      ∃ f, u.VoidParameter f name) : VoidsExplained u t := by
  intro id ty e hget void hbehind
  rw [does_behind does] at hbehind
  cases hleft : event.left? with
  | some left =>
    obtain rfl := Event.eq_of_left? hleft
    obtain ⟨type, count, htype, heq, -⟩ := does_leaveExpr does
    rw [heq] at hget
    rcases of_get?_record hget with hold | ⟨rfl, hnew⟩
    · exact h id ty e hold void hbehind
    · exact h.typing htype hnew void (fun b hb name hentry => bound b hb name ty hentry void)
        hbehind
  | none =>
    obtain ⟨-, v, hmoves⟩ := does_moves does hleft
    rw [hmoves.types] at hget
    exact h id ty e hget void hbehind

variable {steps : List (Transformer.Step Analyzer)}

theorem trace_behind {rules : Rules} (h : (transformer rules mode).Trace s steps t) {id : ExprId}
    {e : Expr} : t.1.Behind id e ↔ s.1.Behind id e := by
  induction h with
  | nil => rfl
  | snoc _ does ih => exact (does_behind does).trans ih

/-- The steps of a run bind nothing to void but parameters. -/
theorem trace_binds_void (h : (transformer (u.rules config) mode).Trace s steps t)
    (meets : ∀ step ∈ steps, u.Meets step.event) {step : Transformer.Step Analyzer}
    (mem : step ∈ steps) {name : String} {ty : Ty} (binds : Binds step name (some ty))
    (void : ty.isVoid = true) :
    ∃ f, step.event = .enterItem (.function f) ∧ u.VoidParameter f.name name := by
  obtain ⟨before, after, rfl⟩ := List.append_of_mem mem
  obtain ⟨v, v', -, does, heq, -⟩ := h.at_step
  rw [heq] at binds
  exact does_binds_void does (meets step mem) binds void

/-- At the start nothing has a type. -/
theorem start_voidsExplained (u : ShaderUnit) : VoidsExplained u (u.arena, .start u) := by
  intro id ty e hget
  rw [get?_start] at hget
  cases hget

/-- **Whatever is void after a run may be so.** -/
theorem trace_voidsExplained (h : (transformer (u.rules config) mode).Trace s steps t)
    (meets : ∀ step ∈ steps, u.Meets step.event)
    (unbound : ∀ b ∈ s.2.place.scope.tables, ∀ entry, entry ∉ b) (hs : VoidsExplained u s) :
    VoidsExplained u t := by
  induction h with
  | nil => exact hs
  | snoc htrace does ih =>
    -- A name that the step finds void was bound before it, so by a step of this trace.
    have hmeets := fun step hstep => meets step (List.mem_append_left _ hstep)
    refine (ih hmeets).does does fun b hb name ty hentry void => ?_
    obtain ⟨step, hstep, hbinds⟩ := trace_binds htrace unbound b hb _ hentry
    obtain ⟨f, -, hparameter⟩ := trace_binds_void htrace hmeets hstep hbinds void
    exact ⟨f.name, hparameter⟩

/-- **A function that is entered without an error binds the parameters that it writes.** -/
theorem trace_binds_params (h : (transformer (u.rules config) mode).Trace s steps t)
    (collected : Clean (ItemTable.collect u).findings) (clean : Clean (steps.flatMap emitted))
    {step : Transformer.Step Analyzer} (mem : step ∈ steps) {f : Function}
    (enters : step.event = .enterItem (.function f)) (hf : .function f ∈ u.items) :
    ∀ p ∈ f.params, Binds step p.name ((ItemTable.collect u).value.type? p.type.name) := by
  obtain ⟨before, after, rfl⟩ := List.append_of_mem mem
  obtain ⟨v, v', -, does, heq, -⟩ := h.at_step
  have hemitted : Clean (emitted step) := fun finding hfinding =>
    clean finding (List.mem_flatMap.2 ⟨step, mem, hfinding⟩)
  rw [enters] at does heq
  subst heq
  cases does with
  | enterItem hook =>
    cases hook
    rw [emitted_eq rfl] at hemitted
    exact fun p hp => .parameter rfl (Rules.enterFunction_of_clean
      (Rules.signature_of_clean hf collected) hemitted p hp)

end Analyzer

namespace VoidNames

open Analyzer

/-- **Names are void as parameters and as fields only.** At every moment of an analysis, what is in
sight was bound by a step up to then. What is bound to a type that means `void` is a parameter that
is written so, never a variable that is declared; and if there is no error, every parameter that is
written so is bound so. In the table of types, a name is void only if there is such a parameter, and
a member only if there is such a field. -/
theorem void_names (u : ShaderUnit) (config : AnalysisConfig) :
    (u.WellFormed → ∃ r, analyze u config = .ok r) ∧
    ∀ r, analyze u config = .ok r → ∃ steps, u.steps config = .ok steps ∧
      (∀ before step after, steps = before ++ step :: after →
        ∀ b ∈ step.after.place.scope.tables, ∀ entry ∈ b,
          ∃ made ∈ before ++ [step], Binds made entry.1 entry.2) ∧
      (∀ step ∈ steps, ∀ name ty, Binds step name (some ty) → ty.isVoid = true →
        ∃ f, step.event = .enterItem (.function f) ∧ u.VoidParameter f.name name) ∧
      (r.succeeded = true → ∀ function name, u.VoidParameter function name →
        ∃ step ∈ steps, ∃ f ty, step.event = .enterItem (.function f) ∧ f.name = function ∧
          Binds step name (some ty) ∧ ty.isVoid = true) ∧
      ∀ id ty e, r.types.get? id = some ty → ty.isVoid = true →
        u.arena.Behind id e ∨ r.unit.arena.Behind id e → u.MayBeVoid e.form := by
  refine ⟨fun wf => Stripping.analyze_ok wf config, fun r ended => ?_⟩
  obtain ⟨t, steps, htrace, hsteps, rfl, hentered, hmeets⟩ := analyze_items ended
  refine ⟨steps, hsteps, ?_, fun step hstep name ty hbinds void =>
    trace_binds_void htrace hmeets hstep hbinds void, ?_, ?_⟩
  · rintro before step after rfl b hb entry hentry
    obtain ⟨v, v', -, -, heq, hafter⟩ := htrace.at_step
    rw [heq] at hb
    exact trace_binds hafter (start_unbound u) b hb entry hentry
  · rintro hsucceeded function name ⟨f, hf, rfl, ty, ⟨p, hp, rfl, hmeans⟩, void⟩
    have hclean : Clean (Analysis.ofRun u t).findings := Completeness.succeeded_iff.1 hsucceeded
    rw [Analysis.ofRun, trace_findings htrace, clean_append] at hclean
    obtain ⟨step, hstep, henters⟩ := List.mem_filterMap.1 (hentered ▸ hf)
    have hevent : step.event = .enterItem (.function f) := by
      split at henters
      · rename_i item hevent
        exact hevent.trans (congrArg _ (Option.some.inj henters))
      · cases henters
    have hbinds := trace_binds_params htrace hclean.1 hclean.2 hstep hevent hf p hp
    exact ⟨step, hstep, f, ty, hevent, rfl, hmeans ▸ hbinds, void⟩
  · intro id ty e hget void hbehind
    have hexplained :=
      trace_voidsExplained htrace hmeets (start_unbound u) (start_voidsExplained u)
    refine hexplained id ty e hget void ?_
    exact hbehind.elim (trace_behind htrace).2 fun h => h

/-- A parameter and a field that are written with a synonym of `void`, both of which are read. -/
def hollow : ShaderUnit where
  items :=
    [.typedef { name := "Nothing", target := ⟨"void", .point 0 1 9⟩, span := .point 0 1 1 },
      .struct ⟨"Box", [⟨"lid", ⟨"Nothing", .point 0 2 14⟩, .point 0 2 22⟩], .point 0 2 1⟩,
      .function ⟨"f", [⟨"x", ⟨"Nothing", .point 0 3 8⟩, .point 0 3 16⟩,
        ⟨"box", ⟨"Box", .point 0 3 19⟩, .point 0 3 23⟩], ⟨"void", .point 0 3 1⟩, ⟨2⟩,
        .point 0 3 6⟩]
  arena :=
    { exprs := #[⟨.ident "x", .point 0 4 2⟩, ⟨.paren ⟨0⟩, .point 0 4 1⟩,
        ⟨.ident "box", .point 0 5 1⟩, ⟨.member ⟨2⟩ "lid", .point 0 5 1⟩]
      stmts := #[⟨.expr ⟨1⟩, .point 0 4 1⟩, ⟨.expr ⟨3⟩, .point 0 5 1⟩,
        ⟨.block [⟨0⟩, ⟨1⟩], .point 0 3 28⟩] }

/-- Nothing is wrong with it, and what is void in the table of types is that parameter and that
field. -/
theorem void_names_hollow : hollow.WellFormed ∧ ∃ r steps step ty lid,
    analyze hollow {} = .ok r ∧ hollow.steps {} = .ok steps ∧ step ∈ steps ∧
      Binds step "x" (some ty) ∧ ty.isVoid = true ∧
      r.types.get? ⟨1⟩ = some (.synonym "Nothing" .void) ∧ (∃ f, hollow.VoidParameter f "x") ∧
      r.types.get? ⟨3⟩ = some lid ∧ lid.isVoid = true ∧ hollow.VoidField "lid" := by
  have wf : hollow.WellFormed := ShaderUnit.Ascending.wellFormed ⟨by decide, by decide, by decide⟩
  have htypes : (analyze hollow {}).map (fun r => (r.succeeded, r.types.get? ⟨1⟩,
      r.types.get? ⟨3⟩)) = .ok (true, some (.synonym "Nothing" .void),
        some (.synonym "Nothing" .void)) := by decide +kernel
  obtain ⟨hok, hvoid⟩ := void_names hollow {}
  obtain ⟨r, hrun⟩ := hok wf
  obtain ⟨steps, hsteps, -, -, hbound, hexplained⟩ := hvoid r hrun
  rw [hrun] at htypes
  obtain ⟨hsucceeded, hx, hlid⟩ : r.succeeded = true ∧
      r.types.get? ⟨1⟩ = some (.synonym "Nothing" .void) ∧
      r.types.get? ⟨3⟩ = some (.synonym "Nothing" .void) := by
    simpa only [Prod.mk.injEq] using Except.ok.inj htypes
  have hparameter := (hexplained ⟨1⟩ _ ⟨.ident "x", .point 0 4 2⟩ hx rfl
    (.inl (.paren rfl rfl (.node rfl nofun)))).1 "x" rfl
  have hfield := (hexplained ⟨3⟩ _ ⟨.member ⟨2⟩ "lid", .point 0 5 1⟩ hlid rfl
    (.inl (.node rfl nofun))).2 ⟨2⟩ "lid" rfl
  obtain ⟨f, hf⟩ := hparameter
  obtain ⟨step, hstep, -, ty, -, -, hbinds, void⟩ := hbound hsucceeded f "x" hf
  exact ⟨wf, r, steps, step, ty, _, hrun, hsteps, hstep, hbinds, void, hx, ⟨f, hf⟩, hlid, rfl,
    hfield⟩

/-- A function whose one parameter is `void`, and is read. -/
def voidParameter : ShaderUnit where
  items :=
    [.function ⟨"f", [⟨"x", ⟨"void", .point 0 1 1⟩, .point 0 1 1⟩], ⟨"void", .point 0 1 1⟩, ⟨1⟩,
      .point 0 1 1⟩]
  arena :=
    { exprs := #[⟨.ident "x", .point 0 1 20⟩]
      stmts := #[⟨.expr ⟨0⟩, .point 0 1 20⟩, ⟨.block [⟨0⟩], .point 0 1 18⟩] }

/-- The analysis finds nothing wrong with it: the parameter is bound to `void`, and so is the type
of its name. -/
theorem parameter_bound_void :
    voidParameter.WellFormed ∧
    (∃ steps step, voidParameter.steps {} = .ok steps ∧ step ∈ steps ∧
      ("x", some .void) ∈ step.after.place.scope.inner) ∧
    (analyze voidParameter {}).map (fun r => (r.succeeded, r.findings, r.types.get? ⟨0⟩)) =
      .ok (true, [], some .void) := by
  have hany : (voidParameter.steps {}).map (fun steps => steps.any fun step =>
      ("x", some .void) ∈ step.after.place.scope.inner) = .ok true := by decide +kernel
  refine ⟨ShaderUnit.Ascending.wellFormed ⟨by decide, by decide, by decide⟩, ?_,
    by decide +kernel⟩
  obtain ⟨steps, hsteps, hany⟩ := of_map_ok hany
  obtain ⟨step, hstep, hentry⟩ := List.any_eq_true.1 hany
  exact ⟨steps, step, hsteps, hstep, of_decide_eq_true hentry⟩

end VoidNames
end ShaderFront
