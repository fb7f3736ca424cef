import ShaderFront.Proofs.Analysis.Levels
import ShaderFront.Proofs.Analysis.SpelledRules

/-!
# The types that an analysis records

An analysis records types in the table of items, for expressions, for the names in sight and for the
function that it is in. At the start there are those of the items only, and every step keeps it
that all types are spelled: what is entered comes from a rule, and what is declared has a name. So
recorded types can be told from each other by how they are shown.
-/

namespace ShaderFront

open Transformer

namespace Rules

open ItemTable Reported

variable {r : Rules} (all : r.items.SpellsAll)

include all in
/-- The signature that a body is checked by was collected, or it names its types. -/
theorem signature_admits (f : Function) :
    Bindings.Every r.items.Admits (r.signature f).1 ∧ r.items.Admits (r.signature f).2 := by
  unfold signature
  split
  · rename_i sig hsig
    have hmem : sig ∈ r.items.functions :=
      List.mem_of_find?_eq_some (Option.filter_eq_some_iff.1 hsig).1
    refine ⟨?_, fun ty hreturns => all ty (.result hmem hreturns)⟩
    rintro ⟨name, type⟩ hentry ty rfl
    exact all ty (.parameter hmem hentry)
  · refine ⟨fun entry hentry => ?_, fun ty => spells_of_type?⟩
    obtain ⟨p, -, rfl⟩ := List.mem_map.1 hentry
    exact fun ty => spells_of_type?

theorem declaredType_admits (r : Rules) (name : String) (written : WrittenType) :
    r.items.Admits (r.declaredType name written).value := by
  unfold declaredType
  rw [value_bind, value_resolve]
  split
  · exact admits_none
  · rename_i ty hnamed
    split
    · exact admits_none
    · exact admits_some.2 (spells_of_type? hnamed)

/-- Statements stay in their function. -/
theorem function_statement (r : Rules) (p : Place) (span : Span)
    (form : StmtForm Operand StmtId) :
    (r.statement p span form).value.function = p.function := by
  cases hopens : form.opensScope with
  | false => exact (r.statement_level p span hopens).function
  | true =>
    rw [r.statement_leaves p span hopens]
    rfl

end Rules

namespace Analyzer

/-- The types that the analysis holds at a moment: those of expressions and of the names in sight,
and that of the function. -/
inductive Holds (s : Analyzer) (ty : Ty) : Prop where
  | typed {id : ExprId} (get : s.types.get? id = some ty)
  | bound {b : Bindings} {name : String} (table : b ∈ s.place.scope.tables)
      (entry : (name, some ty) ∈ b)
  | returned {f : FunctionFrame} (function : s.place.function = some f)
      (returns : f.returns = some ty)

/-- Whatever is held at a moment is spelled. -/
structure Spelled (t : ItemTable) (s : Analyzer) : Prop where
  types : ∀ id, t.Admits (s.types.get? id)
  scope : s.place.scope.Every t.Admits
  returns : ∀ f, s.place.function = some f → t.Admits f.returns

theorem Spelled.spells {t : ItemTable} {s : Analyzer} (h : s.Spelled t) {ty : Ty}
    (held : s.Holds ty) : t.Spells ty := by
  cases held with
  | typed get => exact h.types _ ty get
  | bound table entry => exact h.scope _ table _ entry ty rfl
  | returned function returns => exact h.returns _ function ty returns

variable {rules : Rules} {mode : TransformMode} {s s' : Analyzer}

/-- Operands that are found have types that are spelled. -/
theorem Spelled.operands {t : ItemTable} (h : s.Spelled t) {a : Arena} {form : ExprForm ExprId}
    {seen : ExprForm Operand} (found : form.mapM (s.operand a) = .ok seen) :
    ∀ o ∈ seen.children, t.Admits o.type := by
  intro o ho
  obtain ⟨c, -, hc⟩ := ExprForm.of_mapM_ok found o ho
  rw [(of_operand_ok hc).1]
  exact h.types c

theorem start_spelled (u : ShaderUnit) (t : ItemTable) : (start u).Spelled t where
  types id := by
    rw [get?_start]
    exact ItemTable.admits_none
  scope b hb := by
    cases List.mem_singleton.1 hb
    exact nofun
  returns _ := nofun

/-- Moves keep it that everything is spelled. -/
theorem Moves.spelled {u : ShaderUnit} (all : rules.items.SpellsAll) (hmoves : Moves rules u s s')
    (h : s.Spelled rules.items) : s'.Spelled rules.items := by
  cases hmoves with
  | stay => exact h
  | enterFunction f =>
    obtain ⟨hparams, hreturns⟩ := Rules.signature_admits all f
    refine ⟨h.types, Rules.enterFunction_every h.scope hparams, fun frame hframe => ?_⟩
    cases hframe
    exact hreturns
  | leaveFunction => exact ⟨h.types, h.scope.leave, nofun⟩
  | declare decl =>
    refine ⟨h.types, Rules.declaration_every h.scope (rules.declaredType_admits _ _), ?_⟩
    exact (rules.declaration_level s.place decl).function ▸ h.returns
  | enterScope => exact ⟨h.types, h.scope.child, h.returns⟩
  | statement span form =>
    refine ⟨h.types, Rules.statement_every h.scope span fun decl _ =>
      rules.declaredType_admits _ _, ?_⟩
    exact rules.function_statement s.place span form ▸ h.returns

theorem Spelled.record {t : ItemTable} (h : s.Spelled t) (id : ExprId)
    {type : Reported (Option Ty)} (htype : t.Admits type.value) :
    (s.record id type).Spelled t := by
  refine ⟨fun other ty hget => ?_, h.scope, h.returns⟩
  rcases of_get?_record hget with hold | ⟨-, hnew⟩
  · exact h.types other ty hold
  · exact htype ty hnew

/-- **A step keeps it that everything is spelled.** -/
theorem does_spelled {event : Event} {s t : Arena × Analyzer} (all : rules.items.SpellsAll)
    (h : (transformer rules mode).Does event s t) (hs : s.2.Spelled rules.items) :
    t.2.Spelled rules.items := by
  cases hleft : event.left? with
  | some id =>
    obtain rfl := Event.eq_of_left? hleft
    obtain ⟨type, count, htype, heq, -⟩ := does_leaveExpr h
    obtain ⟨e, -, htype⟩ := of_bind_ok htype
    obtain ⟨form, hform, htype⟩ := of_bind_ok htype
    cases htype
    rw [heq]
    have hrecord := hs.record id (Rules.type_admits all hs.scope e.span (hs.operands hform))
    exact ⟨hrecord.types, hrecord.scope, hrecord.returns⟩
  | none =>
    obtain ⟨-, u, hmoves⟩ := does_moves h hleft
    exact hmoves.spelled all hs

theorem trace_spelled {s t : Arena × Analyzer} {steps : List (Transformer.Step Analyzer)}
    (all : rules.items.SpellsAll) (h : (transformer rules mode).Trace s steps t)
    (hs : s.2.Spelled rules.items) : t.2.Spelled rules.items := by
  induction h with
  | nil => exact hs
  | snoc _ does ih => exact does_spelled all does ih

end Analyzer

namespace ShaderUnit

/-- The types that the analysis of a unit records: those that the collected items hold, those that
are held at some moment on the way, and those of expressions at its end. The way may stop short at a
fault. -/
inductive Records (u : ShaderUnit) (config : AnalysisConfig) (ty : Ty) : Prop where
  | collected (held : (ItemTable.collect u).value.Holds ty)
  | held {steps : List (Transformer.Step Analyzer)} {t : Arena × Analyzer}
      (trace : (Analyzer.transformer (u.rules config) config.transform).Trace (u.arena, .start u)
        steps t)
      (held : t.2.Holds ty)
  | left {r : Analysis} {id : ExprId} (ended : analyze u config = .ok r)
      (get : r.types.get? id = some ty)

variable {u : ShaderUnit} {config : AnalysisConfig} {ty : Ty}

/-- The moments before and after the steps of an analysis that ends. -/
theorem Records.of_step {steps : List (Transformer.Step Analyzer)}
    {step : Transformer.Step Analyzer} {r : Analysis} (ended : analyze u config = .ok r)
    (hsteps : u.steps config = .ok steps) (mem : step ∈ steps)
    (held : step.before.Holds ty ∨ step.after.Holds ty) : u.Records config ty := by
  obtain ⟨t, steps', htrace, -, hsteps', -⟩ := analyze_steps ended
  cases hsteps.symm.trans hsteps'
  obtain ⟨before, after, rfl⟩ := List.append_of_mem mem
  obtain ⟨v, v', hbefore, -, heq, hafter⟩ := htrace.at_step
  rw [heq] at held
  rcases held with held | held
  · exact .held hbefore held
  · exact .held hafter held

theorem Records.spells (h : u.Records config ty) : (ItemTable.collect u).value.Spells ty := by
  have all : (u.rules config).items.SpellsAll := ItemTable.spellsAll_collect u
  cases h with
  | collected held => exact all ty held
  | held trace held =>
    exact (Analyzer.trace_spelled all trace (Analyzer.start_spelled u _)).spells held
  | left ended get =>
    obtain ⟨t, steps, htrace, -, -, rfl⟩ := analyze_steps ended
    exact (Analyzer.trace_spelled all htrace (Analyzer.start_spelled u _)).types _ ty get

/-- **Recorded types are closed and can be named.** Whatever type is recorded, its dimensions are in
range, so that its components can be counted in a byte, and its structs are known. The name it is
shown by means that very type; so types that are shown alike are equal. -/
theorem records_spelled (u : ShaderUnit) (config : AnalysisConfig) :
    (∀ ty, u.Records config ty → (ItemTable.collect u).value.Closed ty ∧
      ty.componentCount < UInt8.size ∧
      (ItemTable.collect u).value.type? ty.display = some ty) ∧
    ∀ ty ty', u.Records config ty → u.Records config ty' → ty.display = ty'.display →
      ty = ty' := by
  refine ⟨fun ty h => ?_, fun ty ty' h h' hdisplay => ?_⟩
  · have hclosed := (ItemTable.spellsAll_collect u).closed h.spells
    exact ⟨hclosed, Nat.lt_of_le_of_lt hclosed.componentCount_le (by decide), h.spells⟩
  · have hspells := h.spells
    rw [ItemTable.Spells, hdisplay, h'.spells] at hspells
    exact (Option.some.inj hspells).symm

/-- A struct, a synonym of it, and a function that swizzles a field of its parameter. -/
def swizzling : ShaderUnit where
  items :=
    [.struct ⟨"Light", [⟨"direction", ⟨"float3", .point 0 1 16⟩, .point 0 1 23⟩], .point 0 1 1⟩,
      .typedef { name := "Lamp", target := ⟨"Light", .point 0 2 9⟩, span := .point 0 2 1 },
      .function ⟨"f", [⟨"lamp", ⟨"Lamp", .point 0 3 10⟩, .point 0 3 15⟩], ⟨"float2", .point 0 3 1⟩,
        ⟨1⟩, .point 0 3 8⟩]
  arena :=
    { exprs := #[⟨.ident "lamp", .point 0 4 8⟩, ⟨.member ⟨0⟩ "direction", .point 0 4 8⟩,
        ⟨.member ⟨1⟩ "yx", .point 0 4 8⟩]
      stmts := #[⟨.returns (some ⟨2⟩), .point 0 4 1⟩, ⟨.block [⟨0⟩], .point 0 3 21⟩] }

/-- What the parameter is said to have is what it has where it is used. -/
theorem records_spelled_swizzling : ∃ r lamp, analyze swizzling {} = .ok r ∧
    r.types.get? ⟨0⟩ = some lamp ∧ lamp = .synonym "Lamp" (.struct "Light") ∧
    (ItemTable.collect swizzling).value.type? "float2" = some (.vector .float 2) ∧
    (ItemTable.collect swizzling).value.Closed (.vector .float 2) := by
  have htypes : (analyze swizzling {}).map (fun r => (r.types.get? ⟨0⟩).map Ty.display) =
      .ok (some "Lamp") ∧ (analyze swizzling {}).map (fun r => r.types.get? ⟨2⟩) =
      .ok (some (.vector .float 2)) := by decide +kernel
  obtain ⟨r, hrun, hlamp⟩ := of_map_ok htypes.1
  obtain ⟨lamp, hget, hdisplay⟩ := Option.map_eq_some_iff.1 hlamp
  obtain ⟨r', hrun', hswizzle⟩ := of_map_ok htypes.2
  cases hrun.symm.trans hrun'
  obtain ⟨hspelled, halike⟩ := records_spelled swizzling {}
  have hsignature : ⟨"f", [("lamp", some (.synonym "Lamp" (.struct "Light")))],
      some (.vector .float 2), .point 0 3 8⟩ ∈ (ItemTable.collect swizzling).value.functions := by
    decide +kernel
  have hparameter : swizzling.Records {} (.synonym "Lamp" (.struct "Light")) :=
    .collected (.parameter hsignature List.mem_cons_self)
  obtain ⟨hclosed, -, htype⟩ := hspelled _ (.left hrun hswizzle)
  refine ⟨r, lamp, hrun, hget, halike _ _ (.left hrun hget) hparameter hdisplay, htype, hclosed⟩

end ShaderUnit
end ShaderFront
