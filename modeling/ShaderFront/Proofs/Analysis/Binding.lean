import ShaderFront.Proofs.Analysis.Explained
import ShaderFront.Proofs.Analysis.Levels

/-!
# How names come to be bound

A name gets into a scope in one of two ways: a function that is entered binds its parameters in a
scope of its own, and a declaration binds one name in the scope where it stands. Every other step
keeps the names in sight, opens an empty scope, or closes one. So every binding that is ever in
sight goes back to the step that made it.
-/

namespace ShaderFront

open Transformer Reported

namespace Scope

theorem tables_leave_subset (s : Scope) : ∀ b ∈ s.leave.tables, b ∈ s.tables := by
  obtain ⟨inner, outer⟩ := s
  cases outer with
  | nil => exact fun b hb => hb
  | cons b rest => exact fun b' hb' => List.mem_cons_of_mem _ hb'

end Scope

namespace Place

/-- A declaration binds its name, or it leaves the scope as it is. -/
theorem declare_scope (p : Place) (name : String) (type : Option Ty) (span : Span) :
    (p.declare name type span).value.scope = p.scope ∨
      p.scope.bind? name type = some (p.declare name type span).value.scope := by
  unfold declare
  split
  · exact .inl rfl
  · split
    · rename_i scope hbind
      exact .inr hbind
    · exact .inl rfl

/-- Only what is declared is added to a scope. -/
theorem mem_declareAll {p : Place} {entries : List (String × Option Ty × Span)}
    {entry : String × Option Ty} (h : entry ∈ (p.declareAll entries).value.scope.inner) :
    entry ∈ p.scope.inner ∨ ∃ e ∈ entries, (e.1, e.2.1) = entry := by
  induction entries generalizing p with
  | nil => exact .inl h
  | cons first rest ih =>
    obtain ⟨name, type, span⟩ := first
    rcases ih h with hmem | ⟨e, he, heq⟩
    · rcases p.declare_scope name type span with hsame | hbound
      · exact .inl (hsame ▸ hmem)
      · rw [Scope.eq_of_bind? hbound] at hmem
        rcases List.mem_cons.1 hmem with rfl | hold
        · exact .inr ⟨_, List.mem_cons_self, rfl⟩
        · exact .inl hold
    · exact .inr ⟨e, List.mem_cons_of_mem _ he, heq⟩

/-- A declaration that reports nothing binds its name. -/
theorem declare_of_clean {p : Place} {name : String} {type : Option Ty} {span : Span}
    (clean : Clean (p.declare name type span).findings) :
    (p.declare name type span).value.scope.inner = (name, type) :: p.scope.inner := by
  unfold declare at clean ⊢
  split at clean
  · rw [findings_bind, clean_append] at clean
    exact absurd clean.1 (not_clean_find rfl span)
  · rename_i hfree
    rw [if_neg hfree]
    split at clean
    · rename_i scope hbind
      rw [Scope.eq_of_bind? hbind]
      rfl
    · rw [findings_bind, clean_append] at clean
      exact absurd clean.1 (not_clean_find rfl span)

/-- Declarations that report nothing bind all of their names, and what was bound stays. -/
theorem declareAll_of_clean {p : Place} {entries : List (String × Option Ty × Span)}
    (clean : Clean (p.declareAll entries).findings) :
    (∀ entry ∈ p.scope.inner, entry ∈ (p.declareAll entries).value.scope.inner) ∧
      ∀ e ∈ entries, (e.1, e.2.1) ∈ (p.declareAll entries).value.scope.inner := by
  induction entries generalizing p with
  | nil => exact ⟨fun entry hentry => hentry, nofun⟩
  | cons first rest ih =>
    obtain ⟨name, type, span⟩ := first
    rw [declareAll, findings_bind, clean_append] at clean
    obtain ⟨hold, hnew⟩ := ih clean.2
    rw [declare_of_clean clean.1] at hold
    refine ⟨fun entry hentry => hold entry (List.mem_cons_of_mem _ hentry), fun e he => ?_⟩
    rcases List.mem_cons.1 he with rfl | hmem
    · exact hold _ List.mem_cons_self
    · exact hnew e hmem

end Place

namespace Rules

variable (r : Rules) (p : Place)

theorem declaration_scope (decl : VarDecl Operand) :
    (r.declaration p decl).value.scope = p.scope ∨
      p.scope.bind? decl.name (r.declaredType decl.name decl.type).value =
        some (r.declaration p decl).value.scope := by
  unfold declaration
  rw [value_bind]
  dsimp only
  split
  · exact p.declare_scope ..
  · exact p.declare_scope ..

/-- A function that is entered binds what its signature says. -/
theorem mem_enterFunction {r : Rules} {p : Place} {f : Function} {entry : String × Option Ty}
    (h : entry ∈ (r.enterFunction p f).value.scope.inner) : entry ∈ (r.signature f).1 := by
  rcases Place.mem_declareAll (p := p.enterScope) h with hmem | ⟨e, he, rfl⟩
  · cases hmem
  · obtain ⟨⟨⟨name, type⟩, param⟩, hzip, rfl⟩ := List.mem_map.1 he
    exact (List.of_mem_zip hzip).1

end Rules

/-! ## Steps -/

namespace Analyzer

/-- How a step goes from the scope of a place to the next one. -/
inductive Rescopes (rules : Rules) (event : Event) (p : Place) : Scope → Prop where
  | stays : Rescopes rules event p p.scope
  | opens : Rescopes rules event p p.scope.child
  | closes : Rescopes rules event p p.scope.leave
  | declares {decl : VarDecl Operand} {after : Scope}
      (bound : p.scope.bind? decl.name (rules.declaredType decl.name decl.type).value =
        some after) : Rescopes rules event p after
  | enters {f : Function} (entered : event = .enterItem (.function f)) :
      Rescopes rules event p (rules.enterFunction p f).value.scope

variable {rules : Rules} {mode : TransformMode} {event : Event} {s t : Arena × Analyzer}

theorem Rescopes.declaration (rules : Rules) (event : Event) (p : Place)
    (decl : VarDecl Operand) : Rescopes rules event p (rules.declaration p decl).value.scope := by
  rcases rules.declaration_scope p decl with hsame | hbound
  · exact hsame ▸ .stays
  · exact .declares hbound

theorem Rescopes.statement (rules : Rules) (event : Event) (p : Place) (span : Span)
    (form : StmtForm Operand StmtId) :
    Rescopes rules event p (rules.statement p span form).value.scope := by
  cases form with
  | declare decl => exact .declaration rules event p decl
  | block => exact .closes
  | forLoop init c step body =>
    cases c with
    | none => exact .closes
    | some c => exact .closes
  | ifElse | whileLoop | returns => exact .stays
  | expr | discard | breakLoop | continueLoop | empty => exact .stays

/-- **What a step does to the names in sight.** -/
theorem does_rescopes (h : (transformer rules mode).Does event s t) :
    Rescopes rules event s.2.place t.2.place.scope := by
  cases h with
  | @enterItem item a s _ hook =>
    cases hook
    cases item with
    | function f => exact .enters rfl
    | global | struct | typedef => exact .stays
  | @leaveItem item a s _ hook =>
    cases item with
    | function f =>
      cases hook
      exact .closes
    | global decl =>
      obtain ⟨d, -, hook⟩ := of_bind_ok hook
      cases hook
      exact .declaration rules _ s.place d
    | struct | typedef =>
      cases hook
      exact .stays
  | @enterStmt id a s _ hook =>
    obtain ⟨stmt, -, hook⟩ := of_bind_ok hook
    cases hook
    split
    · exact .opens
    · exact .stays
  | @leaveStmt id a s out _ hook =>
    obtain ⟨stmt, -, hook⟩ := of_bind_ok hook
    obtain ⟨form, -, hook⟩ := of_bind_ok hook
    cases hook
    exact .statement rules _ s.place stmt.span form
  | @leaveExpr id a s out _ hook =>
    obtain ⟨type, count, -, rfl⟩ := leaveExpr_typing hook
    exact .stays

/-- A step binds a name: a function that is entered binds its parameters, and a variable that is
declared is added to the scope where it stands. -/
inductive Binds (step : Transformer.Step Analyzer) (name : String) (type : Option Ty) : Prop where
  | parameter {f : Function} (event : step.event = .enterItem (.function f))
      (entry : (name, type) ∈ step.after.place.scope.inner)
  | declared (bound : step.before.place.scope.bind? name type = some step.after.place.scope)

/-- **What is in sight after a step** was in sight before it, or the step binds it. -/
theorem does_binds (h : (transformer rules mode).Does event s t) :
    ∀ b ∈ t.2.place.scope.tables, ∀ entry ∈ b, (∃ b' ∈ s.2.place.scope.tables, entry ∈ b') ∨
      Binds ⟨event, s.1, s.2, t.2⟩ entry.1 entry.2 := by
  intro b hb entry hentry
  have hrescopes := does_rescopes h
  generalize hafter : t.2.place.scope = after at hrescopes hb
  cases hrescopes with
  | stays => exact .inl ⟨b, hb, hentry⟩
  | opens =>
    rcases List.mem_cons.1 hb with rfl | hmem
    · cases hentry
    · exact .inl ⟨b, hmem, hentry⟩
  | closes => exact .inl ⟨b, Scope.tables_leave_subset _ b hb, hentry⟩
  | declares bound =>
    have heq := Scope.eq_of_bind? bound
    rw [heq] at hb
    rcases List.mem_cons.1 hb with rfl | hmem
    · rcases List.mem_cons.1 hentry with rfl | hold
      · exact .inr (.declared (bound.trans (congrArg some hafter.symm)))
      · exact .inl ⟨_, List.mem_cons_self, hold⟩
    · exact .inl ⟨b, List.mem_cons_of_mem _ hmem, hentry⟩
  | @enters f entered =>
    rcases List.mem_cons.1 hb with rfl | hmem
    · exact .inr (.parameter entered (hafter ▸ hentry))
    · rw [rules.enterFunction_outer] at hmem
      exact .inl ⟨b, hmem, hentry⟩

/-- At the start nothing is in sight. -/
theorem start_unbound (u : ShaderUnit) :
    ∀ b ∈ (start u).place.scope.tables, ∀ entry, entry ∉ b := by
  intro b hb
  cases List.mem_singleton.1 hb
  exact nofun

/-- **Every binding was made by a step**, if there was none at the start. -/
theorem trace_binds {steps : List (Transformer.Step Analyzer)}
    (h : (transformer rules mode).Trace s steps t)
    (start : ∀ b ∈ s.2.place.scope.tables, ∀ entry, entry ∉ b) :
    ∀ b ∈ t.2.place.scope.tables, ∀ entry ∈ b, ∃ step ∈ steps, Binds step entry.1 entry.2 := by
  induction h with
  | nil => exact fun b hb entry hentry => absurd hentry (start b hb entry)
  | snoc _ does ih =>
    intro b hb entry hentry
    rcases does_binds does b hb entry hentry with ⟨b', hb', hold⟩ | hbinds
    · obtain ⟨step, hstep, hmade⟩ := ih b' hb' entry hold
      exact ⟨step, List.mem_append_left _ hstep, hmade⟩
    · exact ⟨_, List.mem_append_right _ List.mem_cons_self, hbinds⟩

/-- Only a declaration adds one name to the innermost table. -/
theorem Rescopes.of_bind? {p : Place} {name : String} {type : Option Ty} {after : Scope}
    (h : Rescopes rules event p after) (bound : p.scope.bind? name type = some after) :
    ∃ decl : VarDecl Operand, name = decl.name ∧
      type = (rules.declaredType decl.name decl.type).value := by
  have hafter := Scope.eq_of_bind? bound
  cases h with
  | @declares decl _ bound' =>
    have hentry := congrArg Scope.inner (hafter.symm.trans (Scope.eq_of_bind? bound'))
    obtain ⟨hname, htype⟩ := Prod.mk.inj (List.cons.inj hentry).1
    exact ⟨decl, hname, htype⟩
  | stays => exact absurd (congrArg Scope.inner hafter).symm (List.cons_ne_self _ _)
  | opens => exact absurd (congrArg Scope.inner hafter).symm (List.cons_ne_nil _ _)
  | closes =>
    obtain ⟨⟨inner, outer⟩, function⟩ := p
    cases outer with
    | nil => exact absurd (congrArg Scope.inner hafter).symm (List.cons_ne_self _ _)
    | cons b rest => exact absurd (congrArg Scope.outer hafter).symm (List.cons_ne_self _ _)
  | @enters f =>
    have houter := congrArg Scope.outer hafter
    rw [rules.enterFunction_outer] at houter
    exact absurd houter (List.cons_ne_self _ _)

/-- **A variable is bound by its declaration**, to the type it is declared with. -/
theorem type_of_variable (h : (transformer rules mode).Does event s t) {name : String}
    {type : Option Ty} (bound : s.2.place.scope.bind? name type = some t.2.place.scope) :
    ∃ decl : VarDecl Operand, name = decl.name ∧
      type = (rules.declaredType decl.name decl.type).value := (does_rescopes h).of_bind? bound

end Analyzer
end ShaderFront
