import ShaderFront.Analysis.Checking

/-!
# What names are bound to

A predicate may hold of whatever the names in sight are bound to. Entering and leaving scopes keep
it, and so does a declaration if the predicate holds of what is declared.
-/

namespace ShaderFront

/-- Every name is bound to something that satisfies the predicate. -/
def Bindings.Every (P : Option Ty → Prop) (b : Bindings) : Prop := ∀ entry ∈ b, P entry.2

/-- Every name in sight is bound to something that satisfies the predicate. -/
def Scope.Every (P : Option Ty → Prop) (s : Scope) : Prop := ∀ b ∈ s.inner :: s.outer, b.Every P

variable {P : Option Ty → Prop}

theorem Bindings.Every.find {b : Bindings} (h : b.Every P) {name : String} {type : Option Ty}
    (get : b.lookup name = some type) : P type := by
  obtain ⟨before, after, rfl, -⟩ := List.lookup_eq_some_iff.1 get
  exact h (name, type) (List.mem_append_right _ List.mem_cons_self)

namespace Scope.Every

variable {s : Scope}

theorem lookup (h : s.Every P) {name : String} {type : Option Ty}
    (get : s.lookup? name = some type) : P type := by
  obtain ⟨b, hb, hfind⟩ := List.exists_of_findSome?_eq_some get
  exact (h b hb).find hfind

theorem child (h : s.Every P) : s.child.Every P := by
  intro b hb
  rcases List.mem_cons.1 hb with rfl | hmem
  · exact nofun
  · exact h b hmem

theorem leave (h : s.Every P) : s.leave.Every P := by
  obtain ⟨inner, outer⟩ := s
  cases outer with
  | nil => exact h
  | cons b rest => exact fun b' hb' => h b' (List.mem_cons_of_mem _ hb')

theorem bind (h : s.Every P) {name : String} {type : Option Ty} (htype : P type) {t : Scope}
    (hbind : s.bind? name type = some t) : t.Every P := by
  rw [eq_of_bind? hbind]
  intro b hb entry hentry
  rcases List.mem_cons.1 hb with rfl | hmem
  · rcases List.mem_cons.1 hentry with rfl | hold
    · exact htype
    · exact h _ List.mem_cons_self entry hold
  · exact h b (List.mem_cons_of_mem _ hmem) entry hentry

end Scope.Every

namespace Place

variable {p : Place}

theorem declare_every (h : p.scope.Every P) (name : String) {type : Option Ty} (htype : P type)
    (span : Span) : (p.declare name type span).value.scope.Every P := by
  unfold declare
  split
  · exact h
  · split
    · rename_i scope hbind
      exact h.bind htype hbind
    · exact h

theorem declareAll_every (h : p.scope.Every P) {entries : List (String × Option Ty × Span)}
    (hentries : ∀ e ∈ entries, P e.2.1) : (p.declareAll entries).value.scope.Every P := by
  induction entries generalizing p with
  | nil => exact h
  | cons entry rest ih =>
    obtain ⟨name, type, span⟩ := entry
    have htype : P type := hentries _ List.mem_cons_self
    exact ih (declare_every h name htype span) fun e he => hentries e (List.mem_cons_of_mem _ he)

end Place

namespace Rules

variable {r : Rules} {p : Place}

theorem declaration_every (h : p.scope.Every P) {decl : VarDecl Operand}
    (htype : P (r.declaredType decl.name decl.type).value) :
    (r.declaration p decl).value.scope.Every P := by
  unfold declaration
  rw [Reported.value_bind]
  dsimp only
  split
  · exact Place.declare_every h decl.name htype decl.span
  · exact Place.declare_every h decl.name htype decl.span

/-- What statements do to the names in sight, declarations apart. -/
theorem statement_every (h : p.scope.Every P) (span : Span) {form : StmtForm Operand StmtId}
    (htype : ∀ decl, form = .declare decl → P (r.declaredType decl.name decl.type).value) :
    (r.statement p span form).value.scope.Every P := by
  cases form with
  | declare decl => exact declaration_every h (htype decl rfl)
  | block body => exact h.leave
  | forLoop init c step body =>
    cases c with
    | none => exact h.leave
    | some c => exact h.leave
  | ifElse | whileLoop | returns => exact h
  | expr | discard | breakLoop | continueLoop | empty => exact h

theorem enterFunction_every (h : p.scope.Every P) {f : Function}
    (hparams : Bindings.Every P (r.signature f).1) :
    (r.enterFunction p f).value.scope.Every P := by
  refine Place.declareAll_every (p := p.enterScope) h.child fun entry hentry => ?_
  obtain ⟨⟨⟨name, type⟩, param⟩, hzip, rfl⟩ := List.mem_map.1 hentry
  exact hparams (name, type) (List.of_mem_zip hzip).1

end Rules
end ShaderFront
