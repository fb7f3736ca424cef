import ShaderFront.Proofs.Analysis.Lexical
import ShaderFront.Proofs.Analysis.Redeclaring
import ShaderFront.Proofs.Analysis.Signatures

/-!
# What is in sight of the analysis

The scopes of the analysis against those of a lexical resolution. The analysis keeps its tables in
one place that moves along; it knows the outermost scope of a body by its depth, and the parameters
by what is bound in the table around it. As long as each table binds what the scope lists, names
refer to the same. As long as nothing but parameters is declared in their scope, a name is taken for
the one if and only if it is taken for the other.
-/

namespace ShaderFront

open Lexical Reported

namespace Lexical

/-- What is reported of a declaration whose name was taken. -/
def Declared.finding (d : Declared) : Finding := ⟨.redeclared d.name, d.span⟩

/-- The kinds of the scopes around a place, given the function it is in. -/
inductive Surroundings : Option FunctionFrame → List ScopeKind → Prop where
  | globals : Surroundings none [.globals]
  | parameters (names : List String) : Surroundings none [.parameters names, .globals]
  | body {f : FunctionFrame} (n : Nat) (names : List String) (depth : f.bodyDepth = 2) :
      Surroundings (some f) (List.replicate n .statement ++ [.parameters names, .globals])

namespace Scope

/-- If the scope is that of parameters, then it has the parameters and nothing else. -/
def Settled (scope : Scope) : Prop :=
  ∀ names, scope.kind = .parameters names → ∀ name, (scope.find? name).isSome = names.contains name

/-- A scope that is not that of parameters is settled. -/
theorem settled_of_kind {scope : Scope} (h : ∀ names, scope.kind ≠ .parameters names) :
    scope.Settled :=
  fun names kind => absurd kind (h names)

/-- In its place the scope of the parameters hides what it declares. -/
theorem Settled.hides {scope : Scope} (h : scope.Settled) {names : List String}
    (kind : scope.kind = .parameters names) (name : String) :
    scope.kind.hides name = (scope.find? name).isSome := by
  rw [kind, h names kind, ScopeKind.hides]

/-- What is declared when one more name is. -/
theorem isSome_find?_append (scope : Scope) (d : Declared) (name : String) :
    (Scope.find? { scope with declared := scope.declared ++ [d] } name).isSome =
      ((scope.find? name).isSome || d.name == name) := by
  rw [find?, find?, List.find?_append, List.find?_singleton, Option.isSome_or]
  cases d.name == name <;> rfl

end Scope

namespace Sight

/-- The innermost scope belongs to a statement. -/
def Local (sight : Sight) : Prop := (sight.map (·.kind)).head? = some .statement

@[simp] theorem kinds_add (d : Declared) (sight : Sight) :
    (sight.add d).map (·.kind) = sight.map (·.kind) := by
  cases sight <;> rfl

end Sight

@[simp] theorem Moment.kinds_declare (s : Moment) (d : Declared) :
    (s.declare d).1.map (·.kind) = s.1.map (·.kind) := by
  unfold Moment.declare
  split
  · rfl
  · exact Sight.kinds_add d s.1

/-- A declaration is rejected just if its name is taken. -/
theorem Moment.rejected_declare (s : Moment) (d : Declared) :
    (s.declare d).2.rejected = s.2.rejected ++ if s.1.taken d.name then [d] else [] := by
  unfold Moment.declare
  split <;> simp

theorem Moment.uses_declare (s : Moment) (d : Declared) :
    (s.declare d).2.uses = s.2.uses := by
  unfold Moment.declare
  split <;> rfl

/-- Where nothing is hidden, each of some names is declared, if it was not before. -/
theorem Moment.declareAll_open (scope : Scope) {around : Sight}
    (shown : ∀ name, (around.head?.any (·.kind.hides name)) = false) (found : Resolution)
    (ds : List Declared) :
    ∃ scope', (ds.foldl Moment.declare (scope :: around, found)).1 = scope' :: around ∧
      scope'.kind = scope.kind ∧ ∀ name, (scope'.find? name).isSome =
        ((scope.find? name).isSome || (ds.map (·.name)).contains name) := by
  induction ds generalizing scope found with
  | nil => exact ⟨scope, rfl, rfl, fun name => (Bool.or_false _).symm⟩
  | cons d rest ih =>
    have htaken : Sight.taken (scope :: around) d.name = (scope.find? d.name).isSome := by
      rw [Sight.taken, shown, Bool.or_false]
    rw [List.foldl_cons, Moment.declare, htaken]
    cases hfree : (scope.find? d.name).isSome with
    | true =>
      obtain ⟨scope', hsight, hkind, hfind⟩ :=
        ih scope { found with rejected := found.rejected ++ [d] }
      refine ⟨scope', hsight, hkind, fun name => ?_⟩
      rw [hfind, List.map_cons, List.contains_cons]
      by_cases hname : name = d.name
      · rw [hname, hfree, Bool.true_or, Bool.true_or]
      · rw [beq_false_of_ne hname, Bool.false_or]
    | false =>
      obtain ⟨scope', hsight, hkind, hfind⟩ :=
        ih { scope with declared := scope.declared ++ [d] } found
      refine ⟨scope', hsight, hkind, fun name => ?_⟩
      rw [hfind, Scope.isSome_find?_append, List.map_cons, List.contains_cons, Bool.or_assoc,
        Bool.beq_comm]

/-- **Their scope has the parameters and nothing else** when they have been declared. -/
theorem Moment.settled_parameters {sight : Sight} (globals : sight.map (·.kind) = [.globals])
    (found : Resolution) (ds : List Declared) :
    ∀ scope ∈ (ds.foldl Moment.declare
      (sight.inside (.parameters (ds.map (·.name))), found)).1, scope.Settled := by
  obtain ⟨outer, around, rfl, houter, haround⟩ := List.map_eq_cons_iff.1 globals
  cases List.map_eq_nil_iff.1 haround
  have shown : ∀ name, ([outer].head?.any (·.kind.hides name)) = false := by
    intro name
    simp [houter, ScopeKind.hides]
  obtain ⟨scope, hsight, hkind, hfind⟩ := Moment.declareAll_open
    ⟨.parameters (ds.map (·.name)), []⟩ shown found ds
  intro scope' hmem
  rw [Sight.inside, hsight] at hmem
  rcases List.mem_cons.1 hmem with rfl | hmem
  · intro names hnames name
    cases hkind.symm.trans hnames
    exact hfind name
  · cases List.mem_singleton.1 hmem
    exact Scope.settled_of_kind fun names h => by cases houter.symm.trans h

section Kinds

variable {a : Arena} (sigs : Signatures)

/-- The children of a statement leave the scopes open that were. -/
theorem resolveChildren_kinds {walk : StmtId → Moment → Except Fault Moment}
    (kept : ∀ id s t, walk id s = .ok t → t.1.map (·.kind) = s.1.map (·.kind))
    {l : List (ExprId ⊕ StmtId)} {s t : Moment} (h : l.foldlM (resolveChild a walk) s = .ok t) :
    t.1.map (·.kind) = s.1.map (·.kind) := by
  induction l generalizing s with
  | nil =>
    cases h
    rfl
  | cons child rest ih =>
    rw [List.foldlM_cons] at h
    obtain ⟨v, hfirst, hrest⟩ := of_bind_ok h
    refine (ih hrest).trans ?_
    cases child with
    | inl e =>
      obtain ⟨tree, -, hfirst⟩ := of_bind_ok hfirst
      cases hfirst
      rfl
    | inr id => exact kept id s v hfirst

/-- A statement closes each scope that it opens. -/
theorem resolveStmt_kinds (depth : Nat) (id : StmtId) (s t : Moment)
    (h : resolveStmt a sigs depth id s = .ok t) : t.1.map (·.kind) = s.1.map (·.kind) := by
  induction depth generalizing id s t with
  | zero => cases h
  | succ depth ih =>
    obtain ⟨stmt, -, h⟩ := of_bind_ok h
    obtain ⟨v, hchildren, h⟩ := of_bind_ok h
    cases h
    cases hopens : stmt.form.opensScope with
    | true => rw [pastStmt_scope sigs hopens]
    | false =>
      rw [hopens] at hchildren
      have hkinds := resolveChildren_kinds ih hchildren
      by_cases hdecl : ∃ decl, stmt.form = .declare decl
      · obtain ⟨decl, hform⟩ := hdecl
        rw [hform]
        exact (Moment.kinds_declare v _).trans hkinds
      · rw [pastStmt_other sigs hopens fun decl heq => hdecl ⟨decl, heq⟩]
        exact hkinds

end Kinds

end Lexical

/-- The table binds what the scope lists. -/
def Bindings.Lists (b : Bindings) (scope : Lexical.Scope) : Prop :=
  ∀ name, b.find? name = (scope.find? name).map (·.type)

/-- A table binds the names that are declared in the scope. -/
theorem Bindings.Lists.has {b : Bindings} {scope : Lexical.Scope} (h : b.Lists scope)
    (name : String) : b.has name = (scope.find? name).isSome := by
  rw [Bindings.has, h name, Option.isSome_map]

/-- A name that is not listed is declared. -/
theorem Bindings.Lists.add {b : Bindings} {scope : Lexical.Scope} (h : b.Lists scope)
    {d : Declared} (free : (scope.find? d.name).isSome = false) :
    Bindings.Lists ((d.name, d.type) :: b) { scope with declared := scope.declared ++ [d] } := by
  intro name
  rw [Option.isSome_eq_false_iff, Option.isNone_iff_eq_none] at free
  rw [Bindings.find?, List.lookup_cons, Lexical.Scope.find?, List.find?_append,
    List.find?_singleton]
  by_cases hname : name = d.name
  · subst hname
    rw [Lexical.Scope.find?] at free
    simp [free]
  · have hne : (name == d.name) = false := beq_false_of_ne hname
    have hne' : (d.name == name) = false := beq_false_of_ne (Ne.symm hname)
    rw [hne, hne']
    simpa [Lexical.Scope.find?, Bindings.find?] using h name

namespace Place

/-- The tables of the place bind what the scopes list, the scopes are of the kinds that belong to
the place, and around the innermost one the parameters have a scope for themselves. -/
structure Sees (p : Place) (sight : Sight) : Prop where
  tables : List.Forall₂ Bindings.Lists p.scope.tables sight
  frame : Surroundings p.function (sight.map (·.kind))
  settled : ∀ scope ∈ sight.tail, scope.Settled

namespace Sees

variable {p : Place} {sight : Sight}

/-- **A name is bound to the type of what it refers to.** -/
theorem lookup? (h : p.Sees sight) (name : String) :
    p.scope.lookup? name = (sight.resolve name).map (·.type) := by
  have htables (tables : List Bindings) (sight : Sight)
      (h : List.Forall₂ Bindings.Lists tables sight) :
      tables.findSome? (·.find? name) = (sight.resolve name).map (·.type) := by
    induction h with
    | nil => rfl
    | @cons b scope _ around hlists _ ih =>
      rw [Sight.resolve, List.findSome?_cons, List.findSome?_cons, hlists name]
      cases scope.find? name with
      | none => exact ih
      | some d => rfl
  exact htables _ _ h.tables

/-- In the outermost scope of a body, the scope around is that of the parameters. -/
theorem hidesParameter (h : p.Sees sight) (name : String) :
    p.hidesParameter name = sight.tail.head?.any (·.kind.hides name) := by
  obtain ⟨⟨inner, outer⟩, function⟩ := p
  obtain ⟨htables, hframe, hsettled⟩ := h
  have hlength : outer.length + 1 = sight.length := htables.length_eq
  unfold Place.hidesParameter
  generalize hkinds : sight.map (·.kind) = kinds at hframe
  have hcount : sight.length = kinds.length := by rw [← hkinds, List.length_map]
  cases hframe with
  | globals =>
    obtain ⟨scope, rfl⟩ := List.length_eq_one_iff.1 hcount
    rfl
  | parameters names =>
    obtain ⟨scope, globals, rfl⟩ := List.length_eq_two.1 hcount
    have hkind : globals.kind = .globals := (List.cons.inj (List.cons.inj hkinds).2).1
    simp [hkind, ScopeKind.hides]
  | @body f n names hdepth =>
    match n with
    | 0 =>
      obtain ⟨params, globals, rfl⟩ := List.length_eq_two.1 hcount
      have hkind : globals.kind = .globals := (List.cons.inj (List.cons.inj hkinds).2).1
      have houter : outer.length = 1 := Nat.succ.inj hlength
      simp [hkind, ScopeKind.hides, hdepth, ShaderFront.Scope.depth, houter]
    | 1 =>
      obtain ⟨local', params, globals, rfl⟩ := List.length_eq_three.1 hcount
      have hkind : params.kind = .parameters names := (List.cons.inj (List.cons.inj hkinds).2).1
      have hhides := (hsettled params List.mem_cons_self).hides hkind name
      have houter : outer.length = 2 := Nat.succ.inj hlength
      cases htables with
      | cons _ htables =>
        cases htables with
        | @cons b _ rest _ hlists _ =>
          simp [hhides, hdepth, ShaderFront.Scope.depth, houter, ShaderFront.Scope.parent?,
            ShaderFront.Scope.hasLocal, hlists.has]
    | n + 2 =>
      have houter : (2 == outer.length) = false := by
        simp only [List.length_append, List.length_replicate, List.length_cons] at hcount
        exact beq_false_of_ne (by omega)
      obtain ⟨scope, around, rfl, -, hkinds⟩ := List.map_eq_cons_iff.1 hkinds
      obtain ⟨next, rest, rfl, hkind, -⟩ := List.map_eq_cons_iff.1 hkinds
      simp [hkind, ScopeKind.hides, hdepth, ShaderFront.Scope.depth, houter]

/-- **A name is taken for the analysis if it is taken for the resolution.** It is reported then, and
declared otherwise. -/
theorem declare (h : p.Sees sight) (found : Resolution) (d : Declared) :
    (p.declare d.name d.type d.span).value.Sees (Moment.declare (sight, found) d).1 ∧
      (p.declare d.name d.type d.span).findings =
        (if sight.taken d.name then [d] else []).map Declared.finding := by
  have hhides := h.hidesParameter d.name
  obtain ⟨htables, hframe, hsettled⟩ := h
  cases sight with
  | nil => cases htables
  | cons scope around =>
    cases htables with
    | @cons inner _ outer _ hlists htables =>
    rw [List.tail_cons] at hhides
    have htaken : Sight.taken (scope :: around) d.name =
        (p.scope.inner.has d.name || p.hidesParameter d.name) := by
      rw [hhides, Sight.taken, hlists.has]
    unfold Place.declare Scope.bind? Scope.hasLocal Moment.declare
    rw [htaken]
    cases hhidden : p.hidesParameter d.name with
    | true =>
      simpa [Declared.finding, Reported.find] using ⟨.cons hlists htables, hframe, hsettled⟩
    | false =>
      cases hhas : p.scope.inner.has d.name with
      | true =>
        simpa [Declared.finding, Reported.find] using ⟨.cons hlists htables, hframe, hsettled⟩
      | false =>
        have hfree : (scope.find? d.name).isSome = false := by rw [← hlists.has, hhas]
        exact ⟨⟨.cons (hlists.add hfree) htables, hframe, hsettled⟩, rfl⟩

/-- Names that are declared one after the other. -/
theorem declareAll (h : p.Sees sight) (found : Resolution) (ds : List Declared) :
    let y := ds.foldl Moment.declare (sight, found)
    let q := p.declareAll (ds.map fun d => (d.name, d.type, d.span))
    q.value.Sees y.1 ∧ y.1.map (·.kind) = sight.map (·.kind) ∧ ∃ rejected,
      y.2 = { found with rejected := found.rejected ++ rejected } ∧
        q.findings = rejected.map Declared.finding := by
  induction ds generalizing p sight found with
  | nil => exact ⟨h, rfl, [], by simp, rfl⟩
  | cons d rest ih =>
    obtain ⟨hsees, hfindings⟩ := h.declare found d
    obtain ⟨hsees', hkinds, rejected, hfound, hfindings'⟩ :=
      ih hsees (Moment.declare (sight, found) d).2
    refine ⟨hsees', hkinds.trans (Moment.kinds_declare _ d),
      (if sight.taken d.name then [d] else []) ++ rejected, hfound.trans ?_, ?_⟩
    · rw [Moment.rejected_declare, Moment.uses_declare, List.append_assoc]
    · rw [List.map_append, ← hfindings, ← hfindings']
      rfl

/-- A scope that is opened has nothing in it, for the analysis and for the resolution. -/
theorem enterScope (h : p.Sees sight) {kind : ScopeKind}
    (frame : Surroundings p.function (kind :: sight.map (·.kind)))
    (settled : ∀ scope ∈ sight, scope.Settled) : p.enterScope.Sees (sight.inside kind) :=
  ⟨.cons (fun _ => rfl) h.tables, frame, settled⟩

/-- In a scope of a statement the parameters have a scope for themselves. -/
theorem settled_of_local (h : p.Sees sight) (hlocal : sight.Local) :
    ∀ scope ∈ sight, scope.Settled := by
  intro scope hmem
  cases sight with
  | nil => cases hmem
  | cons inner around =>
    rcases List.mem_cons.1 hmem with rfl | hmem
    · have hkind : scope.kind = .statement := Option.some.inj hlocal
      exact Scope.settled_of_kind fun names heq => by cases hkind.symm.trans heq
    · exact h.settled scope hmem

end Sees
end Place
end ShaderFront
