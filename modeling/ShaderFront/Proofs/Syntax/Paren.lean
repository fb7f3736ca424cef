import ShaderFront.Proofs.Syntax.Unfold

/-!
# Parentheses in an arena

The node behind parentheses is found by going through them. In a well-formed unit there is exactly
one, and it lies below them.
-/

namespace ShaderFront

namespace Arena

/-- The slot of an expression holds parentheses. -/
def IsParen (a : Arena) (id : ExprId) : Prop := ∃ e, a.expr? id = some e ∧ e.form.IsParen

/-- The node behind any parentheses at an id. -/
inductive Behind (a : Arena) : ExprId → Expr → Prop where
  | node {id e} (get : a.expr? id = some e) (plain : ¬e.form.IsParen) : Behind a id e
  | paren {id e inner e'} (get : a.expr? id = some e) (form : e.form = .paren inner)
      (rest : Behind a inner e') : Behind a id e'

variable {a : Arena} {id : ExprId} {e : Expr}

theorem Behind.plain (h : a.Behind id e) : ¬e.form.IsParen := by
  induction h with
  | node _ plain => exact plain
  | paren _ _ _ ih => exact ih

theorem Behind.eq (h : a.Behind id e) {e' : Expr} (h' : a.Behind id e') : e' = e := by
  induction h with
  | node get plain =>
    cases h' with
    | node get' _ => exact Option.some.inj (get'.symm.trans get)
    | paren get' form _ =>
      cases get'.symm.trans get
      exact absurd ⟨_, form⟩ plain
  | paren get form _ ih =>
    cases h' with
    | node get' plain =>
      cases get'.symm.trans get
      exact absurd ⟨_, form⟩ plain
    | paren get' form' rest =>
      cases get'.symm.trans get
      cases form'.symm.trans form
      exact ih rest

/-- The node behind parentheses is one below them. -/
theorem Behind.exists_below (h : a.Behind id e) :
    ∃ core, a.Below id core ∧ a.expr? core = some e := by
  induction h with
  | node get _ => exact ⟨_, .refl, get⟩
  | paren get form _ ih =>
    obtain ⟨core, hbelow, hcore⟩ := ih
    exact ⟨core, .head ⟨_, get, by simp [form, ExprForm.children]⟩ hbelow, hcore⟩

/-- **Storing the node right behind parentheses over them** changes nothing about what is behind any
parentheses. -/
theorem behind_setExpr {inner : ExprId} {core : Expr} (get : a.expr? id = some e)
    (form : e.form = .paren inner) (hcore : a.expr? inner = some core) {x : ExprId} {e' : Expr} :
    (a.setExpr id core).Behind x e' ↔ a.Behind x e' := by
  have hslot : (a.setExpr id core).expr? id = some core :=
    a.expr?_setExpr_self id core (Array.getElem?_eq_some_iff.1 get).1
  constructor
  · intro h
    induction h with
    | @node x e' get' plain =>
      by_cases heq : x = id
      · subst heq
        cases get'.symm.trans hslot
        exact .paren get form (.node hcore plain)
      · rw [a.expr?_setExpr_ne id x core heq] at get'
        exact .node get' plain
    | @paren x e' y _ get' form' _ ih =>
      by_cases heq : x = id
      · subst heq
        cases get'.symm.trans hslot
        exact .paren get form (.paren hcore form' ih)
      · rw [a.expr?_setExpr_ne id x core heq] at get'
        exact .paren get' form' ih
  · intro h
    induction h with
    | @node x e' get' plain =>
      have hne : x ≠ id := by
        rintro rfl
        cases get'.symm.trans get
        exact plain ⟨inner, form⟩
      exact .node ((a.expr?_setExpr_ne id x core hne).trans get') plain
    | @paren x e' y _ get' form' _ ih =>
      by_cases heq : x = id
      · subst heq
        cases get'.symm.trans get
        cases form'.symm.trans form
        by_cases hinner : inner = x
        · exact hinner ▸ ih
        · -- Both slots hold the same node now.
          have hsame := (a.expr?_setExpr_ne x inner core hinner).trans hcore
          cases ih with
          | node get'' plain => exact .node (hslot.trans (hsame.symm.trans get'')) plain
          | paren get'' form'' rest =>
            exact .paren (hslot.trans (hsame.symm.trans get'')) form'' rest
      · exact .paren ((a.expr?_setExpr_ne id x core heq).trans get') form' ih

theorem Ranking.below_le (rank : a.Ranking) {child : ExprId} (h : a.Below id child) :
    rank.expr child ≤ rank.expr id := by
  induction h with
  | refl => exact Nat.le_refl _
  | tail _ hedge ih => exact (Nat.le_of_lt (rank.expr_child _ _ hedge)).trans ih

end Arena

/-- There is a node behind any parentheses. -/
theorem ShaderUnit.WellFormed.exists_behind {u : ShaderUnit} (wf : u.WellFormed) {id : ExprId}
    (h : u.arena.Has (.inl id)) : ∃ e, u.arena.Behind id e := by
  obtain ⟨rank⟩ := wf.ranking
  induction hn : rank.expr id using Nat.strong_induction_on generalizing id with
  | _ n ih =>
    obtain ⟨e, he⟩ := h.expr?
    by_cases hparen : e.form.IsParen
    · obtain ⟨inner, hform⟩ := hparen
      have hedge : u.arena.Child id inner := ⟨e, he, by simp [hform, ExprForm.children]⟩
      obtain ⟨e', hbehind⟩ := ih _ (hn ▸ rank.expr_child id inner hedge) (wf.exprs _ _ hedge) rfl
      exact ⟨e', .paren he hform hbehind⟩
    · exact ⟨e, .node he hparen⟩

end ShaderFront
