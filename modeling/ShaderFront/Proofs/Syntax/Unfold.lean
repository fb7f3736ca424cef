import Mathlib.Tactic.Choose
import ShaderFront.Proofs.Syntax.Traversal

/-!
# Unfolded expressions

The tree that an expression id stands for, read out of an arena. Two arenas may give one id
different nodes and still the same tree; what an expression means is its tree.
-/

namespace ShaderFront

/-- An expression with its children in place of their ids. -/
inductive ExprTree where
  | node (form : ExprForm ExprTree) (span : Span)
  deriving Inhabited

namespace ExprTree

mutual

/-- The tree without parentheses: each gives way to what it encloses, with the span of that. -/
def strip : ExprTree → ExprTree
  | .node form span => stripForm span form

def stripForm (span : Span) : ExprForm ExprTree → ExprTree
  | .paren inner => strip inner
  | .literal v => .node (.literal v) span
  | .ident n => .node (.ident n) span
  | .unary op e => .node (.unary op (strip e)) span
  | .binary op l r => .node (.binary op (strip l) (strip r)) span
  | .conditional c y n => .node (.conditional (strip c) (strip y) (strip n)) span
  | .call callee args => .node (.call callee (stripAll args)) span
  | .member e n => .node (.member (strip e) n) span
  | .index t i => .node (.index (strip t) (strip i)) span
  | .cast ty e => .node (.cast ty (strip e)) span
  | .assign op t v => .node (.assign op (strip t) (strip v)) span
  | .error => .node .error span

def stripAll : List ExprTree → List ExprTree
  | [] => []
  | t :: rest => strip t :: stripAll rest

end

end ExprTree

namespace ExprForm

variable {α β γ : Type}

/-- Parentheses. -/
def IsParen (form : ExprForm α) : Prop := ∃ inner, form = .paren inner

theorem IsParen.of_map {f : α → β} {form : ExprForm α} (h : (form.map f).IsParen) :
    form.IsParen := by
  obtain ⟨inner, heq⟩ := h
  cases form with
  | paren inner => exact ⟨inner, rfl⟩
  | _ => cases heq

theorem map_map (f : α → β) (g : β → γ) (form : ExprForm α) :
    (form.map f).map g = form.map fun a => g (f a) := by
  cases form <;> simp [map]

/-- Looking up children that are all found. -/
theorem mapM_ok {ω : Type} {f : α → Except ω β} {g : α → β} {form : ExprForm α}
    (h : ∀ c ∈ form.children, f c = .ok (g c)) : form.mapM f = .ok (form.map g) := by
  cases form with
  | call callee args =>
    have hargs : args.mapM f = .ok (args.map g) := by
      induction args with
      | nil => rfl
      | cons a rest ih =>
        have hrest := ih fun c hc => h c (List.mem_cons_of_mem _ hc)
        rw [List.mapM_cons]
        exact bind_ok (h a List.mem_cons_self) (bind_ok hrest rfl)
    exact bind_ok hargs rfl
  | literal | ident | error => rfl
  | unary op e | member e name | cast type e | paren e =>
    exact bind_ok (h e (by simp [children])) rfl
  | binary op l r | index l r | assign op l r =>
    exact bind_ok (h l (by simp [children])) (bind_ok (h r (by simp [children])) rfl)
  | conditional c y n =>
    exact bind_ok (h c (by simp [children]))
      (bind_ok (h y (by simp [children])) (bind_ok (h n (by simp [children])) rfl))

/-- What was found was found for a child. -/
theorem of_mapM_ok {ω : Type} {f : α → Except ω β} {form : ExprForm α} {found : ExprForm β}
    (h : form.mapM f = .ok found) : ∀ b ∈ found.children, ∃ c ∈ form.children, f c = .ok b := by
  cases form with
  | literal | ident | error =>
    cases h
    exact nofun
  | unary op e | member e name | cast type e | paren e =>
    obtain ⟨b, hb, h⟩ := of_bind_ok h
    cases h
    simpa [children] using hb
  | binary op l r | index l r | assign op l r =>
    obtain ⟨b, hb, h⟩ := of_bind_ok h
    obtain ⟨b', hb', h⟩ := of_bind_ok h
    cases h
    simpa [children] using ⟨.inl hb, .inr hb'⟩
  | conditional c y n =>
    obtain ⟨b, hb, h⟩ := of_bind_ok h
    obtain ⟨b', hb', h⟩ := of_bind_ok h
    obtain ⟨b'', hb'', h⟩ := of_bind_ok h
    cases h
    simpa [children] using ⟨.inl hb, .inr (.inl hb'), .inr (.inr hb'')⟩
  | call callee args =>
    obtain ⟨bs, hbs, h⟩ := of_bind_ok h
    cases h
    show ∀ b ∈ bs, ∃ c ∈ args, f c = .ok b
    induction args generalizing bs with
    | nil =>
      cases hbs
      exact nofun
    | cons a rest ih =>
      rw [List.mapM_cons] at hbs
      obtain ⟨b, hb, hbs⟩ := of_bind_ok hbs
      obtain ⟨others, hothers, heq⟩ := of_bind_ok hbs
      cases heq
      intro other hmem
      rcases List.mem_cons.1 hmem with rfl | hrest
      · exact ⟨a, List.mem_cons_self, hb⟩
      · obtain ⟨c, hc, hfound⟩ := ih others hothers (bind_ok hothers rfl) other hrest
        exact ⟨c, List.mem_cons_of_mem _ hc, hfound⟩

end ExprForm

namespace ExprTree

theorem stripAll_eq (l : List ExprTree) : stripAll l = l.map strip := by
  induction l with
  | nil => rfl
  | cons t rest ih => rw [stripAll, ih, List.map_cons]

theorem strip_paren (inner : ExprTree) (span : Span) :
    (node (.paren inner) span).strip = inner.strip := by
  rw [strip, stripForm]

theorem strip_node {form : ExprForm ExprTree} (h : ¬form.IsParen) (span : Span) :
    (node form span).strip = node (form.map strip) span := by
  cases form with
  | paren inner => exact absurd ⟨inner, rfl⟩ h
  | call callee args => rw [strip, stripForm, stripAll_eq, ExprForm.map]
  | _ => rw [strip, stripForm, ExprForm.map]

end ExprTree

namespace Arena

/-- The tree below an expression; `depth` bounds how many expressions lie on a path below it. -/
def unfold (a : Arena) : (depth : Nat) → ExprId → Except Fault ExprTree
  | 0, _ => .error .cyclic
  | depth + 1, id => do
    let e ← a.expr id
    let form ← e.form.mapM (a.unfold depth)
    return .node form e.span

/-- The tree that an expression stands for. -/
def tree (a : Arena) (id : ExprId) : Except Fault ExprTree := a.unfold a.exprDepth id

/-- One node and the trees of its children. -/
theorem unfold_node {a : Arena} {id : ExprId} {e : Expr} {t : ExprId → ExprTree} {depth : Nat}
    (get : a.expr? id = some e) (children : ∀ c ∈ e.form.children, a.unfold depth c = .ok (t c)) :
    a.unfold (depth + 1) id = .ok (.node (e.form.map t) e.span) :=
  bind_ok (expr_eq_ok get) (bind_ok (ExprForm.mapM_ok children) rfl)

/-- Ids with one node have one tree. -/
theorem unfold_congr {a : Arena} {id id' : ExprId} {e : Expr} (get : a.expr? id = some e)
    (get' : a.expr? id' = some e) (depth : Nat) : a.unfold depth id = a.unfold depth id' := by
  cases depth with
  | zero => rfl
  | succ depth => simp only [unfold, expr_eq_ok get, expr_eq_ok get']

end Arena

namespace ShaderUnit.WellFormed

variable {u : ShaderUnit}

/-- Every expression has a tree, made of the trees of its children. It takes no more depth to unfold
it than its rank says. -/
theorem exists_unfold (wf : u.WellFormed) (rank : u.arena.Ranking) :
    ∃ t : ExprId → ExprTree,
      (∀ id e, u.arena.expr? id = some e → t id = .node (e.form.map t) e.span) ∧
      ∀ id, u.arena.Has (.inl id) →
        ∀ depth, rank.expr id < depth → u.arena.unfold depth id = .ok (t id) := by
  have hone (bound : Nat) : ∀ id, u.arena.Has (.inl id) → rank.expr id < bound →
      ∃ t, ∀ depth, rank.expr id < depth → u.arena.unfold depth id = .ok t := by
    induction bound with
    | zero => exact fun id _ h => absurd h (Nat.not_lt_zero _)
    | succ bound ih =>
      intro id hid hbound
      obtain ⟨e, he⟩ := hid.expr?
      have hchild (c : ExprId) (hc : c ∈ e.form.children) :
          u.arena.Has (.inl c) ∧ rank.expr c < rank.expr id :=
        ⟨wf.exprs id c ⟨e, he, hc⟩, rank.expr_child id c ⟨e, he, hc⟩⟩
      have htree : ∀ c ∈ e.form.children,
          ∃ t, ∀ depth, rank.expr c < depth → u.arena.unfold depth c = .ok t := fun c hc => by
        obtain ⟨hhas, hrank⟩ := hchild c hc
        exact ih c hhas (by omega)
      choose! t ht using htree
      refine ⟨.node (e.form.map t) e.span, fun depth hdepth => ?_⟩
      obtain ⟨below, rfl⟩ : ∃ below, depth = below + 1 := ⟨depth - 1, by omega⟩
      refine Arena.unfold_node he fun c hc => ht c hc below ?_
      have hrank := (hchild c hc).2
      omega
  have hall : ∀ id, u.arena.Has (.inl id) →
      ∃ t, ∀ depth, rank.expr id < depth → u.arena.unfold depth id = .ok t :=
    fun id hid => hone _ id hid (Nat.lt_succ_self _)
  choose! t ht using hall
  refine ⟨t, fun id e he => ?_, ht⟩
  have hid : u.arena.Has (.inl id) := (Array.getElem?_eq_some_iff.1 he).1
  have hnode := Arena.unfold_node (t := t) he fun c hc =>
    ht c (wf.exprs id c ⟨e, he, hc⟩) _ (rank.expr_child id c ⟨e, he, hc⟩)
  exact Except.ok.inj ((ht id hid _ (Nat.lt_succ_self _)).symm.trans hnode)

end ShaderUnit.WellFormed
end ShaderFront
