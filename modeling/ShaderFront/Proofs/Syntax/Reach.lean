import Mathlib.Data.Set.Card
import Mathlib.Logic.Relation
import Mathlib.Order.CompletePartialOrder
import ShaderFront.Syntax.Visit

/-!
# What a unit holds

Which nodes lie below which others, and which are reached from the items of a unit. An arena is
acyclic if no node lies below itself. Then each node has a rank, above the ranks of its children
and not above the number of nodes: this is why the depth that bounds a walk is enough.
-/

namespace ShaderFront

open Relation

namespace Arena

/-- The second expression is a child of the first one. -/
def Child (a : Arena) (id child : ExprId) : Prop :=
  ∃ e, a.expr? id = some e ∧ child ∈ e.form.children

/-- The second statement is a child of the first one. -/
def ChildStmt (a : Arena) (id child : StmtId) : Prop :=
  ∃ s, a.stmt? id = some s ∧ .inr child ∈ s.form.children

/-- The second expression is the first one or lies below it. -/
def Below (a : Arena) : ExprId → ExprId → Prop := ReflTransGen a.Child

/-- A child of an item or of a statement is the expression, or a statement that holds it directly
or in a statement below. -/
inductive Carries (a : Arena) : ExprId ⊕ StmtId → ExprId → Prop where
  | expr (id : ExprId) : Carries a (.inl id) id
  | stmt {id s child e} (get : a.stmt? id = some s) (mem : child ∈ s.form.children)
      (rest : Carries a child e) : Carries a (.inr id) e

/-- No node lies below itself. -/
structure Acyclic (a : Arena) : Prop where
  exprs : ∀ id, ¬TransGen a.Child id id
  stmts : ∀ id, ¬TransGen a.ChildStmt id id

/-- The node of an id was given out. -/
def Has (a : Arena) : ExprId ⊕ StmtId → Prop
  | .inl id => id.index < a.exprs.size
  | .inr id => id.index < a.stmts.size

end Arena

namespace ShaderUnit

/-- All ids are in range, and no node lies below itself. -/
structure WellFormed (u : ShaderUnit) : Prop where
  items : ∀ item ∈ u.items, ∀ child ∈ item.children, u.arena.Has child
  exprs : ∀ id child, u.arena.Child id child → u.arena.Has (.inl child)
  stmts : ∀ id s, u.arena.stmt? id = some s → ∀ child ∈ s.form.children, u.arena.Has child
  acyclic : u.arena.Acyclic

/-- Statements below an item. -/
inductive ReachesStmt (u : ShaderUnit) : StmtId → Prop where
  | item {item id} (mem : item ∈ u.items) (child : .inr id ∈ item.children) : ReachesStmt u id
  | child {id child} (parent : ReachesStmt u id) (edge : u.arena.ChildStmt id child) :
      ReachesStmt u child

/-- Expressions that an item or a statement below an item holds directly. -/
def Root (u : ShaderUnit) (id : ExprId) : Prop :=
  ∃ item ∈ u.items, ∃ child ∈ item.children, u.arena.Carries child id

/-- Expressions below an item. -/
def Reaches (u : ShaderUnit) (id : ExprId) : Prop := ∃ root, u.Root root ∧ u.arena.Below root id

end ShaderUnit

/-! ## Ranks -/

/-- A relation without cycles that leads on from finitely many nodes has ranks that fall along it. -/
theorem exists_rank {α : Type} {R : α → α → Prop} {nodes : Set α} (finite : nodes.Finite)
    (acyclic : ∀ x, ¬TransGen R x x) (within : ∀ x y, R x y → x ∈ nodes) :
    ∃ rank : α → Nat, (∀ x, rank x ≤ nodes.ncard) ∧ ∀ x y, R x y → rank y < rank x := by
  have hsub (x : α) : {y ∈ nodes | ReflTransGen R x y} ⊆ nodes := fun y hy => hy.1
  refine ⟨fun x => {y ∈ nodes | ReflTransGen R x y}.ncard,
    fun x => Set.ncard_le_ncard (hsub x) finite, fun x y hxy => ?_⟩
  refine Set.ncard_lt_ncard ⟨fun z hz => ⟨hz.1, .head hxy hz.2⟩, fun hback => ?_⟩
    (finite.subset (hsub x))
  have hself : ReflTransGen R y x := (hback ⟨within x y hxy, .refl⟩).2
  exact acyclic x (.head' hxy hself)

/-- Ranks that fall along a relation leave no room for cycles. -/
theorem not_transGen_of_rank {α : Type} {R : α → α → Prop} (rank : α → Nat)
    (falls : ∀ x y, R x y → rank y < rank x) (x : α) : ¬TransGen R x x := by
  have hlt (y : α) (h : TransGen R x y) : rank y < rank x := by
    induction h with
    | single h => exact falls _ _ h
    | tail _ h ih => exact Nat.lt_trans (falls _ _ h) ih
  exact fun h => Nat.lt_irrefl _ (hlt x h)

/-- As many indices as there are numbers below the bound. -/
theorem ncard_index_lt {α : Type} {index : α → Nat} (injective : index.Injective) (size : Nat) :
    {x | index x < size}.Finite ∧ {x | index x < size}.ncard ≤ size := by
  have hmaps : Set.MapsTo index {x | index x < size} (Finset.range size) := fun x hx => by
    simpa using hx
  refine ⟨Set.Finite.of_injOn hmaps injective.injOn (Finset.finite_toSet _), ?_⟩
  have hle := Set.ncard_le_ncard_of_injOn index hmaps injective.injOn (Finset.finite_toSet _)
  rwa [Set.ncard_coe_finset, Finset.card_range] at hle

/-- A rank for each node of an arena. -/
structure Arena.Ranking (a : Arena) where
  expr : ExprId → Nat
  stmt : StmtId → Nat
  expr_le : ∀ id, expr id ≤ a.exprs.size
  stmt_le : ∀ id, stmt id ≤ a.stmts.size
  expr_child : ∀ id child, a.Child id child → expr child < expr id
  stmt_child : ∀ id child, a.ChildStmt id child → stmt child < stmt id

/-- The nodes below each other can be ranked, as they are finitely many. -/
theorem Arena.Acyclic.ranking {a : Arena} (h : a.Acyclic) : Nonempty a.Ranking := by
  have hexpr : Function.Injective ExprId.index := fun ⟨i⟩ ⟨j⟩ he => congrArg ExprId.mk he
  have hstmt : Function.Injective StmtId.index := fun ⟨i⟩ ⟨j⟩ he => congrArg StmtId.mk he
  obtain ⟨hfinite, hsize⟩ := ncard_index_lt hexpr a.exprs.size
  obtain ⟨hfinite', hsize'⟩ := ncard_index_lt hstmt a.stmts.size
  obtain ⟨expr, hexprs, hchild⟩ := exists_rank hfinite h.exprs
    fun id _ ⟨_, get, _⟩ => (Array.getElem?_eq_some_iff.1 get).1
  obtain ⟨stmt, hstmts, hchild'⟩ := exists_rank hfinite' h.stmts
    fun id _ ⟨_, get, _⟩ => (Array.getElem?_eq_some_iff.1 get).1
  exact ⟨⟨expr, stmt, fun id => (hexprs id).trans hsize, fun id => (hstmts id).trans hsize',
    hchild, hchild'⟩⟩

namespace ShaderUnit

variable {u : ShaderUnit}

theorem WellFormed.ranking (h : u.WellFormed) : Nonempty u.arena.Ranking := h.acyclic.ranking

/-! ## Reaching nodes -/

/-- What lies below what is reached is reached. -/
theorem Reaches.below {id child : ExprId} (h : u.Reaches id) (hb : u.arena.Below id child) :
    u.Reaches child := by
  obtain ⟨root, hroot, hbelow⟩ := h
  exact ⟨root, hroot, hbelow.trans hb⟩

theorem Root.reaches {id : ExprId} (h : u.Root id) : u.Reaches id := ⟨id, h, .refl⟩

/-- What a statement below an item carries. -/
theorem ReachesStmt.root {id : StmtId} (h : u.ReachesStmt id) {e : ExprId}
    (carries : u.arena.Carries (.inr id) e) : u.Root e := by
  induction h with
  | item mem child => exact ⟨_, mem, _, child, carries⟩
  | child _ edge ih =>
    obtain ⟨s, get, mem⟩ := edge
    exact ih (.stmt get mem carries)

theorem Root.has (wf : u.WellFormed) {id : ExprId} (h : u.Root id) : u.arena.Has (.inl id) := by
  obtain ⟨item, hitem, child, hchild, carries⟩ := h
  have hhas := wf.items item hitem child hchild
  clear hchild
  induction carries with
  | expr id => exact hhas
  | stmt get mem _ ih => exact ih (wf.stmts _ _ get _ mem)

/-- In a well-formed unit all that is reached is there. -/
theorem Reaches.has (wf : u.WellFormed) {id : ExprId} (h : u.Reaches id) :
    u.arena.Has (.inl id) := by
  obtain ⟨root, hroot, hbelow⟩ := h
  cases hbelow with
  | refl => exact hroot.has wf
  | tail _ hedge => exact wf.exprs _ _ hedge

theorem ReachesStmt.has (wf : u.WellFormed) {id : StmtId} (h : u.ReachesStmt id) :
    u.arena.Has (.inr id) := by
  cases h with
  | item mem child => exact wf.items _ mem _ child
  | child _ edge =>
    obtain ⟨s, hs, hc⟩ := edge
    exact wf.stmts _ s hs _ hc

end ShaderUnit

namespace Arena

variable {a : Arena}

theorem Has.expr? {id : ExprId} (h : a.Has (.inl id)) : ∃ e, a.expr? id = some e :=
  ⟨_, Array.getElem?_eq_getElem h⟩

theorem Has.stmt? {id : StmtId} (h : a.Has (.inr id)) : ∃ s, a.stmt? id = some s :=
  ⟨_, Array.getElem?_eq_getElem h⟩

/-- What an arena has, it has among more nodes. -/
theorem Has.mono {b : Arena} {id : ExprId ⊕ StmtId} (h : a.Has id)
    (exprs : a.exprs.size ≤ b.exprs.size) (stmts : a.stmts.size ≤ b.stmts.size) : b.Has id := by
  cases id with
  | inl id => exact Nat.lt_of_lt_of_le h exprs
  | inr id => exact Nat.lt_of_lt_of_le h stmts

/-- What a child carries is a matter of the statements. -/
theorem Carries.congr {a b : Arena} {child : ExprId ⊕ StmtId} {e : ExprId}
    (h : a.Carries child e) (same : b.stmts = a.stmts) : b.Carries child e := by
  induction h with
  | expr id => exact .expr id
  | stmt get mem _ ih =>
    exact .stmt ((stmt?_congr same _).trans get) mem ih

instance (a : Arena) : (child : ExprId ⊕ StmtId) → Decidable (a.Has child)
  | .inl id => inferInstanceAs (Decidable (id.index < a.exprs.size))
  | .inr id => inferInstanceAs (Decidable (id.index < a.stmts.size))

theorem expr_eq_ok {id : ExprId} {e : Expr} (h : a.expr? id = some e) : a.expr id = .ok e := by
  rw [Arena.expr, h]

theorem stmt_eq_ok {id : StmtId} {s : Stmt} (h : a.stmt? id = some s) : a.stmt id = .ok s := by
  rw [Arena.stmt, h]

theorem expr?_of_ok {id : ExprId} {e : Expr} (h : a.expr id = .ok e) : a.expr? id = some e := by
  unfold Arena.expr at h
  split at h
  · rename_i get
    cases h
    exact get
  · cases h

theorem stmt?_of_ok {id : StmtId} {s : Stmt} (h : a.stmt id = .ok s) : a.stmt? id = some s := by
  unfold Arena.stmt at h
  split at h
  · rename_i get
    cases h
    exact get
  · cases h

end Arena

/-! ## Units in ascending order -/

namespace ShaderUnit

/-- Children of one sort have smaller ids than their parents, and all other ids are in range. -/
structure Ascending (u : ShaderUnit) : Prop where
  exprs : ∀ i (h : i < u.arena.exprs.size), ∀ c ∈ u.arena.exprs[i].form.children, c.index < i
  stmts : ∀ i (h : i < u.arena.stmts.size), ∀ child ∈ u.arena.stmts[i].form.children,
    u.arena.Has child ∧ ∀ c, child = .inr c → c.index < i
  items : ∀ item ∈ u.items, ∀ child ∈ item.children, u.arena.Has child

instance (i : Nat) : (child : ExprId ⊕ StmtId) → Decidable (∀ c, child = .inr c → c.index < i)
  | .inl _ => isTrue nofun
  | .inr c => decidable_of_iff (c.index < i) ⟨fun h _ heq => by cases heq; exact h, fun h => h c rfl⟩

/-- Units in ascending order have no cycles. -/
theorem Ascending.wellFormed {u : ShaderUnit} (h : u.Ascending) : u.WellFormed := by
  have hexpr (id c : ExprId) (hc : u.arena.Child id c) :
      id.index < u.arena.exprs.size ∧ c.index < id.index := by
    obtain ⟨e, get, hmem⟩ := hc
    obtain ⟨hlt, rfl⟩ := Array.getElem?_eq_some_iff.1 get
    exact ⟨hlt, h.exprs id.index hlt c hmem⟩
  have hstmt (id : StmtId) (s : Stmt) (get : u.arena.stmt? id = some s)
      (child : ExprId ⊕ StmtId) (hmem : child ∈ s.form.children) :
      u.arena.Has child ∧ ∀ c, child = .inr c → c.index < id.index := by
    obtain ⟨hlt, rfl⟩ := Array.getElem?_eq_some_iff.1 get
    exact h.stmts id.index hlt child hmem
  refine ⟨h.items, fun id c hc => ?_, fun id s get child hmem => (hstmt id s get child hmem).1,
    ?_, ?_⟩
  · obtain ⟨hlt, hdescends⟩ := hexpr id c hc
    exact Nat.lt_trans hdescends hlt
  · exact not_transGen_of_rank ExprId.index fun id c hc => (hexpr id c hc).2
  · refine not_transGen_of_rank StmtId.index fun id c ⟨s, get, hmem⟩ => ?_
    exact (hstmt id s get _ hmem).2 c rfl

end ShaderUnit
end ShaderFront
