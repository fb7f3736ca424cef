import ShaderFront.Proofs.Syntax.Reach

/-!
# Forests

In a forest no node lies below itself and every id is referred to at most once. A node then has one
parent at most, so what lies below it is apart from what lies below its siblings, and a traversal
comes to no node twice. The expressions among some nodes and below them are the `extent` of these
nodes.
-/

namespace ShaderFront

open Relation

namespace Arena

/-- The children of a node; one that was never given out has none. -/
def children (a : Arena) : ExprId ⊕ StmtId → List (ExprId ⊕ StmtId)
  | .inl id =>
    match a.expr? id with
    | some e => e.form.children.map .inl
    | none => []
  | .inr id =>
    match a.stmt? id with
    | some s => s.form.children
    | none => []

/-- All nodes that were given out. -/
def nodes (a : Arena) : List (ExprId ⊕ StmtId) :=
  (List.range a.exprs.size).map (fun i => .inl ⟨i⟩) ++
    (List.range a.stmts.size).map (fun i => .inr ⟨i⟩)

/-- The second node is a child of the first one. -/
def Refers (a : Arena) (node child : ExprId ⊕ StmtId) : Prop := child ∈ a.children node

/-- The expressions among some nodes and below them. -/
def extent (a : Arena) (nodes : List (ExprId ⊕ StmtId)) : Set ExprId :=
  {x | ∃ node ∈ nodes, ReflTransGen a.Refers node (.inl x)}

end Arena

namespace ShaderUnit

/-- All references to nodes: those from items, and those from other nodes. -/
def references (u : ShaderUnit) : List (ExprId ⊕ StmtId) :=
  u.items.flatMap Item.children ++ u.arena.nodes.flatMap u.arena.children

/-- No node lies below itself, and each id is referred to at most once. -/
structure Forest (u : ShaderUnit) : Prop where
  acyclic : u.arena.Acyclic
  unshared : u.references.Nodup

end ShaderUnit

/-! ## Nodes below a node -/

namespace Arena

variable {a : Arena}

theorem refers_expr {id : ExprId} {node : ExprId ⊕ StmtId} :
    a.Refers (.inl id) node ↔ ∃ c, a.Child id c ∧ node = .inl c := by
  unfold Refers children Child
  cases h : a.expr? id with
  | none => simp [h]
  | some e => simp [h, eq_comm]

theorem refers_stmt {id : StmtId} {node : ExprId ⊕ StmtId} :
    a.Refers (.inr id) node ↔ ∃ s, a.stmt? id = some s ∧ node ∈ s.form.children := by
  unfold Refers children
  cases h : a.stmt? id with
  | none => simp [h]
  | some s => simp [h]

/-- Only expressions lie below an expression. -/
theorem reflTransGen_expr {id : ExprId} {node : ExprId ⊕ StmtId} :
    ReflTransGen a.Refers (.inl id) node ↔ ∃ x, a.Below id x ∧ node = .inl x := by
  constructor
  · intro h
    induction h with
    | refl => exact ⟨id, .refl, rfl⟩
    | tail _ hrefers ih =>
      obtain ⟨x, hx, rfl⟩ := ih
      obtain ⟨c, hc, rfl⟩ := refers_expr.1 hrefers
      exact ⟨c, hx.tail hc, rfl⟩
  · rintro ⟨x, hx, rfl⟩
    induction hx with
    | refl => exact .refl
    | tail _ hc ih => exact ih.tail (refers_expr.2 ⟨_, hc, rfl⟩)

/-- Only statements lie above a statement. -/
theorem reflTransGen_stmt {id : StmtId} {node : ExprId ⊕ StmtId}
    (h : ReflTransGen a.Refers node (.inr id)) :
    ∃ x, node = .inr x ∧ ReflTransGen a.ChildStmt x id := by
  induction h using ReflTransGen.head_induction_on with
  | refl => exact ⟨id, rfl, .refl⟩
  | @head node _ hrefers _ ih =>
    obtain ⟨x, rfl, hx⟩ := ih
    cases node with
    | inl e =>
      obtain ⟨c, -, hc⟩ := refers_expr.1 hrefers
      cases hc
    | inr s => exact ⟨s, rfl, .head (refers_stmt.1 hrefers) hx⟩

/-- Only nodes that were given out have children. -/
theorem Refers.mem_nodes {node child : ExprId ⊕ StmtId} (h : a.Refers node child) :
    node ∈ a.nodes := by
  cases node with
  | inl id =>
    obtain ⟨c, ⟨e, get, -⟩, -⟩ := refers_expr.1 h
    have hlt := (Array.getElem?_eq_some_iff.1 get).1
    exact List.mem_append_left _ (List.mem_map.2 ⟨id.index, List.mem_range.2 hlt, rfl⟩)
  | inr id =>
    obtain ⟨s, get, -⟩ := refers_stmt.1 h
    have hlt := (Array.getElem?_eq_some_iff.1 get).1
    exact List.mem_append_right _ (List.mem_map.2 ⟨id.index, List.mem_range.2 hlt, rfl⟩)

/-- No node lies below itself, whatever its sort. -/
theorem Acyclic.not_transGen (h : a.Acyclic) (node : ExprId ⊕ StmtId) :
    ¬TransGen a.Refers node node := by
  intro hcycle
  obtain ⟨child, hrefers, hback⟩ := TransGen.head'_iff.1 hcycle
  cases node with
  | inl id =>
    obtain ⟨c, hc, rfl⟩ := refers_expr.1 hrefers
    obtain ⟨x, hx, heq⟩ := reflTransGen_expr.1 hback
    cases heq
    exact h.exprs id (.head' hc hx)
  | inr id =>
    obtain ⟨c, rfl, hbelow⟩ := reflTransGen_stmt hback
    exact h.stmts id (.head' (refers_stmt.1 hrefers) hbelow)

/-! ## Extents -/

@[simp] theorem mem_extent_expr {id x : ExprId} : x ∈ a.extent [.inl id] ↔ a.Below id x := by
  simp [extent, reflTransGen_expr]

/-- What lies ahead with all below it lies ahead. -/
theorem notMem_of_disjoint {id : ExprId} {V : Set ExprId}
    (h : Disjoint (a.extent [.inl id]) V) : id ∉ V :=
  Set.disjoint_left.1 h (mem_extent_expr.2 .refl)

/-- A node that is not the expression itself, and what its children hold. -/
theorem mem_extent_iff {node : ExprId ⊕ StmtId} {x : ExprId} :
    x ∈ a.extent [node] ↔ node = .inl x ∨ x ∈ a.extent (a.children node) := by
  simp only [extent, List.mem_singleton, exists_eq_left, Set.mem_ofPred_eq]
  rw [ReflTransGen.cases_head_iff]
  exact Iff.rfl

theorem extent_expr {id : ExprId} {e : Expr} (get : a.expr? id = some e) :
    a.extent [.inl id] = insert id (a.extent (e.form.children.map .inl)) := by
  ext x
  rw [mem_extent_iff, children, get, Set.mem_insert_iff, Sum.inl.injEq, eq_comm]

theorem extent_stmt {id : StmtId} {s : Stmt} (get : a.stmt? id = some s) :
    a.extent [.inr id] = a.extent s.form.children := by
  ext x
  rw [mem_extent_iff, children, get]
  simp

/-- What a node carries, and all below it. -/
theorem mem_extent_of_carries {node : ExprId ⊕ StmtId} {root x : ExprId}
    (h : a.Carries node root) (hx : a.Below root x) : x ∈ a.extent [node] := by
  induction h with
  | expr id => exact mem_extent_expr.2 hx
  | stmt get mem _ ih =>
    obtain ⟨node, hnode, hbelow⟩ := ih hx
    cases List.mem_singleton.1 hnode
    rw [extent_stmt get]
    exact ⟨_, mem, hbelow⟩

theorem carries_of_mem_extent {node : ExprId ⊕ StmtId} {x : ExprId} (h : x ∈ a.extent [node]) :
    ∃ root, a.Carries node root ∧ a.Below root x := by
  obtain ⟨node', hnode, hbelow⟩ := h
  obtain rfl := List.mem_singleton.1 hnode
  clear hnode
  induction hbelow using ReflTransGen.head_induction_on with
  | refl => exact ⟨x, .expr x, .refl⟩
  | @head node child hrefers hbelow ih =>
    obtain ⟨root, hroot, hx⟩ := ih
    cases node with
    | inl id =>
      obtain ⟨y, hy, heq⟩ := reflTransGen_expr.1 (.head hrefers hbelow)
      cases heq
      exact ⟨id, .expr id, hy⟩
    | inr id =>
      obtain ⟨s, get, mem⟩ := refers_stmt.1 hrefers
      exact ⟨root, .stmt get mem hroot, hx⟩

end Arena

namespace ShaderUnit

variable {u : ShaderUnit}

/-- The extent of all items: what is reached from them. -/
theorem mem_extent_items {x : ExprId} :
    x ∈ u.arena.extent (u.items.flatMap Item.children) ↔ u.Reaches x := by
  constructor
  · rintro ⟨node, hnode, hbelow⟩
    obtain ⟨item, hitem, hchild⟩ := List.mem_flatMap.1 hnode
    obtain ⟨root, hroot, hx⟩ :=
      Arena.carries_of_mem_extent ⟨node, List.mem_singleton_self node, hbelow⟩
    exact ⟨root, ⟨item, hitem, node, hchild, hroot⟩, hx⟩
  · rintro ⟨root, ⟨item, hitem, node, hchild, hroot⟩, hx⟩
    obtain ⟨node', hnode, hbelow⟩ := Arena.mem_extent_of_carries hroot hx
    cases List.mem_singleton.1 hnode
    exact ⟨node, List.mem_flatMap.2 ⟨item, hitem, hchild⟩, hbelow⟩

/-! ## What is apart in a forest -/

/-- Extents of nodes of a list share nothing. -/
def Apart (u : ShaderUnit) (nodes : List (ExprId ⊕ StmtId)) : Prop :=
  nodes.Pairwise fun n m => Disjoint (u.arena.extent [n]) (u.arena.extent [m])

section

variable (unshared : u.references.Nodup)

include unshared

/-- Where each id is referred to at most once, a node has one parent at most. -/
theorem parent_unique_of_nodup {p q c : ExprId ⊕ StmtId} (hp : u.arena.Refers p c)
    (hq : u.arena.Refers q c) : p = q := by
  have hnodes := (List.nodup_flatMap.1 (List.nodup_append'.1 unshared).2.1).2
  have : Std.Symm (Function.onFun (List.Disjoint (α := ExprId ⊕ StmtId)) u.arena.children) :=
    ⟨fun _ _ hdisjoint => hdisjoint.symm⟩
  by_contra hne
  exact hnodes.forall hp.mem_nodes hq.mem_nodes hne hp hq

/-- Then a child of an item has no parent among the nodes. -/
theorem not_refers_of_nodup {p c : ExprId ⊕ StmtId} (hc : c ∈ u.items.flatMap Item.children) :
    ¬u.arena.Refers p c := by
  intro hp
  have hdisjoint := (List.nodup_append'.1 unshared).2.2
  exact hdisjoint hc (List.mem_flatMap.2 ⟨p, hp.mem_nodes, hp⟩)

/-- And a node lists none of its children twice. -/
theorem nodup_children (node : ExprId ⊕ StmtId) : (u.arena.children node).Nodup := by
  by_cases hnone : u.arena.children node = []
  · rw [hnone]
    exact List.nodup_nil
  · obtain ⟨c, hc⟩ := List.exists_mem_of_ne_nil _ hnone
    exact (List.nodup_flatMap.1 (List.nodup_append'.1 unshared).2.1).1 node
      (Arena.Refers.mem_nodes hc)

end

namespace Forest

/-- A node has one parent at most. -/
theorem parent_unique (h : u.Forest) {p q c : ExprId ⊕ StmtId} (hp : u.arena.Refers p c)
    (hq : u.arena.Refers q c) : p = q := parent_unique_of_nodup h.unshared hp hq

/-- A child of an item has no parent among the nodes. -/
theorem not_refers_of_item (h : u.Forest) {item : Item} (hitem : item ∈ u.items)
    {p c : ExprId ⊕ StmtId} (hc : c ∈ item.children) : ¬u.arena.Refers p c :=
  not_refers_of_nodup h.unshared (List.mem_flatMap.2 ⟨item, hitem, hc⟩)

/-- What an item or a statement holds is no child of an expression. -/
theorem not_child_of_root (h : u.Forest) {id p : ExprId} (hroot : u.Root id) :
    ¬u.arena.Child p id := by
  intro hc
  have hrefers : u.arena.Refers (.inl p) (.inl id) := Arena.refers_expr.2 ⟨id, hc, rfl⟩
  obtain ⟨item, hitem, child, hchild, carries⟩ := hroot
  have hitself : child ≠ .inl id := by
    rintro rfl
    exact h.not_refers_of_item hitem hchild hrefers
  clear hchild
  induction carries with
  | expr id => exact hitself rfl
  | @stmt sid s node e get mem _ ih =>
    refine ih hc hrefers ?_
    rintro rfl
    cases h.parent_unique hrefers (Arena.refers_stmt.2 ⟨s, get, mem⟩)

/-- Of two nodes that share something below them, one lies below the other. -/
theorem below_total (h : u.Forest) {n m x : ExprId ⊕ StmtId}
    (hn : ReflTransGen u.arena.Refers n x) (hm : ReflTransGen u.arena.Refers m x) :
    ReflTransGen u.arena.Refers n m ∨ ReflTransGen u.arena.Refers m n := by
  have hunique : Relator.RightUnique (Function.swap u.arena.Refers) :=
    fun _ _ _ hp hq => h.parent_unique hp hq
  rcases ReflTransGen.total_of_right_unique hunique (reflTransGen_swap.2 hn)
    (reflTransGen_swap.2 hm) with hnm | hmn
  · exact .inr (reflTransGen_swap.1 hnm)
  · exact .inl (reflTransGen_swap.1 hmn)

/-- Nodes whose parents do not lie below each other hold nothing in common. -/
theorem disjoint_extent (h : u.Forest) {n m : ExprId ⊕ StmtId} (hne : n ≠ m)
    (hn : ∀ p, u.arena.Refers p n → ¬ReflTransGen u.arena.Refers m p)
    (hm : ∀ p, u.arena.Refers p m → ¬ReflTransGen u.arena.Refers n p) :
    Disjoint (u.arena.extent [n]) (u.arena.extent [m]) := by
  rw [Set.disjoint_left]
  rintro x ⟨n', hn', hbelow⟩ ⟨m', hm', hbelow'⟩
  cases List.mem_singleton.1 hn'
  cases List.mem_singleton.1 hm'
  rcases h.below_total hbelow hbelow' with hnm | hmn
  · rcases ReflTransGen.cases_tail hnm with heq | ⟨p, hp, hrefers⟩
    · exact hne heq.symm
    · exact hm p hrefers hp
  · rcases ReflTransGen.cases_tail hmn with heq | ⟨p, hp, hrefers⟩
    · exact hne heq
    · exact hn p hrefers hp

/-- **Siblings are apart.** -/
theorem apart_children (h : u.Forest) (node : ExprId ⊕ StmtId) :
    u.Apart (u.arena.children node) := by
  have hbelow {c d : ExprId ⊕ StmtId} (hc : u.arena.Refers node c) (hd : u.arena.Refers node d)
      (p : ExprId ⊕ StmtId) (hp : u.arena.Refers p d) : ¬ReflTransGen u.arena.Refers c p := by
    intro hcp
    cases h.parent_unique hd hp
    exact h.acyclic.not_transGen node (.head' hc hcp)
  exact (nodup_children h.unshared node).pairwise_of_forall_ne fun c hc d hd hne =>
    h.disjoint_extent hne (hbelow hd hc) (hbelow hc hd)

/-- **Items are apart.** -/
theorem apart_items (h : u.Forest) : u.Apart (u.items.flatMap Item.children) := by
  refine (List.nodup_append'.1 h.unshared).1.pairwise_of_forall_ne fun c hc d hd hne => ?_
  obtain ⟨item, hitem, hchild⟩ := List.mem_flatMap.1 hc
  obtain ⟨item', hitem', hchild'⟩ := List.mem_flatMap.1 hd
  exact h.disjoint_extent hne (fun _ hp => absurd hp (h.not_refers_of_item hitem hchild))
    fun _ hp => absurd hp (h.not_refers_of_item hitem' hchild')

/-- An expression does not lie below its children. -/
theorem notMem_extent_children (h : u.Forest) {id : ExprId} {e : Expr}
    (get : u.arena.expr? id = some e) : id ∉ u.arena.extent (e.form.children.map .inl) := by
  rintro ⟨node, hnode, hbelow⟩
  refine h.acyclic.not_transGen (.inl id) (.head' ?_ hbelow)
  rw [Arena.Refers, Arena.children, get]
  exact hnode

end Forest
end ShaderUnit
end ShaderFront
