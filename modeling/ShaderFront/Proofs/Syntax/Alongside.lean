import ShaderFront.Proofs.Syntax.Forest
import ShaderFront.Proofs.Syntax.Traversal

/-!
# Two traversals side by side

The rule by which two runs are compared, of two transformers or over two arenas, that go through
the items and statements of one forest. A relation between moments of the two runs may say which
expressions have been gone through. If the second transformer keeps up with the first one wherever
an expression hangs on a statement or an item, and at each hook of a statement or an item, then it
keeps up with it over the whole run: where the first one does not fault the second one does not, and
the ends are related.

As the unit is a forest, no expression is gone through a second time. What is still ahead may
therefore be taken to be as it was at the start.
-/

namespace ShaderFront

/-- Started from related states, the second computation keeps up with the first one, which goes
through the expressions of an extent. A relation also sees what has been gone through before. -/
def Follows {S S' : Type} (Pre Post : Set ExprId → S → S' → Prop) (extent : Set ExprId)
    (f : S → Except Fault S) (g : S' → Except Fault S') : Prop :=
  ∀ V s s' t, Disjoint extent V → Pre V s s' → f s = .ok t →
    ∃ t', g s' = .ok t' ∧ Post (V ∪ extent) t t'

namespace Follows

variable {S S' α : Type} {Rel : Set ExprId → S → S' → Prop}

/-- An expression outside the extent stays ahead. -/
theorem ahead {extent : Set ExprId} {f : S → Except Fault S} {g : S' → Except Fault S'}
    (h : Follows Rel Rel extent f g) {id : ExprId} (hid : id ∉ extent) :
    Follows (fun V s s' => id ∉ V ∧ Rel V s s') (fun V s s' => id ∉ V ∧ Rel V s s') extent f g := by
  intro V s s' t hdisjoint hrel hrun
  obtain ⟨t', hrun', hrel'⟩ := h V s s' t hdisjoint hrel.2 hrun
  refine ⟨t', hrun', fun hmem => ?_, hrel'⟩
  exact hmem.elim hrel.1 hid

/-- Two loops over one list whose elements are apart. -/
theorem foldlM {f : S → α → Except Fault S} {g : S' → α → Except Fault S'} {l : List α}
    {extent : α → Set ExprId} (apart : l.Pairwise fun x y => Disjoint (extent x) (extent y))
    (step : ∀ x ∈ l, Follows Rel Rel (extent x) (fun s => f s x) fun s => g s x) :
    Follows Rel Rel {y | ∃ x ∈ l, y ∈ extent x} (fun s => l.foldlM f s)
      fun s => l.foldlM g s := by
  induction l with
  | nil =>
    intro V s s' t _ hrel hrun
    cases hrun
    exact ⟨s', rfl, by simpa using hrel⟩
  | cons x rest ih =>
    intro V s s' t hdisjoint hrel hrun
    obtain ⟨hx, hrest⟩ := List.pairwise_cons.1 apart
    simp only [List.foldlM_cons] at hrun ⊢
    obtain ⟨t₁, hfirst, hrun⟩ := of_bind_ok hrun
    have hfirst_sub : extent x ⊆ {y | ∃ z ∈ x :: rest, y ∈ extent z} :=
      fun y hy => ⟨x, List.mem_cons_self, hy⟩
    have hdisjoint₁ : Disjoint (extent x) V := hdisjoint.mono_left hfirst_sub
    obtain ⟨t₁', hfirst', hrel₁⟩ := step x List.mem_cons_self V s s' t₁ hdisjoint₁ hrel hfirst
    have hdisjoint₂ : Disjoint {y | ∃ z ∈ rest, y ∈ extent z} (V ∪ extent x) := by
      rw [Set.disjoint_left]
      rintro y ⟨z, hz, hy⟩ (hV | hyx)
      · exact Set.disjoint_left.1 hdisjoint ⟨z, List.mem_cons_of_mem _ hz, hy⟩ hV
      · exact Set.disjoint_left.1 (hx z hz) hyx hy
    obtain ⟨t', hrun', hrel'⟩ := ih hrest (fun z hz => step z (List.mem_cons_of_mem _ hz))
      (V ∪ extent x) t₁ t₁' t hdisjoint₂ hrel₁ hrun
    have hset : V ∪ extent x ∪ {y | ∃ z ∈ rest, y ∈ extent z} =
        V ∪ {y | ∃ z ∈ x :: rest, y ∈ extent z} := by
      ext y
      simp [or_assoc]
    exact ⟨t', bind_ok hfirst' hrun', hset ▸ hrel'⟩

end Follows

namespace Transformer

variable {σ σ' : Type} {r : Transformer σ} {r' : Transformer σ'} {u : ShaderUnit}
  {Rel Post : Set ExprId → Arena × σ → Arena × σ' → Prop}

/-- Going through an expression alongside another one that has the same children: it is enough to
keep up below the children, and to relate what is found when the two are left. -/
theorem follows_expr (forest : u.Forest) {depth depth' : Nat} {id id' : ExprId}
    (node : ∀ V s s', id ∉ V → Rel V s s' → s.1.expr? id = u.arena.expr? id ∧
      ∀ n, u.arena.expr? id = some n →
        ∃ n', s'.1.expr? id' = some n' ∧ n'.form.children = n.form.children)
    (children : ∀ c, u.arena.Child id c → Follows Rel Rel (u.arena.extent [.inl c])
      (r.transformExpr depth c) (r'.transformExpr depth' c))
    (leave : ∀ V s s' n out z, u.arena.expr? id = some n → id ∉ V →
      (∀ c ∈ n.form.children, c ∈ V) → Rel V s s' → r.leaveExpr s.1 id s.2 = .ok (out, z) →
      ∃ out' z', r'.leaveExpr s'.1 id' s'.2 = .ok (out', z') ∧
        Post (insert id V) (r.storeExpr id out s.1, z) (r'.storeExpr id' out' s'.1, z')) :
    Follows Rel Post (u.arena.extent [.inl id]) (r.transformExpr (depth + 1) id)
      (r'.transformExpr (depth' + 1) id') := by
  intro V s s' t hdisjoint hrel hrun
  have hfresh : id ∉ V := Arena.notMem_of_disjoint hdisjoint
  obtain ⟨hsame, hchildren⟩ := node V s s' hfresh hrel
  obtain ⟨n, hn, hrun⟩ := of_bind_ok hrun
  have get : u.arena.expr? id = some n := hsame ▸ Arena.expr?_of_ok hn
  obtain ⟨n', get', hform⟩ := hchildren n get
  obtain ⟨⟨a, z⟩, hfold, hrun⟩ := of_bind_ok hrun
  obtain ⟨⟨out, z'⟩, hleave, hrun⟩ := of_bind_ok hrun
  cases hrun
  have hextent : {y | ∃ c ∈ n.form.children, y ∈ u.arena.extent [.inl c]} =
      u.arena.extent (n.form.children.map .inl) := by
    ext y
    simp [Arena.extent]
  have hapart : n.form.children.Pairwise fun c d =>
      Disjoint (u.arena.extent [.inl c]) (u.arena.extent [.inl d]) := by
    have hall := forest.apart_children (.inl id)
    simpa only [ShaderUnit.Apart, Arena.children, get, List.pairwise_map] using hall
  have hinside : u.arena.extent [.inl id] =
      insert id (u.arena.extent (n.form.children.map .inl)) := Arena.extent_expr get
  have hbelow : Disjoint {y | ∃ c ∈ n.form.children, y ∈ u.arena.extent [.inl c]} V := by
    rw [hextent]
    exact hdisjoint.mono_left (hinside ▸ Set.subset_insert _ _)
  obtain ⟨⟨a', w⟩, hfold', hrel'⟩ := Follows.foldlM hapart
    (fun c hc => children c ⟨n, get, hc⟩) V s s' (a, z) hbelow hrel hfold
  rw [hextent] at hrel'
  have hleft : id ∉ V ∪ u.arena.extent (n.form.children.map .inl) :=
    fun hmem => hmem.elim hfresh (forest.notMem_extent_children get)
  have hseen : ∀ c ∈ n.form.children, c ∈ V ∪ u.arena.extent (n.form.children.map .inl) :=
    fun c hc => .inr ⟨.inl c, List.mem_map_of_mem hc, .refl⟩
  obtain ⟨out', w', hleave', hpost⟩ :=
    leave _ (a, z) (a', w) n out z' get hleft hseen hrel' hleave
  refine ⟨(r'.storeExpr id' out' a', w'), bind_ok (Arena.expr_eq_ok get') ?_, ?_⟩
  · rw [hform]
    exact bind_ok hfold' (bind_ok hleave' rfl)
  · rw [hinside, Set.union_insert]
    exact hpost

/-- Arenas of one size bound walks through them by the same depth. -/
theorem follows_exprDepth {id id' : ExprId} {extent : Set ExprId}
    (size : ∀ V s s', Rel V s s' → s'.1.exprs.size = s.1.exprs.size)
    (h : ∀ depth, Follows Rel Post extent (r.transformExpr depth id) (r'.transformExpr depth id')) :
    Follows Rel Post extent (fun s => r.transformExpr s.1.exprDepth id s)
      fun s => r'.transformExpr s.1.exprDepth id' s := by
  intro V s s' t hdisjoint hrel hrun
  have hdepth : s'.1.exprDepth = s.1.exprDepth := by
    rw [Arena.exprDepth, Arena.exprDepth, size V s s' hrel]
  simp only [hdepth] at hrun ⊢
  exact h s.1.exprDepth V s s' t hdisjoint hrel hrun

/-- A run alongside itself: what is kept each time an expression below one is left is kept when that
one is gone through. -/
theorem keeps_expr (forest : u.Forest) {I : Set ExprId → Arena × σ → Prop} {root : ExprId}
    (node : ∀ V s id, id ∉ V → I V s → s.1.expr? id = u.arena.expr? id)
    (leave : ∀ V s id n out z, u.arena.Below root id → u.arena.expr? id = some n → id ∉ V →
      (∀ c ∈ n.form.children, c ∈ V) → I V s → r.leaveExpr s.1 id s.2 = .ok (out, z) →
      I (insert id V) (r.storeExpr id out s.1, z))
    (depth : Nat) {id : ExprId} (hid : u.arena.Below root id) {V : Set ExprId} {s t : Arena × σ}
    (hdisjoint : Disjoint (u.arena.extent [.inl id]) V) (h : I V s)
    (hrun : r.transformExpr depth id s = .ok t) : I (V ∪ u.arena.extent [.inl id]) t := by
  have hfollows : Follows (fun V s s' => s' = s ∧ I V s) (fun V s s' => s' = s ∧ I V s)
      (u.arena.extent [.inl id]) (r.transformExpr depth id) (r.transformExpr depth id) := by
    clear hdisjoint h hrun
    induction depth generalizing id with
    | zero =>
      intro V s s' t _ _ hrun
      cases hrun
    | succ depth ih =>
      refine follows_expr forest (fun V s s' hnew h => ?_) (fun c hc => ih (hid.tail hc)) ?_
      · obtain ⟨rfl, h⟩ := h
        have hsame := node V s' id hnew h
        exact ⟨hsame, fun n get => ⟨n, hsame.trans get, rfl⟩⟩
      · rintro V s s' n out z get hnew hchildren ⟨rfl, h⟩ hleave
        exact ⟨out, z, hleave, rfl, leave V s' id n out z hid get hnew hchildren h hleave⟩
  obtain ⟨t', hrun', heq, hkept⟩ := hfollows V s s t hdisjoint ⟨rfl, h⟩ hrun
  exact hkept

/-- At each hook of a statement or an item, and wherever an expression hangs on one of them, the
second transformer keeps up with the first one. -/
structure Alongside (r : Transformer σ) (r' : Transformer σ') (u : ShaderUnit)
    (Rel : Set ExprId → Arena × σ → Arena × σ' → Prop) : Prop where
  stmts {V s s'} : Rel V s s' → s.1.stmts = u.arena.stmts ∧ s'.1.stmts = u.arena.stmts
  expr {id} : u.Root id → Follows Rel Rel (u.arena.extent [.inl id])
    (fun s => r.transformExpr s.1.exprDepth id s) fun s => r'.transformExpr s.1.exprDepth id s
  enterStmt {V s s' id z} : u.ReachesStmt id → Rel V s s' → r.enterStmt s.1 id s.2 = .ok z →
    ∃ z', r'.enterStmt s'.1 id s'.2 = .ok z' ∧ Rel V (s.1, z) (s'.1, z')
  leaveStmt {V s s' id stmt out z} : u.ReachesStmt id → u.arena.stmt? id = some stmt →
    (∀ e, .inl e ∈ stmt.form.children → u.Root e ∧ e ∈ V) → Rel V s s' →
    r.leaveStmt s.1 id s.2 = .ok (out, z) →
    ∃ out' z', r'.leaveStmt s'.1 id s'.2 = .ok (out', z') ∧
      Rel V (r.storeStmt id out s.1, z) (r'.storeStmt id out' s'.1, z')
  enterItem {V s s' item z} : item ∈ u.items → Rel V s s' → r.enterItem s.1 item s.2 = .ok z →
    ∃ z', r'.enterItem s'.1 item s'.2 = .ok z' ∧ Rel V (s.1, z) (s'.1, z')
  leaveItem {V s s' item z} : item ∈ u.items →
    (∀ e, .inl e ∈ item.children → u.Root e ∧ e ∈ V) → Rel V s s' →
    r.leaveItem s.1 item s.2 = .ok z →
    ∃ z', r'.leaveItem s'.1 item s'.2 = .ok z' ∧ Rel V (s.1, z) (s'.1, z')

namespace Alongside

/-- The children of a statement or an item, one after the other. -/
theorem children (k : r.Alongside r' u Rel)
    (walk : StmtId → Arena × σ → Except Fault (Arena × σ))
    (walk' : StmtId → Arena × σ' → Except Fault (Arena × σ')) {l : List (ExprId ⊕ StmtId)}
    (apart : u.Apart l) (exprs : ∀ e, .inl e ∈ l → u.Root e)
    (stmts : ∀ id, .inr id ∈ l →
      Follows Rel Rel (u.arena.extent [.inr id]) (walk id) (walk' id)) :
    Follows Rel Rel (u.arena.extent l) (fun s => l.foldlM (r.transformChild walk) s)
      fun s => l.foldlM (r'.transformChild walk') s := by
  have hextent : u.arena.extent l = {y | ∃ child ∈ l, y ∈ u.arena.extent [child]} := by
    ext y
    simp [Arena.extent]
  rw [hextent]
  refine Follows.foldlM apart fun child hchild => ?_
  cases child with
  | inl e => exact k.expr (exprs e hchild)
  | inr id => exact stmts id hchild

theorem stmt (k : r.Alongside r' u Rel) (forest : u.Forest) (depth : Nat) {id : StmtId}
    (hid : u.ReachesStmt id) : Follows Rel Rel (u.arena.extent [.inr id])
      (r.transformStmt depth id) (r'.transformStmt depth id) := by
  induction depth generalizing id with
  | zero =>
    intro V s s' t _ _ hrun
    cases hrun
  | succ depth ih =>
    rintro V ⟨a, s⟩ ⟨a', s'⟩ t hdisjoint hrel hrun
    obtain ⟨hstmts, hstmts'⟩ := k.stmts hrel
    obtain ⟨stmt, hstmt, hrun⟩ := of_bind_ok hrun
    have get : u.arena.stmt? id = some stmt :=
      (Arena.stmt?_congr hstmts id).symm.trans (Arena.stmt?_of_ok hstmt)
    obtain ⟨z, henter, hrun⟩ := of_bind_ok hrun
    obtain ⟨⟨b, w⟩, hfold, hrun⟩ := of_bind_ok hrun
    obtain ⟨⟨out, w'⟩, hleave, hrun⟩ := of_bind_ok hrun
    cases hrun
    have hroot (e : ExprId) (he : .inl e ∈ stmt.form.children) : u.Root e :=
      hid.root (.stmt get he (.expr e))
    have hapart : u.Apart stmt.form.children := by
      have hall := forest.apart_children (.inr id)
      rwa [Arena.children, get] at hall
    rw [Arena.extent_stmt get] at hdisjoint ⊢
    obtain ⟨z', henter', hentered⟩ := k.enterStmt hid hrel henter
    obtain ⟨⟨b', v⟩, hfold', hfolded⟩ := k.children _ _ hapart hroot
      (fun c hc => ih (.child hid ⟨stmt, get, hc⟩)) V _ (a', z') _ hdisjoint hentered hfold
    have hseen (e : ExprId) (he : .inl e ∈ stmt.form.children) :
        u.Root e ∧ e ∈ V ∪ u.arena.extent stmt.form.children :=
      ⟨hroot e he, .inr ⟨.inl e, he, .refl⟩⟩
    obtain ⟨out', v', hleave', hleft⟩ := k.leaveStmt hid get hseen hfolded hleave
    have get' : a'.stmt? id = some stmt := (Arena.stmt?_congr hstmts' id).trans get
    exact ⟨_, bind_ok (Arena.stmt_eq_ok get')
      (bind_ok henter' (bind_ok hfold' (bind_ok hleave' rfl))), hleft⟩

theorem item (k : r.Alongside r' u Rel) (forest : u.Forest) {item : Item}
    (hitem : item ∈ u.items) :
    Follows Rel Rel (u.arena.extent item.children) (r.transformItem item)
      (r'.transformItem item) := by
  intro V s s' t hdisjoint hrel hrun
  obtain ⟨z, henter, hrun⟩ := of_bind_ok hrun
  obtain ⟨⟨b, w⟩, hfold, hrun⟩ := of_bind_ok hrun
  obtain ⟨w', hleave, hrun⟩ := of_bind_ok hrun
  cases hrun
  have hroot (e : ExprId) (he : .inl e ∈ item.children) : u.Root e :=
    ⟨item, hitem, _, he, .expr e⟩
  have hapart : u.Apart item.children := (List.pairwise_flatMap.1 forest.apart_items).1 item hitem
  have hdepth {V : Set ExprId} {s : Arena × σ} {s' : Arena × σ'} (h : Rel V s s') :
      s.1.stmtDepth = u.arena.stmtDepth ∧ s'.1.stmtDepth = u.arena.stmtDepth := by
    obtain ⟨hstmts, hstmts'⟩ := k.stmts h
    simp only [Arena.stmtDepth, hstmts, hstmts', and_self]
  have hstmt (id : StmtId) (hid : .inr id ∈ item.children) :
      Follows Rel Rel (u.arena.extent [.inr id]) (fun s => r.transformStmt s.1.stmtDepth id s)
        fun s => r'.transformStmt s.1.stmtDepth id s := by
    intro V s s' t hdisjoint hrel hrun
    simp only [(hdepth hrel).1, (hdepth hrel).2] at hrun ⊢
    exact k.stmt forest _ (.item hitem hid) V s s' t hdisjoint hrel hrun
  obtain ⟨z', henter', hentered⟩ := k.enterItem hitem hrel henter
  obtain ⟨⟨b', v⟩, hfold', hfolded⟩ := k.children
    (fun id s => r.transformStmt s.1.stmtDepth id s)
    (fun id s => r'.transformStmt s.1.stmtDepth id s)
    hapart hroot hstmt V _ (s'.1, z') _ hdisjoint hentered hfold
  obtain ⟨v', hleave', hleft⟩ := k.leaveItem hitem
    (fun e he => ⟨hroot e he, .inr ⟨.inl e, he, .refl⟩⟩) hfolded hleave
  exact ⟨_, bind_ok henter' (bind_ok hfold' (bind_ok hleave' rfl)), hleft⟩

/-- **The second run keeps up with the first one.** At the end all that is reached has been gone
through. -/
theorem run (k : r.Alongside r' u Rel) (forest : u.Forest) {s : σ} {a' : Arena} {s' : σ'}
    (h : Rel ∅ (u.arena, s) (a', s')) {t : Arena × σ}
    (hrun : r.run u s = .ok ({ u with arena := t.1 }, t.2)) :
    ∃ t', r'.run { u with arena := a' } s' = .ok ({ u with arena := t'.1 }, t'.2) ∧
      Rel {id | u.Reaches id} t t' := by
  obtain ⟨b, w⟩ := t
  obtain ⟨⟨b', w'⟩, hfold, hrun⟩ := of_bind_ok hrun
  cases hrun
  have hapart : u.items.Pairwise fun i j =>
      Disjoint (u.arena.extent i.children) (u.arena.extent j.children) := by
    refine (List.pairwise_flatMap.1 forest.apart_items).2.imp fun {i j} hall => ?_
    rw [Set.disjoint_left]
    rintro x ⟨c, hc, hx⟩ ⟨d, hd, hx'⟩
    exact Set.disjoint_left.1 (hall c hc d hd) ⟨c, List.mem_singleton_self c, hx⟩
      ⟨d, List.mem_singleton_self d, hx'⟩
  obtain ⟨t', hfold', hrel⟩ := Follows.foldlM hapart (fun item hitem => k.item forest hitem) ∅
    (u.arena, s) (a', s') (b, w) (Set.disjoint_empty _) h hfold
  refine ⟨t', bind_ok hfold' rfl, ?_⟩
  have hset : ∅ ∪ {x | ∃ item ∈ u.items, x ∈ u.arena.extent item.children} =
      {x | u.Reaches x} := by
    ext x
    simp only [Set.empty_union, Set.mem_ofPred_eq, ← ShaderUnit.mem_extent_items, Arena.extent,
      List.mem_flatMap]
    constructor
    · rintro ⟨item, hitem, node, hnode, hx⟩
      exact ⟨node, ⟨item, hitem, hnode⟩, hx⟩
    · rintro ⟨node, ⟨item, hitem, hnode⟩, hx⟩
      exact ⟨item, hitem, node, hnode, hx⟩
  exact hset ▸ hrel

end Alongside
end Transformer
end ShaderFront
