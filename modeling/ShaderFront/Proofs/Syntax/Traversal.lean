import ShaderFront.Proofs.Syntax.Reach
import ShaderFront.Syntax.Transform

/-!
# What a traversal keeps

The rule by which facts about a run of a transformer are proved. An `Invariant` holds at every
moment, says how a moment may follow another one, and when an expression counts as done.
`Transformer.Keeps` asks for the invariant of each hook: it must not fault, what it leaves follows
what it found, and an expression that is left is done if its children are. Then the run does not
fault, and every expression below an item is done at its end.

A hook that stores a node changes the arena that the traversal is going through. The invariant has
to say that the children found there are still of lower rank, so the slots of the nodes that are
being gone through stay as they are until they are left.
-/

namespace ShaderFront

/-- What holds at each moment of a traversal, and which moments may follow which. -/
structure Invariant (σ : Type) where
  Holds : Arena × σ → Prop
  /-- The second moment may come after the first one. -/
  Before : Arena × σ → Arena × σ → Prop
  Done : ExprId → Arena × σ → Prop

/-- The second moment comes after the first one, and the invariant holds. -/
structure Invariant.Leads {σ : Type} (I : Invariant σ) (s t : Arena × σ) : Prop where
  holds : I.Holds t
  before : I.Before s t

/-- Each hook of the transformer keeps the invariant on its way through the unit. -/
structure Transformer.Keeps {σ : Type} (r : Transformer σ) (u : ShaderUnit)
    (rank : u.arena.Ranking) (I : Invariant σ) : Prop where
  refl (s) : I.Before s s
  trans {s t v} : I.Before s t → I.Before t v → I.Before s v
  done {s t id} : I.Before s t → I.Done id s → I.Done id t
  size {s} : I.Holds s → s.1.exprs.size = u.arena.exprs.size
  stmts {s} : I.Holds s → s.1.stmts = u.arena.stmts
  /-- The children found at a node are below it in the unit. -/
  expr {s id} : I.Holds s → u.Reaches id → ∃ e, s.1.expr? id = some e ∧
    ∀ c ∈ e.form.children, u.Reaches c ∧ rank.expr c < rank.expr id
  leaveExpr {s id e} : I.Holds s → u.Reaches id → s.1.expr? id = some e →
    (∀ c ∈ e.form.children, I.Done c s) →
    ∃ out s', r.leaveExpr s.1 id s.2 = .ok (out, s') ∧
      I.Leads s (r.storeExpr id out s.1, s') ∧ I.Done id (r.storeExpr id out s.1, s')
  enterStmt {s id stmt} : I.Holds s → u.ReachesStmt id → s.1.stmt? id = some stmt →
    ∃ s', r.enterStmt s.1 id s.2 = .ok s' ∧ I.Leads s (s.1, s')
  leaveStmt {s id stmt} : I.Holds s → u.ReachesStmt id → s.1.stmt? id = some stmt →
    (∀ e, .inl e ∈ stmt.form.children → u.Reaches e ∧ I.Done e s) →
    ∃ out s', r.leaveStmt s.1 id s.2 = .ok (out, s') ∧
      I.Leads s (r.storeStmt id out s.1, s')
  enterItem {s item} : I.Holds s → item ∈ u.items →
    ∃ s', r.enterItem s.1 item s.2 = .ok s' ∧ I.Leads s (s.1, s')
  leaveItem {s item} : I.Holds s → item ∈ u.items →
    (∀ e, .inl e ∈ item.children → u.Reaches e ∧ I.Done e s) →
    ∃ s', r.leaveItem s.1 item s.2 = .ok s' ∧ I.Leads s (s.1, s')

/-- Both invariants at once. -/
def Invariant.and {σ : Type} (I J : Invariant σ) : Invariant σ where
  Holds s := I.Holds s ∧ J.Holds s
  Before s t := I.Before s t ∧ J.Before s t
  Done id s := I.Done id s ∧ J.Done id s

theorem Invariant.Leads.and {σ : Type} {I J : Invariant σ} {s t : Arena × σ} (h : I.Leads s t)
    (h' : J.Leads s t) : (I.and J).Leads s t := ⟨⟨h.holds, h'.holds⟩, h.before, h'.before⟩

/-- Where `I` holds, each hook that does not fault keeps `J`. -/
structure Transformer.Preserves {σ : Type} (r : Transformer σ) (u : ShaderUnit)
    (I J : Invariant σ) : Prop where
  refl (s) : J.Before s s
  trans {s t v} : J.Before s t → J.Before t v → J.Before s v
  done {s t id} : J.Before s t → J.Done id s → J.Done id t
  leaveExpr {s id e out s'} : I.Holds s → J.Holds s → u.Reaches id → s.1.expr? id = some e →
    (∀ c ∈ e.form.children, J.Done c s) → r.leaveExpr s.1 id s.2 = .ok (out, s') →
    J.Leads s (r.storeExpr id out s.1, s') ∧ J.Done id (r.storeExpr id out s.1, s')
  enterStmt {s id stmt s'} : I.Holds s → J.Holds s → u.ReachesStmt id →
    s.1.stmt? id = some stmt → r.enterStmt s.1 id s.2 = .ok s' → J.Leads s (s.1, s')
  leaveStmt {s id stmt out s'} : I.Holds s → J.Holds s → u.ReachesStmt id →
    s.1.stmt? id = some stmt → (∀ e, .inl e ∈ stmt.form.children → u.Reaches e ∧ J.Done e s) →
    r.leaveStmt s.1 id s.2 = .ok (out, s') → J.Leads s (r.storeStmt id out s.1, s')
  enterItem {s item s'} : I.Holds s → J.Holds s → item ∈ u.items →
    r.enterItem s.1 item s.2 = .ok s' → J.Leads s (s.1, s')
  leaveItem {s item s'} : I.Holds s → J.Holds s → item ∈ u.items →
    (∀ e, .inl e ∈ item.children → u.Reaches e ∧ J.Done e s) →
    r.leaveItem s.1 item s.2 = .ok s' → J.Leads s (s.1, s')

/-- A loop over a list whose steps do not fail: `Holds` is kept, `Before` relates the states along
the way, and what a step has done stays done. -/
theorem foldlM_ok {S α ε : Type} {f : S → α → Except ε S} {l : List α} (Holds : S → Prop)
    (Before : S → S → Prop) (Done : α → S → Prop) (refl : ∀ s, Before s s)
    (trans : ∀ s t v, Before s t → Before t v → Before s v)
    (done : ∀ s t x, Before s t → Done x s → Done x t)
    (step : ∀ x ∈ l, ∀ s, Holds s → ∃ t, f s x = .ok t ∧ Holds t ∧ Before s t ∧ Done x t) :
    ∀ s, Holds s → ∃ t, l.foldlM f s = .ok t ∧ Holds t ∧ Before s t ∧ ∀ x ∈ l, Done x t := by
  induction l with
  | nil => exact fun s hs => ⟨s, rfl, hs, refl s, by simp⟩
  | cons x rest ih =>
    intro s hs
    obtain ⟨t, hrun, ht, hst, hx⟩ := step x List.mem_cons_self s hs
    obtain ⟨v, hrest, hv, htv, hall⟩ := ih (fun y hy => step y (List.mem_cons_of_mem _ hy)) t ht
    refine ⟨v, ?_, hv, trans s t v hst htv, fun y hy => ?_⟩
    · rw [List.foldlM_cons, hrun]
      exact hrest
    · rcases List.mem_cons.1 hy with rfl | hmem
      · exact done t v y htv hx
      · exact hall y hmem

/-- The first step of a computation, if it does not fail. -/
theorem bind_ok {ε α β : Type} {x : Except ε α} {a : α} (hx : x = .ok a) {f : α → Except ε β}
    {y : Except ε β} (hf : f a = y) : (x >>= f) = y := by
  rw [hx]
  exact hf

/-- A computation that did not fail, step by step. -/
theorem of_bind_ok {ε α β : Type} {x : Except ε α} {f : α → Except ε β} {y : β}
    (h : (x >>= f) = .ok y) : ∃ a, x = .ok a ∧ f a = .ok y := by
  cases x with
  | error e => cases h
  | ok a => exact ⟨a, rfl, h⟩

theorem of_map_ok {ε α β : Type} {x : Except ε α} {f : α → β} {y : β} (h : x.map f = .ok y) :
    ∃ a, x = .ok a ∧ f a = y := by
  cases x with
  | error e => cases h
  | ok a => exact ⟨a, rfl, Except.ok.inj h⟩

namespace Transformer

variable {σ : Type} {r : Transformer σ}

/-- Goes through a child of a statement or an item; `walk` goes through a statement. -/
def transformChild (r : Transformer σ) (walk : StmtId → Arena × σ → Except Fault (Arena × σ))
    (s : Arena × σ) : ExprId ⊕ StmtId → Except Fault (Arena × σ)
  | .inl e => r.transformExpr s.1.exprDepth e s
  | .inr id => walk id s

/-- Leaving an expression stores in no other slot. -/
theorem expr?_storeExpr_ne {id other : ExprId} (h : other ≠ id) (out : Option Expr) (a : Arena) :
    (r.storeExpr id out a).expr? other = a.expr? other := by
  unfold storeExpr
  split
  · split
    · exact a.expr?_setExpr_ne id other _ h
    · rfl
  · rfl

namespace Keeps

variable {u : ShaderUnit} {rank : u.arena.Ranking} {I : Invariant σ}

/-- Only slots of lower rank than that of the node differ. -/
def SameAbove (rank : ExprId → Nat) (bound : Nat) (s t : Arena × σ) : Prop :=
  ∀ x, bound < rank x → t.1.expr? x = s.1.expr? x

theorem transformExpr (k : r.Keeps u rank I) (depth : Nat) {id : ExprId} {s : Arena × σ}
    (h : I.Holds s) (hid : u.Reaches id) (hdepth : rank.expr id < depth) :
    ∃ t, r.transformExpr depth id s = .ok t ∧ I.Leads s t ∧ I.Done id t ∧
      SameAbove rank.expr (rank.expr id) s t := by
  induction depth generalizing id s with
  | zero => exact absurd hdepth (Nat.not_lt_zero _)
  | succ depth ih =>
    obtain ⟨e, he, hchildren⟩ := k.expr h hid
    -- The children leave every slot alone whose rank is not below that of the node.
    have hfold := foldlM_ok (f := fun s c => r.transformExpr depth c s) (l := e.form.children)
      I.Holds (fun s t => I.Before s t ∧ ∀ x, rank.expr id ≤ rank.expr x →
        t.1.expr? x = s.1.expr? x)
      I.Done (fun s => ⟨k.refl s, fun _ _ => rfl⟩)
      (fun s t v hst htv => ⟨k.trans hst.1 htv.1, fun x hx => (htv.2 x hx).trans (hst.2 x hx)⟩)
      (fun s t x hst => k.done hst.1) ?_ s h
    · obtain ⟨t, hrun, ht, ⟨hst, hsame⟩, hdone⟩ := hfold
      have hstill : t.1.expr? id = some e := by rw [hsame id (Nat.le_refl _), he]
      obtain ⟨out, s', hleave, hleads, hid'⟩ := k.leaveExpr ht hid hstill hdone
      refine ⟨_, ?_, ⟨hleads.holds, k.trans hst hleads.before⟩, hid', fun x hx => ?_⟩
      · exact bind_ok (Arena.expr_eq_ok he) (bind_ok hrun (bind_ok hleave rfl))
      · have hne : x ≠ id := fun heq => Nat.lt_irrefl _ (heq ▸ hx)
        rw [expr?_storeExpr_ne hne, hsame x (Nat.le_of_lt hx)]
    · intro c hc s hs
      obtain ⟨hreach, hrank⟩ := hchildren c hc
      obtain ⟨t, hrun, hleads, hdone, hsame⟩ := ih hs hreach (by omega)
      exact ⟨t, hrun, hleads.holds, ⟨hleads.before, fun x hx => hsame x (by omega)⟩, hdone⟩

/-- Going through the children of a statement or an item. -/
theorem transformChildren (k : r.Keeps u rank I)
    (walk : StmtId → Arena × σ → Except Fault (Arena × σ)) {l : List (ExprId ⊕ StmtId)}
    (exprs : ∀ e, .inl e ∈ l → u.Reaches e)
    (stmts : ∀ id, .inr id ∈ l → ∀ s, I.Holds s → ∃ t, walk id s = .ok t ∧ I.Leads s t ∧
      ∀ e, u.arena.Carries (.inr id) e → I.Done e t) {s : Arena × σ} (h : I.Holds s) :
    ∃ t, l.foldlM (r.transformChild walk) s = .ok t ∧ I.Leads s t ∧
      ∀ child ∈ l, ∀ e, u.arena.Carries child e → I.Done e t := by
  have hstep : ∀ child ∈ l, ∀ s, I.Holds s → ∃ t, r.transformChild walk s child = .ok t ∧
      I.Holds t ∧ I.Before s t ∧ ∀ e, u.arena.Carries child e → I.Done e t := by
    intro child hchild s hs
    cases child with
    | inl e =>
      have hdepth : rank.expr e < s.1.exprDepth := by
        have hle := rank.expr_le e
        rw [Arena.exprDepth, k.size hs]
        omega
      obtain ⟨t, hrun, hleads, hdone, -⟩ := k.transformExpr _ hs (exprs e hchild) hdepth
      refine ⟨t, hrun, hleads.holds, hleads.before, fun x hx => ?_⟩
      cases hx
      exact hdone
    | inr id =>
      obtain ⟨t, hrun, hleads, hdone⟩ := stmts id hchild s hs
      exact ⟨t, hrun, hleads.holds, hleads.before, hdone⟩
  obtain ⟨t, hrun, ht, hst, hdone⟩ := foldlM_ok I.Holds I.Before
    (fun child t => ∀ e, u.arena.Carries child e → I.Done e t) k.refl (fun _ _ _ => k.trans)
    (fun _ _ _ hst hx e he => k.done hst (hx e he)) hstep s h
  exact ⟨t, hrun, ⟨ht, hst⟩, hdone⟩

theorem transformStmt (k : r.Keeps u rank I) (wf : u.WellFormed) (depth : Nat) {id : StmtId}
    {s : Arena × σ} (h : I.Holds s) (hid : u.ReachesStmt id) (hdepth : rank.stmt id < depth) :
    ∃ t, r.transformStmt depth id s = .ok t ∧ I.Leads s t ∧
      ∀ e, u.arena.Carries (.inr id) e → I.Done e t := by
  induction depth generalizing id s with
  | zero => exact absurd hdepth (Nat.not_lt_zero _)
  | succ depth ih =>
    obtain ⟨stmt, hstmt⟩ := (hid.has wf).stmt?
    have hget {s : Arena × σ} (hs : I.Holds s) : s.1.stmt? id = some stmt :=
      (Arena.stmt?_congr (k.stmts hs) id).trans hstmt
    obtain ⟨s₁, henter, hentered⟩ := k.enterStmt h hid (hget h)
    have hexprs (e : ExprId) (he : .inl e ∈ stmt.form.children) : u.Reaches e :=
      (hid.root (.stmt hstmt he (.expr e))).reaches
    obtain ⟨t, hrun, hleads, hdone⟩ := k.transformChildren
      (fun id s => r.transformStmt depth id s) hexprs (fun c hc s hs => by
        have hedge : u.arena.ChildStmt id c := ⟨stmt, hstmt, hc⟩
        have hrank := rank.stmt_child id c hedge
        exact ih hs (.child hid hedge) (by omega)) hentered.holds
    obtain ⟨out, s', hleave, hleft⟩ := k.leaveStmt hleads.holds hid (hget hleads.holds)
      fun e he => ⟨hexprs e he, hdone _ he e (.expr e)⟩
    refine ⟨_, ?_, ⟨hleft.holds, k.trans hentered.before (k.trans hleads.before hleft.before)⟩,
      fun e he => ?_⟩
    · exact bind_ok (Arena.stmt_eq_ok (hget h)) (bind_ok henter (bind_ok hrun (bind_ok hleave rfl)))
    · cases he with
      | stmt get mem rest =>
        cases get.symm.trans hstmt
        exact k.done hleft.before (hdone _ mem e rest)

theorem transformItem (k : r.Keeps u rank I) (wf : u.WellFormed) {item : Item} {s : Arena × σ}
    (h : I.Holds s) (hitem : item ∈ u.items) :
    ∃ t, r.transformItem item s = .ok t ∧ I.Leads s t ∧
      ∀ child ∈ item.children, ∀ e, u.arena.Carries child e → I.Done e t := by
  obtain ⟨s₁, henter, hentered⟩ := k.enterItem h hitem
  have hexprs (e : ExprId) (he : .inl e ∈ item.children) : u.Reaches e :=
    ShaderUnit.Root.reaches ⟨item, hitem, _, he, .expr e⟩
  obtain ⟨t, hrun, hleads, hdone⟩ := k.transformChildren
    (fun id s => r.transformStmt s.1.stmtDepth id s) hexprs (fun c hc s hs => by
      have hdepth : rank.stmt c < s.1.stmtDepth := by
        have hle := rank.stmt_le c
        rw [Arena.stmtDepth, k.stmts hs]
        omega
      exact k.transformStmt wf _ hs (.item hitem hc) hdepth) hentered.holds
  obtain ⟨s', hleave, hleft⟩ := k.leaveItem hleads.holds hitem
    fun e he => ⟨hexprs e he, hdone _ he e (.expr e)⟩
  refine ⟨_, ?_, ⟨hleft.holds, k.trans hentered.before (k.trans hleads.before hleft.before)⟩,
    fun child hchild e he => k.done hleft.before (hdone child hchild e he)⟩
  exact bind_ok henter (bind_ok hrun (bind_ok hleave rfl))

/-- **A run keeps the invariant**, does not fault, and leaves every expression below an item
done. -/
theorem run (k : r.Keeps u rank I) (wf : u.WellFormed) {s : σ} (h : I.Holds (u.arena, s)) :
    ∃ t, r.run u s = .ok ({ u with arena := t.1 }, t.2) ∧ I.Leads (u.arena, s) t ∧
      ∀ id, u.Root id → I.Done id t := by
  obtain ⟨t, hrun, ht, hst, hdone⟩ := foldlM_ok (l := u.items) I.Holds I.Before
    (fun item t => ∀ child ∈ item.children, ∀ e, u.arena.Carries child e → I.Done e t) k.refl
    (fun _ _ _ => k.trans) (fun _ _ _ hst hx c hc e he => k.done hst (hx c hc e he))
    (fun item hitem s hs => by
      obtain ⟨t, hrun, hleads, hdone⟩ := k.transformItem wf hs hitem
      exact ⟨t, hrun, hleads.holds, hleads.before, hdone⟩) (u.arena, s) h
  refine ⟨t, ?_, ⟨ht, hst⟩, fun id ⟨item, hitem, child, hchild, he⟩ =>
    hdone item hitem child hchild id he⟩
  exact bind_ok hrun rfl

/-- A second invariant is kept along with one that is kept. -/
theorem and {J : Invariant σ} (k : r.Keeps u rank I) (p : r.Preserves u I J) :
    r.Keeps u rank (I.and J) where
  refl s := ⟨k.refl s, p.refl s⟩
  trans hst htv := ⟨k.trans hst.1 htv.1, p.trans hst.2 htv.2⟩
  done hst hdone := ⟨k.done hst.1 hdone.1, p.done hst.2 hdone.2⟩
  size h := k.size h.1
  stmts h := k.stmts h.1
  expr h hid := k.expr h.1 hid
  leaveExpr h hid get hdone := by
    obtain ⟨out, s', hrun, hleads, hid'⟩ := k.leaveExpr h.1 hid get fun c hc => (hdone c hc).1
    obtain ⟨hleads', hid''⟩ := p.leaveExpr h.1 h.2 hid get (fun c hc => (hdone c hc).2) hrun
    exact ⟨out, s', hrun, hleads.and hleads', hid', hid''⟩
  enterStmt h hid get := by
    obtain ⟨s', hrun, hleads⟩ := k.enterStmt h.1 hid get
    exact ⟨s', hrun, hleads.and (p.enterStmt h.1 h.2 hid get hrun)⟩
  leaveStmt h hid get hform := by
    obtain ⟨out, s', hrun, hleads⟩ :=
      k.leaveStmt h.1 hid get fun e he => ⟨(hform e he).1, (hform e he).2.1⟩
    have hleads' :=
      p.leaveStmt h.1 h.2 hid get (fun e he => ⟨(hform e he).1, (hform e he).2.2⟩) hrun
    exact ⟨out, s', hrun, hleads.and hleads'⟩
  enterItem h hitem := by
    obtain ⟨s', hrun, hleads⟩ := k.enterItem h.1 hitem
    exact ⟨s', hrun, hleads.and (p.enterItem h.1 h.2 hitem hrun)⟩
  leaveItem h hitem hform := by
    obtain ⟨s', hrun, hleads⟩ :=
      k.leaveItem h.1 hitem fun e he => ⟨(hform e he).1, (hform e he).2.1⟩
    have hleads' := p.leaveItem h.1 h.2 hitem (fun e he => ⟨(hform e he).1, (hform e he).2.2⟩) hrun
    exact ⟨s', hrun, hleads.and hleads'⟩

end Keeps
end Transformer
end ShaderFront
