import ShaderFront.Proofs.Syntax.Course

/-!
# What a run leaves alone

A run of a transformer stores nodes in slots that are there, and in no others: it adds none and
takes none away, and items and file are out of its reach. Slots of a sort that the mode leaves out
stay as they are. A slot of the other sort holds the node that its hook gave last, or its first one
if the hook gave none; nodes may be shared, so that one slot is left and stored to many times.
-/

namespace ShaderFront

open Transformer

/-- What the slot of a node holds. -/
def Arena.slot? (a : Arena) : ExprId ⊕ StmtId → Option (Expr ⊕ Stmt)
  | .inl id => (a.expr? id).map .inl
  | .inr id => (a.stmt? id).map .inr

/-- Whether replacements of nodes of this sort are stored. -/
def TransformMode.stores (m : TransformMode) : ExprId ⊕ StmtId → Bool
  | .inl _ => m.exprs
  | .inr _ => m.stmts

namespace Transformer

variable {σ : Type} (r : Transformer σ)

/-- The node that is given to replace a node when it is left. -/
def replacement? (a : Arena) (s : σ) : ExprId ⊕ StmtId → Option (Expr ⊕ Stmt)
  | .inl id => ((r.leaveExpr a id s).toOption.bind (·.1)).map .inl
  | .inr id => ((r.leaveStmt a id s).toOption.bind (·.1)).map .inr

/-- The node that is given to replace a node at a step, if the step leaves that node. -/
def given (node : ExprId ⊕ StmtId) (step : Step σ) : Option (Expr ⊕ Stmt) :=
  if step.event = .leave node then r.replacement? step.arena step.before node else none

/-- The node that was given last to replace a node. -/
def lastGiven (node : ExprId ⊕ StmtId) (steps : List (Step σ)) : Option (Expr ⊕ Stmt) :=
  steps.reverse.findSome? (r.given node)

/-- How an arena differs from the one before some steps. -/
structure Frame (a : Arena) (steps : List (Step σ)) (b : Arena) : Prop where
  exprs : b.exprs.size = a.exprs.size
  stmts : b.stmts.size = a.stmts.size
  slot : ∀ node, a.Has node → b.slot? node =
    if r.mode.stores node then (r.lastGiven node steps).or (a.slot? node) else a.slot? node

variable {r}

theorem lastGiven_snoc (node : ExprId ⊕ StmtId) (steps : List (Step σ)) (step : Step σ) :
    r.lastGiven node (steps ++ [step]) = (r.given node step).or (r.lastGiven node steps) :=
  findSome?_reverse_snoc ..

/-- The last node that is given is given at a step after which none is. -/
theorem lastGiven_eq_some {node : ExprId ⊕ StmtId} {steps : List (Step σ)} {n : Expr ⊕ Stmt} :
    r.lastGiven node steps = some n ↔ ∃ before step after, steps = before ++ step :: after ∧
      r.given node step = some n ∧ ∀ later ∈ after, r.given node later = none := by
  rw [lastGiven, List.findSome?_eq_some_iff]
  constructor
  · rintro ⟨after, step, before, heq, hgiven, hnone⟩
    refine ⟨before.reverse, step, after.reverse, ?_, hgiven, by simpa using hnone⟩
    rw [← List.reverse_reverse steps, heq]
    simp
  · rintro ⟨before, step, after, rfl, hgiven, hnone⟩
    exact ⟨after.reverse, step, before.reverse, by simp, hgiven, by simpa using hnone⟩

theorem given_of_ne {node : ExprId ⊕ StmtId} {step : Step σ} (h : step.event ≠ .leave node) :
    r.given node step = none := if_neg h

end Transformer

/-! ## A step -/

namespace Arena

variable {a : Arena} {node : ExprId ⊕ StmtId}

theorem slot?_eq_none (has : ¬a.Has node) : a.slot? node = none := by
  cases node with
  | inl id => exact congrArg (Option.map Sum.inl) (Array.getElem?_eq_none (Nat.le_of_not_lt has))
  | inr id => exact congrArg (Option.map Sum.inr) (Array.getElem?_eq_none (Nat.le_of_not_lt has))

theorem slot?_setExpr (id : ExprId) (e : Expr) (has : a.Has node) :
    (a.setExpr id e).slot? node = if node = .inl id then some (.inl e) else a.slot? node := by
  split
  · rename_i heq
    subst heq
    rw [slot?, a.expr?_setExpr_self id e has]
    rfl
  · rename_i hne
    cases node with
    | inl other => rw [slot?, a.expr?_setExpr_ne id other e fun heq => hne (heq ▸ rfl), slot?]
    | inr other => rfl

theorem slot?_setStmt (id : StmtId) (s : Stmt) (has : a.Has node) :
    (a.setStmt id s).slot? node = if node = .inr id then some (.inr s) else a.slot? node := by
  split
  · rename_i heq
    subst heq
    have hlt : id.index < a.stmts.size := has
    simp [slot?, stmt?, setStmt, hlt]
  · rename_i hne
    cases node with
    | inl other => rfl
    | inr other => rw [slot?, a.stmt?_setStmt_ne id other s fun heq => hne (heq ▸ rfl), slot?]

end Arena

namespace Transformer

variable {σ : Type} {r : Transformer σ} {node : ExprId ⊕ StmtId}

theorem size_storeExpr (id : ExprId) (out : Option Expr) (a : Arena) :
    (r.storeExpr id out a).exprs.size = a.exprs.size ∧
      (r.storeExpr id out a).stmts = a.stmts := by
  cases out with
  | none => exact ⟨rfl, rfl⟩
  | some e => cases hmode : r.mode.exprs <;> simp [storeExpr, hmode, Arena.setExpr]

theorem size_storeStmt (id : StmtId) (out : Option Stmt) (a : Arena) :
    (r.storeStmt id out a).stmts.size = a.stmts.size ∧
      (r.storeStmt id out a).exprs = a.exprs := by
  cases out with
  | none => exact ⟨rfl, rfl⟩
  | some s => cases hmode : r.mode.stmts <;> simp [storeStmt, hmode, Arena.setStmt]

theorem slot?_storeExpr (id : ExprId) (out : Option Expr) {a : Arena} (has : a.Has node) :
    (r.storeExpr id out a).slot? node =
      if r.mode.exprs ∧ node = .inl id then (out.map .inl).or (a.slot? node)
      else a.slot? node := by
  cases out with
  | none => simp [storeExpr]
  | some e => cases hmode : r.mode.exprs <;> simp [storeExpr, hmode, Arena.slot?_setExpr id e has]

theorem slot?_storeStmt (id : StmtId) (out : Option Stmt) {a : Arena} (has : a.Has node) :
    (r.storeStmt id out a).slot? node =
      if r.mode.stmts ∧ node = .inr id then (out.map .inr).or (a.slot? node)
      else a.slot? node := by
  cases out with
  | none => simp [storeStmt]
  | some s => cases hmode : r.mode.stmts <;> simp [storeStmt, hmode, Arena.slot?_setStmt id s has]

/-- A step adds no slots and takes none away. -/
theorem Does.size {event : Event} {s t : Arena × σ} (h : r.Does event s t) :
    t.1.exprs.size = s.1.exprs.size ∧ t.1.stmts.size = s.1.stmts.size := by
  cases h with
  | enterItem | leaveItem | enterStmt => exact ⟨rfl, rfl⟩
  | @leaveExpr id a s out _ =>
    obtain ⟨hexprs, hstmts⟩ := r.size_storeExpr id out a
    exact ⟨hexprs, congrArg Array.size hstmts⟩
  | @leaveStmt id a s out _ =>
    obtain ⟨hstmts, hexprs⟩ := r.size_storeStmt id out a
    exact ⟨congrArg Array.size hexprs, hstmts⟩

/-- **A step stores what its hook gives**, in the slot of the node that is left and if the mode says
so, and nothing else. -/
theorem Does.slot {event : Event} {s t : Arena × σ} (h : r.Does event s t)
    (has : s.1.Has node) : t.1.slot? node =
      if r.mode.stores node then (r.given node ⟨event, s.1, s.2, t.2⟩).or (s.1.slot? node)
      else s.1.slot? node := by
  by_cases hleave : event = .leave node
  · subst hleave
    cases node with
    | inl id =>
      cases h with
      | @leaveExpr _ a s out s' hook =>
        rw [slot?_storeExpr id out has]
        simp [TransformMode.stores, given, replacement?, hook, Except.toOption]
    | inr id =>
      cases h with
      | @leaveStmt _ a s out s' hook =>
        rw [slot?_storeStmt id out has]
        simp [TransformMode.stores, given, replacement?, hook, Except.toOption]
  · rw [given_of_ne hleave, Option.none_or, ite_self]
    cases h with
    | enterItem | leaveItem | enterStmt => rfl
    | leaveExpr =>
      rw [slot?_storeExpr _ _ has, if_neg]
      rintro ⟨-, rfl⟩
      exact hleave rfl
    | leaveStmt =>
      rw [slot?_storeStmt _ _ has, if_neg]
      rintro ⟨-, rfl⟩
      exact hleave rfl

/-! ## A run -/

theorem Trace.frame {s t : Arena × σ} {steps : List (Step σ)} (h : r.Trace s steps t) :
    r.Frame s.1 steps t.1 := by
  induction h with
  | nil => exact ⟨rfl, rfl, fun node _ => by simp [lastGiven]⟩
  | @snoc steps t event t' _ does ih =>
    obtain ⟨hexprs, hstmts⟩ := does.size
    refine ⟨hexprs.trans ih.exprs, hstmts.trans ih.stmts, fun node has => ?_⟩
    rw [does.slot (has.mono ih.exprs.ge ih.stmts.ge), lastGiven_snoc, ih.slot node has]
    split
    · rw [Option.or_assoc]
    · rfl

namespace Frame

variable {a b : Arena} {steps : List (Step σ)}

/-- A slot that holds something else than before holds what was given last. -/
theorem slot?_of_ne (h : r.Frame a steps b) (ne : b.slot? node ≠ a.slot? node) :
    r.mode.stores node ∧ ∃ n, r.lastGiven node steps = some n ∧ b.slot? node = some n := by
  have has : a.Has node := by
    by_contra hnot
    have hnot' : ¬b.Has node := mt (fun has => has.mono h.exprs.le h.stmts.le) hnot
    exact ne ((Arena.slot?_eq_none hnot').trans (Arena.slot?_eq_none hnot).symm)
  have hslot := h.slot node has
  cases hmode : r.mode.stores node with
  | false =>
    rw [hmode] at hslot
    exact absurd hslot ne
  | true =>
    rw [hmode, if_pos rfl] at hslot
    cases hlast : r.lastGiven node steps with
    | none =>
      rw [hlast, Option.none_or] at hslot
      exact absurd hslot ne
    | some n =>
      rw [hlast, Option.some_or] at hslot
      exact ⟨rfl, n, rfl, hslot⟩

theorem exprs_eq (h : r.Frame a steps b) (off : r.mode.exprs = false) : b.exprs = a.exprs := by
  refine Array.ext_getElem? fun i => ?_
  have hslot : b.slot? (.inl ⟨i⟩) = a.slot? (.inl ⟨i⟩) := by
    by_contra hne
    exact Bool.false_ne_true (off.symm.trans (h.slot?_of_ne hne).1)
  exact Option.map_injective Sum.inl_injective hslot

theorem stmts_eq (h : r.Frame a steps b) (off : r.mode.stmts = false) : b.stmts = a.stmts := by
  refine Array.ext_getElem? fun i => ?_
  have hslot : b.slot? (.inr ⟨i⟩) = a.slot? (.inr ⟨i⟩) := by
    by_contra hne
    exact Bool.false_ne_true (off.symm.trans (h.slot?_of_ne hne).1)
  exact Option.map_injective Sum.inr_injective hslot

end Frame

/-- **What a run leaves alone.** Whatever the hooks give and whatever the state is, a run that ends
keeps items, file and the number of slots. Slots of a sort that the mode leaves out hold what they
held, so that without any sort nothing has changed, and a slot that holds something else holds the
node that its hook gave last. -/
theorem run_frame {u u' : ShaderUnit} {s t : σ} (ended : r.run u s = .ok (u', t)) :
    u'.items = u.items ∧ u'.file = u.file ∧
    u'.arena.exprs.size = u.arena.exprs.size ∧ u'.arena.stmts.size = u.arena.stmts.size ∧
    (r.mode.exprs = false → u'.arena.exprs = u.arena.exprs) ∧
    (r.mode.stmts = false → u'.arena.stmts = u.arena.stmts) ∧
    (r.mode = .none → u' = u) ∧
    ∃ steps, r.recording.run u (s, []) = .ok (u', t, steps) ∧ r.Frame u.arena steps u'.arena ∧
      ∀ node, u'.arena.slot? node ≠ u.arena.slot? node → r.mode.stores node ∧
        ∃ before step after n, steps = before ++ step :: after ∧ r.given node step = some n ∧
          (∀ later ∈ after, r.given node later = none) ∧ u'.arena.slot? node = some n := by
  obtain ⟨steps, trace, recorded⟩ := run_recording ended
  have frame : r.Frame u.arena steps u'.arena := trace.frame
  obtain ⟨⟨a, z⟩, -, hresult⟩ := of_bind_ok ended
  cases hresult
  refine ⟨rfl, rfl, frame.exprs, frame.stmts, frame.exprs_eq, frame.stmts_eq, fun off => ?_,
    steps, recorded, frame, fun node ne => ?_⟩
  · have hexprs := frame.exprs_eq (congrArg TransformMode.exprs off)
    have hstmts := frame.stmts_eq (congrArg TransformMode.stmts off)
    obtain ⟨exprs, stmts⟩ := a
    cases hexprs
    cases hstmts
    rfl
  · obtain ⟨stores, n, last, held⟩ := frame.slot?_of_ne ne
    obtain ⟨before, step, after, heq, hgiven, hnone⟩ := lastGiven_eq_some.1 last
    exact ⟨stores, before, step, after, n, heq, hgiven, hnone, held⟩

/-- Two statements share an expression. -/
def shared : ShaderUnit where
  items := [.function ⟨"f", [], ⟨"void", .point 0 1 1⟩, ⟨2⟩, .point 0 1 1⟩]
  arena :=
    { exprs := #[⟨.ident "x", .point 0 2 1⟩, ⟨.ident "y", .point 0 3 1⟩]
      stmts := #[⟨.expr ⟨0⟩, .point 0 2 1⟩, ⟨.expr ⟨0⟩, .point 0 3 1⟩,
        ⟨.block [⟨0⟩, ⟨1⟩], .point 0 1 10⟩] }

/-- Gives an expression with the number of those left so far as its line, and statements that its
mode does not store. -/
def numbering : Transformer Nat where
  mode := { exprs := true, stmts := false }
  leaveExpr _ _ n := .ok (some ⟨.ident "z", .point 0 n 1⟩, n + 1)
  leaveStmt _ _ n := .ok (some ⟨.empty, .point 0 n 1⟩, n)

theorem run_frame_shared : ∃ u', numbering.run shared 0 = .ok (u', 2) ∧
    u'.arena.stmts = shared.arena.stmts ∧
    u'.arena.slot? (.inl ⟨1⟩) = shared.arena.slot? (.inl ⟨1⟩) ∧
    ∃ before step after, numbering.recording.run shared (0, []) =
        .ok (u', 2, before ++ step :: after) ∧
      numbering.given (.inl ⟨0⟩) step = some (.inl ⟨.ident "z", .point 0 1 1⟩) ∧
      u'.arena.slot? (.inl ⟨0⟩) = some (.inl ⟨.ident "z", .point 0 1 1⟩) := by
  obtain ⟨⟨u', n⟩, ended, found⟩ := of_map_ok (show (numbering.run shared 0).map
    (fun x => (x.2, x.1.arena.slot? (.inl ⟨0⟩), x.1.arena.slot? (.inl ⟨1⟩))) =
      .ok (2, some (.inl ⟨.ident "z", .point 0 1 1⟩),
        some (.inl ⟨.ident "y", .point 0 3 1⟩)) by decide)
  cases congrArg Prod.fst found
  have hfirst : u'.arena.slot? (.inl ⟨0⟩) = some (.inl ⟨.ident "z", .point 0 1 1⟩) :=
    congrArg (·.2.1) found
  obtain ⟨-, -, -, -, -, hstmts, -, steps, hrecord, -, hchanged⟩ := run_frame ended
  obtain ⟨-, before, step, after, n, rfl, hgiven, -, hslot⟩ :=
    hchanged (.inl ⟨0⟩) (by rw [hfirst]; decide)
  refine ⟨u', ended, hstmts rfl, congrArg (·.2.2) found, before, step, after, hrecord, ?_, hfirst⟩
  rw [hgiven, ← hslot, hfirst]

end Transformer
end ShaderFront
