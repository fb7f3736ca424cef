import ShaderFront.Proofs.Syntax.Traversal

/-!
# Nested statements

A statement is left by the traversal that entered it, with everything below it in between. So a
relation between two moments that is kept by leaving an expression, and by entering and leaving a
statement around anything that keeps it, holds between the two ends of every traversal that ends.
Nothing is asked of the unit; a traversal that faults has no second end.
-/

namespace ShaderFront
namespace Transformer

variable {σ : Type}

/-- Leaving an expression keeps the relation, and so does a statement around anything that keeps
it. -/
structure Nests (r : Transformer σ) (Level : Arena × σ → Arena × σ → Prop) : Prop where
  refl (s) : Level s s
  trans {s t v} : Level s t → Level t v → Level s v
  leaveExpr {a s id out s'} : r.leaveExpr a id s = .ok (out, s') →
    Level (a, s) (r.storeExpr id out a, s')
  stmt {a s id s' b t out t'} : r.enterStmt a id s = .ok s' → Level (a, s') (b, t) →
    r.leaveStmt b id t = .ok (out, t') → Level (a, s) (r.storeStmt id out b, t')

namespace Nests

variable {r : Transformer σ} {Level : Arena × σ → Arena × σ → Prop} {s t : Arena × σ}

theorem foldlM (k : r.Nests Level) {α : Type} {l : List α}
    {f : Arena × σ → α → Except Fault (Arena × σ)}
    (step : ∀ x ∈ l, ∀ s t, f s x = .ok t → Level s t) (h : l.foldlM f s = .ok t) :
    Level s t := by
  induction l generalizing s with
  | nil =>
    cases h
    exact k.refl _
  | cons x rest ih =>
    rw [List.foldlM_cons] at h
    obtain ⟨v, hfirst, hrest⟩ := of_bind_ok h
    exact k.trans (step x List.mem_cons_self s v hfirst)
      (ih (fun y hy => step y (List.mem_cons_of_mem _ hy)) hrest)

theorem expr (k : r.Nests Level) (depth : Nat) {id : ExprId}
    (h : r.transformExpr depth id s = .ok t) : Level s t := by
  induction depth generalizing id s t with
  | zero => cases h
  | succ depth ih =>
    obtain ⟨e, -, h⟩ := of_bind_ok h
    obtain ⟨⟨a, z⟩, hfold, h⟩ := of_bind_ok h
    obtain ⟨⟨out, z'⟩, hleave, h⟩ := of_bind_ok h
    cases h
    exact k.trans (k.foldlM (fun c _ s t => ih) hfold) (k.leaveExpr hleave)

theorem children (k : r.Nests Level) {walk : StmtId → Arena × σ → Except Fault (Arena × σ)}
    (stmts : ∀ id s t, walk id s = .ok t → Level s t) {l : List (ExprId ⊕ StmtId)}
    (h : l.foldlM (r.transformChild walk) s = .ok t) : Level s t := by
  refine k.foldlM (fun child _ s t hchild => ?_) h
  cases child with
  | inl e => exact k.expr _ hchild
  | inr id => exact stmts id s t hchild

/-- **A statement is entered and left on one level.** -/
theorem transformStmt (k : r.Nests Level) (depth : Nat) {id : StmtId}
    (h : r.transformStmt depth id s = .ok t) : Level s t := by
  induction depth generalizing id s t with
  | zero => cases h
  | succ depth ih =>
    obtain ⟨a, s⟩ := s
    obtain ⟨stmt, -, h⟩ := of_bind_ok h
    obtain ⟨s', henter, h⟩ := of_bind_ok h
    obtain ⟨⟨b, z⟩, hfold, h⟩ := of_bind_ok h
    obtain ⟨⟨out, z'⟩, hleave, h⟩ := of_bind_ok h
    cases h
    exact k.stmt henter (k.children (fun id s t => ih) hfold) hleave

/-- What lies between entering and leaving an item is on one level. -/
theorem transformItem (k : r.Nests Level) {item : Item} (h : r.transformItem item s = .ok t) :
    ∃ entered b z, r.enterItem s.1 item s.2 = .ok entered ∧ Level (s.1, entered) (b, z) ∧
      r.leaveItem b item z = .ok t.2 ∧ t.1 = b := by
  obtain ⟨entered, henter, h⟩ := of_bind_ok h
  obtain ⟨⟨b, z⟩, hfold, h⟩ := of_bind_ok h
  obtain ⟨z', hleave, h⟩ := of_bind_ok h
  cases h
  exact ⟨entered, b, z, henter, k.children (fun id s t => k.transformStmt _) hfold, hleave, rfl⟩

end Nests
end Transformer
end ShaderFront
