import ShaderFront.Proofs.Syntax.Alongside

/-!
# Recorded runs

A run that keeps a record of its steps. A step is an event, that is, a node that is entered or left,
with the state before and after it. The record changes nothing about the run. Its steps follow upon
each other from the start of the run to its end, so what every step keeps holds at each of them.
-/

namespace ShaderFront
namespace Transformer

/-- What happens to a node on the way through a unit. -/
inductive Event where
  | enterItem (item : Item)
  | leaveItem (item : Item)
  | enterStmt (id : StmtId)
  | leaveStmt (id : StmtId)
  | leaveExpr (id : ExprId)
  deriving DecidableEq, Repr

/-- The expression that is left, if it is one that is left. -/
def Event.left? : Event → Option ExprId
  | .leaveExpr id => some id
  | _ => none

theorem Event.eq_of_left? {event : Event} {id : ExprId} (h : event.left? = some id) :
    event = .leaveExpr id := by
  cases event with
  | leaveExpr other =>
    cases h
    rfl
  | _ => cases h

/-- An event with the arena that it finds, and the state before and after it. -/
structure Step (σ : Type) where
  event : Event
  arena : Arena
  before : σ
  after : σ
  deriving Repr

/-- What is found last in a list that is one longer. -/
theorem findSome?_reverse_snoc {α β : Type} (f : α → Option β) (l : List α) (x : α) :
    (l ++ [x]).reverse.findSome? f = (f x).or (l.reverse.findSome? f) := by
  simp only [List.reverse_append, List.reverse_singleton, List.singleton_append,
    List.findSome?_cons]
  cases f x with
  | none => rfl
  | some b => rfl

variable {σ : Type}

/-- Adds a step to the record. -/
def recorded (event : Event) (a : Arena) (s : σ × List (Step σ)) (after : σ) : σ × List (Step σ) :=
  (after, s.2 ++ [⟨event, a, s.1, after⟩])

/-- The same transformer with a record of its steps. -/
def recording (r : Transformer σ) : Transformer (σ × List (Step σ)) where
  mode := r.mode
  enterItem a item s := (r.enterItem a item s.1).map (recorded (.enterItem item) a s)
  leaveItem a item s := (r.leaveItem a item s.1).map (recorded (.leaveItem item) a s)
  enterStmt a id s := (r.enterStmt a id s.1).map (recorded (.enterStmt id) a s)
  leaveStmt a id s :=
    (r.leaveStmt a id s.1).map fun (out, after) => (out, recorded (.leaveStmt id) a s after)
  leaveExpr a id s :=
    (r.leaveExpr a id s.1).map fun (out, after) => (out, recorded (.leaveExpr id) a s after)

/-- What is left while a record is kept is left without one as well. -/
theorem leaveExpr_of_recording {r : Transformer σ} {a : Arena} {id : ExprId}
    {s z : σ × List (Step σ)} {out : Option Expr}
    (h : r.recording.leaveExpr a id s = .ok (out, z)) :
    ∃ after, r.leaveExpr a id s.1 = .ok (out, after) ∧
      z = recorded (.leaveExpr id) a s after := by
  obtain ⟨⟨out', after⟩, hleave, heq⟩ := of_map_ok h
  cases heq
  exact ⟨after, hleave, rfl⟩

/-- The expressions that some steps leave, in order. -/
def visited (steps : List (Step σ)) : List ExprId := steps.filterMap (·.event.left?)

theorem visited_leaveExpr (steps : List (Step σ)) (id : ExprId) (a : Arena) (before after : σ) :
    visited (steps ++ [⟨.leaveExpr id, a, before, after⟩]) = visited steps ++ [id] := by
  simp [visited, Event.left?]

theorem visited_other (steps : List (Step σ)) {event : Event} (h : event.left? = none)
    (a : Arena) (before after : σ) :
    visited (steps ++ [⟨event, a, before, after⟩]) = visited steps := by
  simp [visited, h]

/-- A step that leaves an expression. -/
theorem mem_visited {steps : List (Step σ)} {step : Step σ} (h : step ∈ steps) {id : ExprId}
    (event : step.event = .leaveExpr id) : id ∈ visited steps :=
  List.mem_filterMap.2 ⟨step, h, congrArg Event.left? event⟩

/-- What a transformer does at an event. -/
inductive Does (r : Transformer σ) : Event → Arena × σ → Arena × σ → Prop where
  | enterItem {item a s s'} (hook : r.enterItem a item s = .ok s') :
      Does r (.enterItem item) (a, s) (a, s')
  | leaveItem {item a s s'} (hook : r.leaveItem a item s = .ok s') :
      Does r (.leaveItem item) (a, s) (a, s')
  | enterStmt {id a s s'} (hook : r.enterStmt a id s = .ok s') :
      Does r (.enterStmt id) (a, s) (a, s')
  | leaveStmt {id a s out s'} (hook : r.leaveStmt a id s = .ok (out, s')) :
      Does r (.leaveStmt id) (a, s) (r.storeStmt id out a, s')
  | leaveExpr {id a s out s'} (hook : r.leaveExpr a id s = .ok (out, s')) :
      Does r (.leaveExpr id) (a, s) (r.storeExpr id out a, s')

/-- Steps that follow upon each other. -/
inductive Trace (r : Transformer σ) (s : Arena × σ) : List (Step σ) → Arena × σ → Prop where
  | nil : Trace r s [] s
  | snoc {steps t event t'} (rest : Trace r s steps t) (does : r.Does event t t') :
      Trace r s (steps ++ [⟨event, t.1, t.2, t'.2⟩]) t'

namespace Trace

variable {r : Transformer σ} {s t v : Arena × σ} {steps more : List (Step σ)}

theorem single {event : Event} (h : r.Does event s t) :
    r.Trace s [⟨event, s.1, s.2, t.2⟩] t := .snoc .nil h

/-- Two stretches of a trace. -/
theorem append (h : r.Trace s steps t) (h' : r.Trace t more v) :
    r.Trace s (steps ++ more) v := by
  induction h' with
  | nil => rwa [List.append_nil]
  | snoc _ does ih =>
    rw [← List.append_assoc]
    exact .snoc ih does

/-- The moment of a step among others. -/
theorem at_step {step : Step σ} (h : r.Trace s (steps ++ step :: more) t) :
    ∃ v v', r.Trace s steps v ∧ r.Does step.event v v' ∧
      step = ⟨step.event, v.1, v.2, v'.2⟩ ∧ r.Trace s (steps ++ [step]) v' := by
  generalize heq : steps ++ step :: more = all at h
  induction h generalizing more with
  | nil => simp at heq
  | @snoc before v event v' rest does ih =>
    rcases List.eq_nil_or_concat more with rfl | ⟨front, last, rfl⟩
    · obtain ⟨rfl, hstep⟩ := List.append_inj' heq rfl
      cases hstep
      exact ⟨v, v', rest, does, rfl, .snoc rest does⟩
    · rw [List.concat_eq_append, ← List.cons_append, ← List.append_assoc] at heq
      exact ih (List.append_inj' heq rfl).1

end Trace

/-- The second computation is the first one with a record of its steps. -/
def Records (r : Transformer σ) (f : Arena × σ → Except Fault (Arena × σ))
    (g : Arena × σ × List (Step σ) → Except Fault (Arena × σ × List (Step σ))) : Prop :=
  ∀ s t, f s = .ok t → ∃ steps, r.Trace s steps t ∧
    ∀ log, g (s.1, s.2, log) = .ok (t.1, t.2, log ++ steps)

section

variable {r : Transformer σ}

theorem Records.foldlM {α : Type} {l : List α}
    {f : Arena × σ → α → Except Fault (Arena × σ)}
    {g : Arena × σ × List (Step σ) → α → Except Fault (Arena × σ × List (Step σ))}
    (step : ∀ x ∈ l, r.Records (fun s => f s x) fun s => g s x) :
    r.Records (fun s => l.foldlM f s) fun s => l.foldlM g s := by
  induction l with
  | nil =>
    intro s t hrun
    cases hrun
    exact ⟨[], .nil, fun log => by rw [List.append_nil]; rfl⟩
  | cons x rest ih =>
    intro s t hrun
    simp only [List.foldlM_cons] at hrun ⊢
    obtain ⟨v, hfirst, hrun⟩ := of_bind_ok hrun
    obtain ⟨steps, htrace, hrecord⟩ := step x List.mem_cons_self s v hfirst
    obtain ⟨more, htrace', hrecord'⟩ := ih (fun y hy => step y (List.mem_cons_of_mem _ hy)) v t hrun
    refine ⟨steps ++ more, htrace.append htrace', fun log => ?_⟩
    rw [← List.append_assoc]
    exact bind_ok (hrecord log) (hrecord' (log ++ steps))

/-- Recording the steps at an expression changes nothing else. -/
theorem records_expr (r : Transformer σ) (depth : Nat) (id : ExprId) :
    r.Records (r.transformExpr depth id) (r.recording.transformExpr depth id) := by
  induction depth generalizing id with
  | zero =>
    intro s t hrun
    cases hrun
  | succ depth ih =>
    intro s t hrun
    obtain ⟨e, he, hrun⟩ := of_bind_ok hrun
    obtain ⟨⟨a, z⟩, hfold, hrun⟩ := of_bind_ok hrun
    obtain ⟨⟨out, z'⟩, hleave, hrun⟩ := of_bind_ok hrun
    cases hrun
    obtain ⟨steps, htrace, hrecord⟩ := Records.foldlM (fun c _ => ih c) s (a, z) hfold
    refine ⟨_, .snoc htrace (.leaveExpr hleave), fun log => ?_⟩
    refine bind_ok he (bind_ok (hrecord log) (bind_ok (congrArg (Except.map _) hleave) ?_))
    rw [← List.append_assoc]
    rfl

theorem records_children (r : Transformer σ)
    (walk : StmtId → Arena × σ → Except Fault (Arena × σ))
    (walk' : StmtId → Arena × σ × List (Step σ) → Except Fault (Arena × σ × List (Step σ)))
    (stmts : ∀ id, r.Records (walk id) (walk' id)) (l : List (ExprId ⊕ StmtId)) :
    r.Records (fun s => l.foldlM (r.transformChild walk) s)
      fun s => l.foldlM (r.recording.transformChild walk') s := by
  refine Records.foldlM fun child _ => ?_
  cases child with
  | inl e => exact fun s => r.records_expr s.1.exprDepth e s
  | inr id => exact stmts id

theorem records_stmt (r : Transformer σ) (depth : Nat) (id : StmtId) :
    r.Records (r.transformStmt depth id) (r.recording.transformStmt depth id) := by
  induction depth generalizing id with
  | zero =>
    intro s t hrun
    cases hrun
  | succ depth ih =>
    rintro ⟨a, s⟩ t hrun
    obtain ⟨stmt, hstmt, hrun⟩ := of_bind_ok hrun
    obtain ⟨z, henter, hrun⟩ := of_bind_ok hrun
    obtain ⟨⟨b, w⟩, hfold, hrun⟩ := of_bind_ok hrun
    obtain ⟨⟨out, w'⟩, hleave, hrun⟩ := of_bind_ok hrun
    cases hrun
    obtain ⟨steps, htrace, hrecord⟩ :=
      r.records_children _ _ ih stmt.form.children (a, z) (b, w) hfold
    refine ⟨_, (Trace.single (.enterStmt henter)).append (.snoc htrace (.leaveStmt hleave)),
      fun log => ?_⟩
    refine bind_ok hstmt (bind_ok (congrArg (Except.map _) henter) (bind_ok (hrecord _)
      (bind_ok (congrArg (Except.map _) hleave) ?_)))
    simp only [recorded, List.append_assoc]
    rfl

/-- Recording the steps at an item changes nothing else. -/
theorem records_item (r : Transformer σ) (item : Item) :
    r.Records (r.transformItem item) (r.recording.transformItem item) := by
  rintro ⟨a, s⟩ t hrun
  obtain ⟨z, henter, hrun⟩ := of_bind_ok hrun
  obtain ⟨⟨b, w⟩, hfold, hrun⟩ := of_bind_ok hrun
  obtain ⟨w', hleave, hrun⟩ := of_bind_ok hrun
  cases hrun
  obtain ⟨steps, htrace, hrecord⟩ := r.records_children
    (fun id s => r.transformStmt s.1.stmtDepth id s)
    (fun id s => r.recording.transformStmt s.1.stmtDepth id s)
    (fun id s => r.records_stmt s.1.stmtDepth id s) item.children (a, z) (b, w) hfold
  refine ⟨_, (Trace.single (.enterItem henter)).append (.snoc htrace (.leaveItem hleave)),
    fun log => ?_⟩
  refine bind_ok (congrArg (Except.map _) henter) (bind_ok (hrecord _)
    (bind_ok (congrArg (Except.map _) hleave) ?_))
  simp only [recorded, List.append_assoc]
  rfl

/-- **A run can be recorded**, and its steps follow upon each other. -/
theorem run_recording {u u' : ShaderUnit} {s t : σ} (hrun : r.run u s = .ok (u', t)) :
    ∃ steps, r.Trace (u.arena, s) steps (u'.arena, t) ∧
      r.recording.run u (s, []) = .ok (u', t, steps) := by
  obtain ⟨⟨a, z⟩, hfold, hrun⟩ := of_bind_ok hrun
  cases hrun
  obtain ⟨steps, htrace, hrecord⟩ :=
    Records.foldlM (fun item _ => r.records_item item) (u.arena, s) (a, t) hfold
  exact ⟨steps, htrace, bind_ok (hrecord []) rfl⟩

/-- Going through an expression keeps an invariant that each hook keeps, recorded or not. -/
theorem Keeps.recorded_expr {u : ShaderUnit} {rank : u.arena.Ranking} {I : Invariant σ}
    (k : r.Keeps u rank I) {depth : Nat} {id : ExprId} {s t : Arena × σ × List (Step σ)}
    (h : I.Holds (s.1, s.2.1)) (hid : u.Reaches id) (hdepth : rank.expr id < depth)
    (hrun : r.recording.transformExpr depth id s = .ok t) :
    r.transformExpr depth id (s.1, s.2.1) = .ok (t.1, t.2.1) ∧
      I.Leads (s.1, s.2.1) (t.1, t.2.1) ∧ I.Done id (t.1, t.2.1) ∧
      SameAbove rank.expr (rank.expr id) (s.1, s.2.1) (t.1, t.2.1) := by
  obtain ⟨v, hplain, hleads, hdone, hsame⟩ := k.transformExpr depth h hid hdepth
  obtain ⟨steps, -, hrecord⟩ := r.records_expr depth id _ _ hplain
  cases hrun.symm.trans (hrecord s.2.2)
  exact ⟨hplain, hleads, hdone, hsame⟩

end
end Transformer
end ShaderFront
