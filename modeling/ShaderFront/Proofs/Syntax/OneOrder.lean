import ShaderFront.Proofs.Syntax.Course

/-!
# One order for visitors and transformers

A visitor goes through an arena that stays as it is, a transformer through one that its own hooks
change. In a unit whose ids are in range and referred to at most once, both follow the course that
the unit has from the start: a slot is stored to when its node is left, and by then nothing ahead
leads to it any more.
-/

namespace ShaderFront

open Transformer

namespace Transformer

/-- The expressions among some nodes. -/
def exprsAmong (nodes : List (ExprId ⊕ StmtId)) : List ExprId := nodes.filterMap Sum.getLeft?

/-- The statements among some nodes. -/
def stmtsAmong (nodes : List (ExprId ⊕ StmtId)) : List StmtId := nodes.filterMap Sum.getRight?

@[simp] theorem exprsAmong_append (nodes more : List (ExprId ⊕ StmtId)) :
    exprsAmong (nodes ++ more) = exprsAmong nodes ++ exprsAmong more := List.filterMap_append

@[simp] theorem exprsAmong_inl (id : ExprId) (nodes : List (ExprId ⊕ StmtId)) :
    exprsAmong (.inl id :: nodes) = id :: exprsAmong nodes := rfl

@[simp] theorem stmtsAmong_append (nodes more : List (ExprId ⊕ StmtId)) :
    stmtsAmong (nodes ++ more) = stmtsAmong nodes ++ stmtsAmong more := List.filterMap_append

@[simp] theorem stmtsAmong_inr (id : StmtId) (nodes : List (ExprId ⊕ StmtId)) :
    stmtsAmong (.inr id :: nodes) = id :: stmtsAmong nodes := rfl

end Transformer

/-! ## How deep a course goes -/

namespace Arena.Course

variable {a : Arena} {nodes : List (ExprId ⊕ StmtId)} {events : List Event}

/-- Whatever a course leaves is there. -/
theorem has_of_mem (h : a.Course nodes events) {node : ExprId ⊕ StmtId}
    (mem : node ∈ nodesLeft events) : a.Has node := by
  obtain ⟨own, hown, -⟩ := h.part mem
  cases hown with
  | expr get => exact (Array.getElem?_eq_some_iff.1 get).1
  | stmt get => exact (Array.getElem?_eq_some_iff.1 get).1

/-- As many numbers below a bound as there are, if none occurs twice. -/
theorem length_le_of_index {α : Type} (index : α → Nat) (injective : index.Injective) {l : List α}
    (nodup : l.Nodup) {size : Nat} (bound : ∀ x ∈ l, index x < size) : l.length ≤ size := by
  have hsubset : l.map index ⊆ List.range size := by
    intro i hi
    obtain ⟨x, hx, rfl⟩ := List.mem_map.1 hi
    exact List.mem_range.2 (bound x hx)
  have hle := (List.subperm_of_subset (nodup.map injective) hsubset).length_le
  rwa [List.length_map, List.length_range] at hle

/-- A course that leaves nothing twice is no longer than the arena is large, so the depth that
bounds a walk suffices. -/
theorem length_exprs_le (h : a.Course nodes events) (once : (nodesLeft events).Nodup) :
    (exprsAmong (nodesLeft events)).length ≤ a.exprs.size := by
  refine length_le_of_index ExprId.index (fun ⟨i⟩ ⟨j⟩ he => congrArg ExprId.mk he)
    (once.filterMap ?_) fun id hid => ?_
  · intro n m id hn hm
    rw [Option.mem_def, Sum.getLeft?_eq_some_iff] at hn hm
    rw [hn, hm]
  · obtain ⟨node, hmem, hnode⟩ := List.mem_filterMap.1 hid
    rw [Sum.getLeft?_eq_some_iff] at hnode
    subst hnode
    exact h.has_of_mem hmem

theorem length_stmts_le (h : a.Course nodes events) (once : (nodesLeft events).Nodup) :
    (stmtsAmong (nodesLeft events)).length ≤ a.stmts.size := by
  refine length_le_of_index StmtId.index (fun ⟨i⟩ ⟨j⟩ he => congrArg StmtId.mk he)
    (once.filterMap ?_) fun id hid => ?_
  · intro n m id hn hm
    rw [Option.mem_def, Sum.getRight?_eq_some_iff] at hn hm
    rw [hn, hm]
  · obtain ⟨node, hmem, hnode⟩ := List.mem_filterMap.1 hid
    rw [Sum.getRight?_eq_some_iff] at hnode
    subst hnode
    exact h.has_of_mem hmem

end Arena.Course

/-! ## Visitors -/

namespace Visitor

/-- Looks into every node and keeps a log of what is entered and left. -/
def eventLog : Visitor (List Event) where
  enterItem item log := log ++ [.enterItem item]
  leaveItem item log := log ++ [.leaveItem item]
  enterStmt id _ log := (true, log ++ [.enterStmt id])
  leaveStmt id _ log := log ++ [.leaveStmt id]
  leaveExpr id _ log := log ++ [.leaveExpr id]

/-- Visits a child of a statement or an item; `walk` visits a statement. -/
def walkChild {σ : Type} (v : Visitor σ) (a : Arena) (walk : StmtId → σ → Except Fault σ) (s : σ) :
    ExprId ⊕ StmtId → Except Fault σ
  | .inl e => v.walkExpr a a.exprDepth e s
  | .inr id => walk id s

variable {a : Arena}

theorem eventLog_exprs {nodes : List (ExprId ⊕ StmtId)} {events : List Event}
    (course : a.Course nodes events) (ids : List ExprId) (hnodes : nodes = ids.map .inl)
    {depth : Nat} (hdepth : (exprsAmong (nodesLeft events)).length < depth) (log : List Event) :
    ids.foldlM (fun log id => eventLog.walkExpr a depth id log) log = .ok (log ++ events) := by
  induction course generalizing ids depth log with
  | nil =>
    cases List.map_eq_nil_iff.1 hnodes.symm
    rw [List.append_nil]
    rfl
  | @expr id e rest below after get _ _ ihinside ihnext =>
    obtain ⟨_, ids, rfl, heq, rfl⟩ := List.map_eq_cons_iff.1 hnodes.symm
    cases heq
    simp only [nodesLeft_append, nodesLeft_leaveExpr, exprsAmong_append, exprsAmong_inl,
      List.length_append, List.length_cons] at hdepth
    cases depth with
    | zero => exact absurd hdepth (Nat.not_lt_zero _)
    | succ depth =>
      rw [List.foldlM_cons]
      refine bind_ok (a := log ++ below ++ [.leaveExpr id]) ?_ ?_
      · exact bind_ok (Arena.expr_eq_ok get) (bind_ok (ihinside _ rfl (by omega) log) rfl)
      · rw [ihnext _ rfl (by omega)]
        simp
  | stmt => cases ids <;> cases hnodes

/-- The log of a visit to some nodes is their course. -/
theorem eventLog_nodes {nodes : List (ExprId ⊕ StmtId)} {events : List Event}
    (course : a.Course nodes events) (once : (nodesLeft events).Nodup) {depth : Nat}
    (hdepth : (stmtsAmong (nodesLeft events)).length < depth) (log : List Event) :
    nodes.foldlM (eventLog.walkChild a (eventLog.walkStmt a depth)) log = .ok (log ++ events) := by
  induction course generalizing depth log with
  | nil =>
    rw [List.append_nil]
    rfl
  | @expr id e rest below after get inside _ _ ihnext =>
    have hown : a.Course [.inl id] (below ++ [.leaveExpr id]) := .expr get inside .nil
    have hsplit : below ++ .leaveExpr id :: after = below ++ [.leaveExpr id] ++ after := by simp
    rw [hsplit, nodesLeft_append] at once hdepth
    rw [hsplit, List.foldlM_cons]
    rw [stmtsAmong_append, List.length_append] at hdepth
    have hwalk := eventLog_exprs hown [id] rfl
      (Nat.lt_succ_of_le (hown.length_exprs_le (List.nodup_append'.1 once).1)) log
    simp only [List.foldlM_cons, List.foldlM_nil, bind_pure] at hwalk
    refine bind_ok hwalk ?_
    rw [ihnext (List.nodup_append'.1 once).2.1 (by omega), List.append_assoc]
  | @stmt id s rest below after get inside _ ihinside ihnext =>
    simp only [List.cons_append, nodesLeft_enterStmt, nodesLeft_append, nodesLeft_leaveStmt,
      stmtsAmong_append, stmtsAmong_inr, List.length_append, List.length_cons] at once hdepth
    obtain ⟨hbelow, hafter, -⟩ := List.nodup_append'.1 once
    cases depth with
    | zero => exact absurd hdepth (Nat.not_lt_zero _)
    | succ depth =>
      rw [List.foldlM_cons]
      refine bind_ok (a := log ++ [.enterStmt id] ++ below ++ [.leaveStmt id]) ?_ ?_
      · exact bind_ok (Arena.stmt_eq_ok get) (bind_ok (ihinside hbelow (by omega) _) rfl)
      · rw [ihnext hafter.of_cons (by omega)]
        simp

/-- The log of a visit to items is their course. -/
theorem eventLog_items {items : List Item} {events : List Event}
    (course : a.ItemCourse items events) (once : (nodesLeft events).Nodup) (log : List Event) :
    items.foldlM (fun log item => eventLog.walkItem a item log) log = .ok (log ++ events) := by
  induction course generalizing log with
  | nil =>
    rw [List.append_nil]
    rfl
  | @cons item rest below after inside _ ih =>
    simp only [List.cons_append, nodesLeft_enterItem, nodesLeft_append, nodesLeft_leaveItem] at once
    obtain ⟨hbelow, hafter, -⟩ := List.nodup_append'.1 once
    have hwalk := eventLog_nodes inside hbelow
      (Nat.lt_succ_of_le (inside.length_stmts_le hbelow)) (log ++ [.enterItem item])
    rw [List.foldlM_cons]
    refine bind_ok (a := log ++ [.enterItem item] ++ below ++ [.leaveItem item]) ?_ ?_
    · exact bind_ok hwalk rfl
    · rw [ih hafter]
      simp

end Visitor

/-! ## Transformers -/

namespace Transformer

variable {σ : Type}

/-- The hook that a transformer runs at an event faults. -/
inductive Faults (r : Transformer σ) : Event → Arena × σ → Fault → Prop where
  | enterItem {item a s fault} (hook : r.enterItem a item s = .error fault) :
      Faults r (.enterItem item) (a, s) fault
  | leaveItem {item a s fault} (hook : r.leaveItem a item s = .error fault) :
      Faults r (.leaveItem item) (a, s) fault
  | enterStmt {id a s fault} (hook : r.enterStmt a id s = .error fault) :
      Faults r (.enterStmt id) (a, s) fault
  | leaveStmt {id a s fault} (hook : r.leaveStmt a id s = .error fault) :
      Faults r (.leaveStmt id) (a, s) fault
  | leaveExpr {id a s fault} (hook : r.leaveExpr a id s = .error fault) :
      Faults r (.leaveExpr id) (a, s) fault

/-- A computation that goes through events in order, to the last one or to one whose hook faults. -/
inductive Goes (r : Transformer σ) (s : Arena × σ) (events : List Event) :
    Except Fault (Arena × σ) → Prop where
  | ends {steps t} (trace : r.Trace s steps t) (order : steps.map (·.event) = events) :
      Goes r s events (.ok t)
  | faults {steps v event rest fault} (trace : r.Trace s steps v) (hook : r.Faults event v fault)
      (order : events = steps.map (·.event) ++ event :: rest) : Goes r s events (.error fault)

namespace Goes

variable {r : Transformer σ} {s : Arena × σ} {events more : List Event}

theorem refl : r.Goes s [] (.ok s) := .ends .nil rfl

/-- What goes on from the end of some steps. -/
theorem after {steps : List (Step σ)} {t : Arena × σ} {x : Except Fault (Arena × σ)}
    (trace : r.Trace s steps t) (h : r.Goes t more x) :
    r.Goes s (steps.map (·.event) ++ more) x := by
  cases h with
  | ends trace' order' => exact .ends (trace.append trace') (by rw [List.map_append, order'])
  | faults trace' hook order' =>
    exact .faults (trace.append trace') hook (by rw [List.map_append, order', List.append_assoc])

/-- One computation after the other. -/
theorem bind {x : Except Fault (Arena × σ)} (h : r.Goes s events x)
    {f : Arena × σ → Except Fault (Arena × σ)}
    (next : ∀ steps t, r.Trace s steps t → steps.map (·.event) = events → r.Goes t more (f t)) :
    r.Goes s (events ++ more) (x >>= f) := by
  cases h with
  | faults trace hook order => exact .faults trace hook (by rw [order, List.append_assoc]; rfl)
  | @ends steps t trace order =>
    have hnext := next steps t trace order
    subst order
    exact hnext.after trace

/-- A hook, and what is done with its result. -/
theorem hook {α : Type} {event : Event} {x : Except Fault α} {f : α → Arena × σ}
    (does : ∀ z, x = .ok z → r.Does event s (f z))
    (faults : ∀ fault, x = .error fault → r.Faults event s fault)
    {g : α → Except Fault (Arena × σ)}
    (next : ∀ z, r.Trace s [⟨event, s.1, s.2, (f z).2⟩] (f z) → r.Goes (f z) more (g z)) :
    r.Goes s (event :: more) (x >>= g) := by
  cases x with
  | error fault => exact .faults .nil (faults fault rfl) rfl
  | ok z =>
    have htrace := Trace.single (does z rfl)
    exact (next z htrace).after htrace

end Goes

end Transformer

/-- Arenas of the same size that hold the same at some nodes. -/
structure Arena.Agree (a b : Arena) (nodes : List (ExprId ⊕ StmtId)) : Prop where
  exprs : b.exprs.size = a.exprs.size
  stmts : b.stmts.size = a.stmts.size
  expr? : ∀ id, .inl id ∈ nodes → b.expr? id = a.expr? id
  stmt? : ∀ id, .inr id ∈ nodes → b.stmt? id = a.stmt? id

namespace Arena.Agree

variable {a b : Arena} {nodes more : List (ExprId ⊕ StmtId)}

theorem refl (a : Arena) (nodes : List (ExprId ⊕ StmtId)) : a.Agree a nodes :=
  ⟨rfl, rfl, fun _ _ => rfl, fun _ _ => rfl⟩

theorem mono (h : a.Agree b nodes) (hsub : more ⊆ nodes) : a.Agree b more :=
  ⟨h.exprs, h.stmts, fun id hid => h.expr? id (hsub hid), fun id hid => h.stmt? id (hsub hid)⟩

/-- A node that is not come to any more may change. -/
theorem setExpr (h : a.Agree b nodes) {id : ExprId} (hid : .inl id ∉ nodes) (e : Expr) :
    a.Agree (b.setExpr id e) nodes where
  exprs := (b.size_setExpr id e).trans h.exprs
  stmts := h.stmts
  expr? other hother := by
    have hne : other ≠ id := fun heq => hid (heq ▸ hother)
    rw [b.expr?_setExpr_ne id other e hne, h.expr? other hother]
  stmt? other hother := h.stmt? other hother

theorem setStmt (h : a.Agree b nodes) {id : StmtId} (hid : .inr id ∉ nodes) (s : Stmt) :
    a.Agree (b.setStmt id s) nodes where
  exprs := h.exprs
  stmts := (b.size_setStmt id s).trans h.stmts
  expr? other hother := h.expr? other hother
  stmt? other hother := by
    have hne : other ≠ id := fun heq => hid (heq ▸ hother)
    rw [b.stmt?_setStmt_ne id other s hne, h.stmt? other hother]

/-- On the way through other nodes, nothing is stored at the nodes. -/
theorem trace {σ : Type} {r : Transformer σ} {s t : Arena × σ} {steps : List (Step σ)}
    (h : a.Agree s.1 nodes) (trace : r.Trace s steps t)
    (other : ∀ node ∈ nodes, node ∉ nodesLeft (steps.map (·.event))) : a.Agree t.1 nodes := by
  induction trace with
  | nil => exact h
  | @snoc steps v event t _ does ih =>
    simp only [List.map_append, nodesLeft_append, List.mem_append, not_or] at other
    have hv := ih fun node hnode => (other node hnode).1
    cases does with
    | enterItem | leaveItem | enterStmt => exact hv
    | @leaveExpr id b s out z =>
      have hid : .inl id ∉ nodes := fun hmem => (other _ hmem).2 (by simp)
      cases out with
      | none => exact hv
      | some e =>
        cases hmode : r.mode.exprs with
        | true => simpa only [storeExpr, hmode, if_true] using hv.setExpr hid e
        | false => simpa only [r.storeExpr_of_mode_off hmode] using hv
    | @leaveStmt id b s out z =>
      have hid : .inr id ∉ nodes := fun hmem => (other _ hmem).2 (by simp)
      cases out with
      | none => exact hv
      | some stmt =>
        cases hmode : r.mode.stmts with
        | true => simpa only [storeStmt, hmode, if_true] using hv.setStmt hid stmt
        | false => simpa only [r.storeStmt_of_mode_off hmode] using hv

/-- After the first part of a course on which no node is left twice, what is left on the second part
is as it was. -/
theorem next {σ : Type} {r : Transformer σ} {s t : Arena × σ} {steps : List (Step σ)}
    {events more : List Event} (h : a.Agree s.1 (nodesLeft (events ++ more)))
    (once : (nodesLeft (events ++ more)).Nodup) (trace : r.Trace s steps t)
    (order : steps.map (·.event) = events) : a.Agree t.1 (nodesLeft more) := by
  rw [nodesLeft_append] at h once
  refine Agree.trace (h.mono (List.subset_append_right _ _)) trace fun node hnode hmem => ?_
  rw [order] at hmem
  exact (List.nodup_append'.1 once).2.2 hmem hnode

end Arena.Agree

namespace Transformer

variable {σ : Type} {r : Transformer σ} {a : Arena}

/-- Going through expressions whose course is known from an arena that agrees ahead. -/
theorem goes_exprs {nodes : List (ExprId ⊕ StmtId)} {events : List Event}
    (course : a.Course nodes events) (once : (nodesLeft events).Nodup) (ids : List ExprId)
    (hnodes : nodes = ids.map .inl) (depth : Nat)
    (hdepth : (exprsAmong (nodesLeft events)).length < depth) {s : Arena × σ}
    (ahead : a.Agree s.1 (nodesLeft events)) :
    r.Goes s events (ids.foldlM (fun s id => r.transformExpr depth id s) s) := by
  induction course generalizing ids depth s with
  | nil =>
    cases List.map_eq_nil_iff.1 hnodes.symm
    exact .refl
  | @expr id e rest below after get _ _ ihinside ihnext =>
    obtain ⟨_, ids, rfl, heq, rfl⟩ := List.map_eq_cons_iff.1 hnodes.symm
    cases heq
    rw [← List.singleton_append, ← List.append_assoc] at once hdepth ahead ⊢
    have hparts := once
    simp only [nodesLeft_append, nodesLeft_leaveExpr, nodesLeft_nil, exprsAmong_append,
      exprsAmong_inl, List.length_append, List.length_cons] at hparts hdepth
    obtain ⟨hown, hafter, -⟩ := List.nodup_append'.1 hparts
    cases depth with
    | zero => exact absurd hdepth (Nat.not_lt_zero _)
    | succ depth =>
      rw [List.foldlM_cons]
      refine Goes.bind ?_ fun steps t trace order =>
        ihnext hafter _ rfl _ (by omega) (ahead.next once trace order)
      have hget : s.1.expr id = .ok e := Arena.expr_eq_ok ((ahead.expr? id (by simp)).trans get)
      rw [transformExpr, hget]
      refine (ihinside (List.nodup_append'.1 hown).1 _ rfl depth (by omega) (ahead.mono ?_)).bind
        fun _ _ _ _ => Goes.hook (fun _ hook => .leaveExpr hook) (fun _ hook => .leaveExpr hook)
          fun _ _ => .refl
      exact fun node hnode => by simp [hnode]
  | stmt => cases ids <;> cases hnodes

/-- A transformer goes through nodes in the order of their course, up to where it fails. -/
theorem goes_nodes {nodes : List (ExprId ⊕ StmtId)} {events : List Event}
    (course : a.Course nodes events) (once : (nodesLeft events).Nodup) (depth : Nat)
    (hdepth : (stmtsAmong (nodesLeft events)).length < depth)
    (walk : StmtId → Arena × σ → Except Fault (Arena × σ))
    (hwalk : ∀ id s, s.1.stmts.size = a.stmts.size → walk id s = r.transformStmt depth id s)
    {s : Arena × σ} (ahead : a.Agree s.1 (nodesLeft events)) :
    r.Goes s events (nodes.foldlM (r.transformChild walk) s) := by
  induction course generalizing depth walk s with
  | nil => exact .refl
  | @expr id e rest below after get inside _ _ ihnext =>
    rw [← List.singleton_append, ← List.append_assoc] at once hdepth ahead ⊢
    have hparts := once
    rw [nodesLeft_append] at hparts hdepth
    rw [stmtsAmong_append, List.length_append] at hdepth
    obtain ⟨hown, hafter, -⟩ := List.nodup_append'.1 hparts
    have hcourse : a.Course [.inl id] (below ++ [.leaveExpr id]) := .expr get inside .nil
    have hexpr := goes_exprs (r := r) (s := s) hcourse hown [id] rfl s.1.exprDepth
      (by rw [Arena.exprDepth, ahead.exprs]; exact Nat.lt_succ_of_le (hcourse.length_exprs_le hown))
      (ahead.mono (by rw [nodesLeft_append _ after]; exact List.subset_append_left _ _))
    simp only [List.foldlM_cons, List.foldlM_nil, bind_pure] at hexpr
    rw [List.foldlM_cons]
    exact hexpr.bind fun steps t trace order =>
      ihnext hafter depth (by omega) walk hwalk (ahead.next once trace order)
  | @stmt id stmt rest below after get inside _ ihinside ihnext =>
    have hsplit : .enterStmt id :: below ++ .leaveStmt id :: after =
        ([.enterStmt id] ++ (below ++ [.leaveStmt id])) ++ after := by simp
    rw [hsplit] at once hdepth ahead ⊢
    have hparts := once
    simp only [nodesLeft_append, nodesLeft_enterStmt, nodesLeft_leaveStmt, nodesLeft_nil,
      stmtsAmong_append, stmtsAmong_inr, List.length_append, List.length_cons,
      List.nil_append] at hparts hdepth
    obtain ⟨hown, hafter, -⟩ := List.nodup_append'.1 hparts
    cases depth with
    | zero => exact absurd hdepth (Nat.not_lt_zero _)
    | succ depth =>
      rw [List.foldlM_cons]
      refine Goes.bind ?_ fun steps t trace order =>
        ihnext hafter _ (by omega) walk hwalk (ahead.next once trace order)
      have hget : s.1.stmt id = .ok stmt :=
        Arena.stmt_eq_ok ((ahead.stmt? id (by simp)).trans get)
      rw [transformChild, hwalk id s ahead.stmts]
      obtain ⟨b, z⟩ := s
      rw [transformStmt, hget]
      refine Goes.hook (f := fun z => (b, z)) (fun _ hook => .enterStmt hook)
        (fun _ hook => .enterStmt hook) fun z _ => ?_
      have hinside := ihinside (List.nodup_append'.1 hown).1 depth (by omega) _
        (fun _ _ _ => rfl) (s := (b, z)) (ahead.mono fun node hnode => by simp [hnode])
      refine Goes.bind hinside fun _ t _ _ => ?_
      exact Goes.hook (f := fun z => (r.storeStmt id z.1 t.1, z.2)) (fun _ hook => .leaveStmt hook)
        (fun _ hook => .leaveStmt hook) fun _ _ => .refl

/-- So it goes through items. -/
theorem goes_items {items : List Item} {events : List Event} (course : a.ItemCourse items events)
    (once : (nodesLeft events).Nodup) {s : Arena × σ} (ahead : a.Agree s.1 (nodesLeft events)) :
    r.Goes s events (items.foldlM (fun s item => r.transformItem item s) s) := by
  induction course generalizing s with
  | nil => exact .refl
  | @cons item rest below after inside _ ih =>
    have hsplit : .enterItem item :: below ++ .leaveItem item :: after =
        ([.enterItem item] ++ (below ++ [.leaveItem item])) ++ after := by simp
    rw [hsplit] at once ahead ⊢
    have hparts := once
    simp only [nodesLeft_append, nodesLeft_enterItem, nodesLeft_leaveItem, nodesLeft_nil,
      List.nil_append, List.append_nil] at hparts
    obtain ⟨hbelow, hafter, -⟩ := List.nodup_append'.1 hparts
    rw [List.foldlM_cons]
    refine Goes.bind ?_ fun steps t trace order => ih hafter (ahead.next once trace order)
    refine Goes.hook (f := fun z => (s.1, z)) (fun _ hook => .enterItem hook)
      (fun _ hook => .enterItem hook) fun z _ => ?_
    have hinside := goes_nodes (r := r) (s := (s.1, z)) inside hbelow _
      (Nat.lt_succ_of_le (inside.length_stmts_le hbelow))
      (fun id s => r.transformStmt s.1.stmtDepth id s)
      (fun id s hsize => by rw [Arena.stmtDepth, hsize])
      (ahead.mono fun node hnode => by simp [hnode])
    refine Goes.bind hinside fun _ t _ _ => ?_
    exact Goes.hook (f := fun z => (t.1, z)) (fun _ hook => .leaveItem hook)
      (fun _ hook => .leaveItem hook) fun _ _ => .refl

/-- A run that is recorded records the events that it goes through. -/
theorem Trace.recorded_events {r : Transformer σ} {s t : Arena × σ × List (Step σ)}
    {steps : List (Step (σ × List (Step σ)))} (h : r.recording.Trace s steps t) :
    t.2.2.map (·.event) = s.2.2.map (·.event) ++ steps.map (·.event) := by
  induction h with
  | nil => simp
  | @snoc steps v event t _ does ih =>
    have hstep : t.2.2.map (·.event) = v.2.2.map (·.event) ++ [event] := by
      cases does with
      | enterItem hook | leaveItem hook | enterStmt hook | leaveStmt hook | leaveExpr hook =>
        obtain ⟨after, -, heq⟩ := of_map_ok hook
        cases heq
        simp [recorded]
    rw [hstep, ih, List.map_append, List.append_assoc]
    rfl

end Transformer

/-! ## One order -/

/-- Each expression and statement that an item leads to comes up once, and no other one does. A
parent is left after its children, and these in the order in which it lists them. -/
structure ShaderUnit.InOrder (u : ShaderUnit) (events : List Event) : Prop where
  items : events.filter (fun event => !event.ofNode) =
    u.items.flatMap fun item => [.enterItem item, .leaveItem item]
  exprs : ∀ id, .leaveExpr id ∈ events → u.Reaches id
  stmts : ∀ id, .enterStmt id ∈ events ∨ .leaveStmt id ∈ events → u.ReachesStmt id
  expr_once : ∀ id, u.Reaches id → events.count (.leaveExpr id) = 1
  stmt_once : ∀ id, u.ReachesStmt id →
    events.count (.enterStmt id) = 1 ∧ events.count (.leaveStmt id) = 1
  expr_children : ∀ id e, u.Reaches id → u.arena.expr? id = some e →
    List.Sublist (e.form.children.map .leaveExpr ++ [.leaveExpr id]) events
  stmt_children : ∀ id s, u.ReachesStmt id → u.arena.stmt? id = some s →
    List.Sublist (.enterStmt id :: s.form.children.map .leave ++ [.leaveStmt id]) events
  loop : ∀ id s init condition step body, u.ReachesStmt id → u.arena.stmt? id = some s →
    s.form = .forLoop init condition step body →
    List.Sublist (.enterStmt id :: init.toList.map .leaveStmt ++ condition.toList.map .leaveExpr ++
      step.toList.map .leaveExpr ++ [.leaveStmt body, .leaveStmt id]) events

namespace ShaderUnit.Unshared

variable {u : ShaderUnit} (h : u.Unshared) {events : List Event}
  (course : u.arena.ItemCourse u.items events)

include h course

/-- In an unshared unit nothing is left twice. -/
theorem nodup_itemCourse : (nodesLeft events).Nodup := by
  rw [← nodesLeft_filter]
  exact h.nodup_nodesLeft course.nodes

theorem count_leave {node : ExprId ⊕ StmtId} (hnode : u.Leads node) :
    events.count (.leave node) = 1 := by
  rw [Transformer.count_leave, ← nodesLeft_filter]
  exact h.count_nodesLeft course.nodes hnode

omit h in
/-- What is left is led to by an item. -/
theorem leads_of_leave {node : ExprId ⊕ StmtId} (mem : .leave node ∈ events) : u.Leads node := by
  rw [← mem_nodesLeft, ← nodesLeft_filter] at mem
  exact course.nodes.below_of_mem mem

omit h in
/-- A statement is left as often as it is entered. -/
theorem count_enterStmt (id : StmtId) :
    events.count (.enterStmt id) = events.count (.leaveStmt id) := by
  have hcount := course.nodes.count_enterStmt id
  rwa [List.count_filter rfl, List.count_filter rfl] at hcount

theorem mem_of_leads {node : ExprId ⊕ StmtId} (hnode : u.Leads node) :
    node ∈ nodesLeft (events.filter Event.ofNode) := by
  rw [nodesLeft_filter, mem_nodesLeft, ← List.count_pos_iff, h.count_leave course hnode]
  exact Nat.one_pos

/-- The course through the items comes to each node once, and to parents after their children. -/
theorem inOrder : u.InOrder events where
  items := course.items
  exprs id hmem := leads_expr.1 (leads_of_leave course hmem)
  stmts id hmem := by
    refine leads_stmt.1 (leads_of_leave course ?_)
    rcases hmem with hmem | hmem
    · rw [← List.count_pos_iff, count_enterStmt course] at hmem
      exact List.count_pos_iff.1 hmem
    · exact hmem
  expr_once id hid := h.count_leave course (leads_expr.2 hid)
  stmt_once id hid := by
    have hleave : events.count (.leaveStmt id) = 1 := h.count_leave course (leads_stmt.2 hid)
    exact ⟨(count_enterStmt course id).trans hleave, hleave⟩
  expr_children id e hid get :=
    (course.nodes.expr_sublist get (h.mem_of_leads course (leads_expr.2 hid))).trans
      List.filter_sublist
  stmt_children id s hid get :=
    (course.nodes.stmt_sublist get (h.mem_of_leads course (leads_stmt.2 hid))).trans
      List.filter_sublist
  loop id s init condition step body hid get hform := by
    have hall := (course.nodes.stmt_sublist get
      (h.mem_of_leads course (leads_stmt.2 hid))).trans List.filter_sublist
    have hleave : s.form.children.map Event.leave = init.toList.map .leaveStmt ++
        condition.toList.map .leaveExpr ++ step.toList.map .leaveExpr ++ [.leaveStmt body] := by
      cases init <;> cases condition <;> cases step <;> rw [hform] <;> rfl
    rw [hleave] at hall
    simpa using hall

omit course

/-- **Visitors and transformers go through a unit in one order.** In a unit whose ids are in range
and referred to at most once, the events that a visitor logs are those of every run of every
transformer, whatever its state, its mode and what its hooks give. A run ends unless one of its
hooks faults, and up to there its events are the first ones of the log. -/
theorem one_order : ∃ events, Visitor.eventLog.walk u [] = .ok events ∧ u.InOrder events ∧
    ∀ {σ : Type} (r : Transformer σ) (s : σ),
      (∀ u' t, r.run u s = .ok (u', t) → ∃ steps,
        r.recording.run u (s, []) = .ok (u', t, steps) ∧ steps.map (·.event) = events) ∧
      ∀ fault, r.run u s = .error fault → ∃ steps v event rest,
        r.Trace (u.arena, s) steps v ∧ r.Faults event v fault ∧
          events = steps.map (·.event) ++ event :: rest := by
  obtain ⟨events, course⟩ := h.exists_itemCourse
  have once := h.nodup_itemCourse course
  refine ⟨events, Visitor.eventLog_items course once [], h.inOrder course, fun {σ} r s => ⟨?_, ?_⟩⟩
  · intro u' t hrun
    obtain ⟨steps, -, hrecord⟩ := run_recording hrun
    refine ⟨steps, hrecord, ?_⟩
    obtain ⟨⟨a, z⟩, hfold, hresult⟩ := of_bind_ok hrecord
    cases hresult
    have hgoes := goes_items (r := r.recording) (s := (u.arena, s, [])) course once (.refl _ _)
    rw [hfold] at hgoes
    cases hgoes with
    | ends trace order => rw [trace.recorded_events, order, List.map_nil, List.nil_append]
  · intro fault hrun
    have hgoes := goes_items (r := r) (s := (u.arena, s)) course once (.refl _ _)
    unfold Transformer.run at hrun
    generalize u.items.foldlM (fun s item => r.transformItem item s) (u.arena, s) = x at hrun hgoes
    cases hgoes with
    | ends trace order => cases hrun
    | faults trace hook order =>
      cases hrun
      exact ⟨_, _, _, _, trace, hook, order⟩

omit h

/-- A loop with all its parts. An expression that no item leads to is its own child. -/
def looped : ShaderUnit where
  items := [.function ⟨"f", [], ⟨"void", .point 0 1 1⟩, ⟨2⟩, .point 0 1 1⟩]
  arena :=
    { exprs := #[⟨.literal (.int 0), .point 0 1 20⟩, ⟨.ident "i", .point 0 1 30⟩,
        ⟨.ident "i", .point 0 1 40⟩, ⟨.paren ⟨3⟩, .point 0 2 1⟩]
      stmts := #[⟨.declare ⟨"i", ⟨"int", .point 0 1 15⟩, some ⟨0⟩, .point 0 1 15⟩, .point 0 1 15⟩,
        ⟨.block [], .point 0 1 50⟩,
        ⟨.forLoop (some ⟨0⟩) (some ⟨1⟩) (some ⟨2⟩) ⟨1⟩, .point 0 1 10⟩] }

/-- Puts parentheses around what is in the same slot, and so makes each expression its own child. -/
def enclosing : Transformer Nat where
  mode := .all
  leaveExpr _ id n := .ok (some ⟨.paren id, .point 0 1 1⟩, n + 1)

theorem one_order_looped : looped.Unshared ∧ ∃ u' steps,
    enclosing.recording.run looped (0, []) = .ok (u', 3, steps) ∧
      u'.arena.expr? ⟨1⟩ = some ⟨.paren ⟨1⟩, .point 0 1 1⟩ ∧
      steps.map (·.event) = [.enterItem looped.items[0], .enterStmt ⟨2⟩, .enterStmt ⟨0⟩,
        .leaveExpr ⟨0⟩, .leaveStmt ⟨0⟩, .leaveExpr ⟨1⟩, .leaveExpr ⟨2⟩, .enterStmt ⟨1⟩,
        .leaveStmt ⟨1⟩, .leaveStmt ⟨2⟩, .leaveItem looped.items[0]] := by
  have unshared : looped.Unshared := ⟨by decide, by decide⟩
  obtain ⟨events, hlog, -, hruns⟩ := unshared.one_order
  obtain ⟨⟨u', n⟩, hrun, hfound⟩ := of_map_ok (show (enclosing.run looped 0).map
    (fun x => (x.2, x.1.arena.expr? ⟨1⟩)) = .ok (3, some ⟨.paren ⟨1⟩, .point 0 1 1⟩) by decide)
  cases congrArg Prod.fst hfound
  obtain ⟨steps, hrecord, horder⟩ := (hruns enclosing 0).1 u' 3 hrun
  refine ⟨unshared, u', steps, hrecord, congrArg Prod.snd hfound, ?_⟩
  rw [horder]
  exact Except.ok.inj (hlog.symm.trans (by decide))

end ShaderUnit.Unshared
end ShaderFront
