import Mathlib.Algebra.Order.BigOperators.Group.List
import ShaderFront.Proofs.Syntax.Forest
import ShaderFront.Proofs.Syntax.Recording

/-!
# The course of a traversal

What happens, one event after the other, on the way through some nodes of an arena: depth first, in
the order in which children are listed, and each node is left after what lies below it. This course
is a matter of the arena alone. If all ids of a unit are in range and each one is referred to at
most once, there is a course through its items, and on it every node that is reached from an item is
left exactly once. Nodes that no item leads to may well lie below themselves.
-/

namespace ShaderFront

open Relation Transformer

/-- Nodes are equal if they are of one sort and their ids are equal. -/
instance : LawfulBEq (ExprId ⊕ StmtId) where
  eq_of_beq {n m} h := by
    rcases n with id | id <;> rcases m with id' | id'
    · have heq : (id == id') = true := h
      rw [eq_of_beq heq]
    · cases h
    · cases h
    · have heq : (id == id') = true := h
      rw [eq_of_beq heq]
  rfl {n} := by
    rcases n with id | id
    · exact beq_self_eq_true id
    · exact beq_self_eq_true id

namespace Transformer

/-- A node is left. -/
def Event.leave : ExprId ⊕ StmtId → Event
  | .inl id => .leaveExpr id
  | .inr id => .leaveStmt id

/-- The node that is left, if it is one that is left. -/
def Event.node? : Event → Option (ExprId ⊕ StmtId)
  | .leaveExpr id => some (.inl id)
  | .leaveStmt id => some (.inr id)
  | _ => none

/-- Whether it happens to an expression or a statement, and not to an item. -/
def Event.ofNode : Event → Bool
  | .enterItem _ | .leaveItem _ => false
  | _ => true

theorem Event.node?_eq_some {event : Event} {node : ExprId ⊕ StmtId} :
    event.node? = some node ↔ event = .leave node := by
  cases event <;> cases node <;> simp [Event.node?, Event.leave]

/-- The nodes that are left, in order. -/
def nodesLeft (events : List Event) : List (ExprId ⊕ StmtId) := events.filterMap Event.node?

@[simp] theorem nodesLeft_append (events more : List Event) :
    nodesLeft (events ++ more) = nodesLeft events ++ nodesLeft more := List.filterMap_append

@[simp] theorem nodesLeft_nil : nodesLeft [] = [] := rfl

@[simp] theorem nodesLeft_leaveExpr (id : ExprId) (events : List Event) :
    nodesLeft (.leaveExpr id :: events) = .inl id :: nodesLeft events := rfl

@[simp] theorem nodesLeft_enterStmt (id : StmtId) (events : List Event) :
    nodesLeft (.enterStmt id :: events) = nodesLeft events := rfl

@[simp] theorem nodesLeft_leaveStmt (id : StmtId) (events : List Event) :
    nodesLeft (.leaveStmt id :: events) = .inr id :: nodesLeft events := rfl

@[simp] theorem nodesLeft_enterItem (item : Item) (events : List Event) :
    nodesLeft (.enterItem item :: events) = nodesLeft events := rfl

@[simp] theorem nodesLeft_leaveItem (item : Item) (events : List Event) :
    nodesLeft (.leaveItem item :: events) = nodesLeft events := rfl

/-- The nodes that are left are those of the events that leave one. -/
theorem mem_nodesLeft {events : List Event} {node : ExprId ⊕ StmtId} :
    node ∈ nodesLeft events ↔ .leave node ∈ events := by
  simp [nodesLeft, List.mem_filterMap, Event.node?_eq_some]

theorem count_leave (events : List Event) (node : ExprId ⊕ StmtId) :
    events.count (.leave node) = (nodesLeft events).count node := by
  rw [nodesLeft, List.count_filterMap, List.count]
  congr 1
  funext event
  rw [Bool.eq_iff_iff, beq_iff_eq, ← Event.node?_eq_some]
  cases event.node? <;> simp

/-- Items are neither expressions nor statements. -/
theorem nodesLeft_filter (events : List Event) :
    nodesLeft (events.filter Event.ofNode) = nodesLeft events := by
  induction events with
  | nil => rfl
  | cons event rest ih =>
    cases event <;> simp [List.filter_cons, Event.ofNode, ih]

end Transformer

namespace Arena

/-- What happens on the way through some nodes, one after the other. -/
inductive Course (a : Arena) : List (ExprId ⊕ StmtId) → List Event → Prop where
  | nil : Course a [] []
  | expr {id e rest below after} (get : a.expr? id = some e)
      (inside : Course a (e.form.children.map .inl) below) (next : Course a rest after) :
      Course a (.inl id :: rest) (below ++ .leaveExpr id :: after)
  | stmt {id s rest below after} (get : a.stmt? id = some s)
      (inside : Course a s.form.children below) (next : Course a rest after) :
      Course a (.inr id :: rest) (.enterStmt id :: below ++ .leaveStmt id :: after)

/-- What happens on the way through some items. -/
inductive ItemCourse (a : Arena) : List Item → List Event → Prop where
  | nil : ItemCourse a [] []
  | cons {item rest below after} (inside : Course a item.children below)
      (next : ItemCourse a rest after) :
      ItemCourse a (item :: rest) (.enterItem item :: below ++ .leaveItem item :: after)

theorem children_expr {a : Arena} {id : ExprId} {e : Expr} (get : a.expr? id = some e) :
    a.children (.inl id) = e.form.children.map .inl := by
  rw [children, get]

theorem children_stmt {a : Arena} {id : StmtId} {s : Stmt} (get : a.stmt? id = some s) :
    a.children (.inr id) = s.form.children := by
  rw [children, get]

namespace Course

variable {a : Arena} {nodes more : List (ExprId ⊕ StmtId)} {events after : List Event}

/-- Two courses one after the other. -/
theorem append (h : a.Course nodes events) (h' : a.Course more after) :
    a.Course (nodes ++ more) (events ++ after) := by
  induction h with
  | nil => exact h'
  | expr get inside next _ ih =>
    simp only [List.cons_append, List.append_assoc]
    exact .expr get inside ih
  | stmt get inside next _ ih =>
    simp only [List.cons_append, List.append_assoc]
    exact .stmt get inside ih

/-- Each node is left. -/
theorem leave_sublist (h : a.Course nodes events) :
    (nodes.map Event.leave).Sublist events := by
  induction h with
  | nil => exact .slnil
  | expr _ _ _ _ ih => exact (ih.cons_cons _).trans (List.sublist_append_right _ _)
  | @stmt id _ _ below _ _ _ _ _ ih =>
    exact (ih.cons_cons _).trans (List.sublist_append_right (.enterStmt id :: below) _)

/-- What happens, happens to expressions and statements. -/
theorem ofNode (h : a.Course nodes events) : ∀ event ∈ events, event.ofNode := by
  induction h <;> simp_all [Event.ofNode, or_imp]

/-- The part of the course that goes through one node that is left on it. -/
theorem part (h : a.Course nodes events) {node : ExprId ⊕ StmtId}
    (mem : node ∈ nodesLeft events) : ∃ own, a.Course [node] own ∧ own <:+: events := by
  induction h with
  | nil => cases mem
  | @expr id e rest below after get inside next ihinside ihnext =>
    simp only [nodesLeft_append, nodesLeft_leaveExpr, List.mem_append, List.mem_cons] at mem
    rcases mem with hbelow | rfl | hafter
    · obtain ⟨own, hown, hpart⟩ := ihinside hbelow
      exact ⟨own, hown, hpart.trans (List.prefix_append _ _).isInfix⟩
    · exact ⟨below ++ [.leaveExpr id], .expr get inside .nil, [], after, by simp⟩
    · obtain ⟨own, hown, hpart⟩ := ihnext hafter
      exact ⟨own, hown, hpart.trans ((List.suffix_cons _ _).trans (List.suffix_append _ _)).isInfix⟩
  | @stmt id s rest below after get inside next ihinside ihnext =>
    simp only [List.cons_append, nodesLeft_enterStmt, nodesLeft_append, nodesLeft_leaveStmt,
      List.mem_append, List.mem_cons] at mem
    rcases mem with hbelow | rfl | hafter
    · obtain ⟨own, hown, hpart⟩ := ihinside hbelow
      exact ⟨own, hown, hpart.trans ⟨[.enterStmt id], .leaveStmt id :: after, by simp⟩⟩
    · exact ⟨.enterStmt id :: below ++ [.leaveStmt id], .stmt get inside .nil, [], after, by simp⟩
    · obtain ⟨own, hown, hpart⟩ := ihnext hafter
      exact ⟨own, hown, hpart.trans ((List.suffix_cons _ _).trans (List.suffix_append _ _)).isInfix⟩

/-- Only the nodes and what lies below them are left. -/
theorem below_of_mem (h : a.Course nodes events) {node : ExprId ⊕ StmtId}
    (mem : node ∈ nodesLeft events) : ∃ top ∈ nodes, ReflTransGen a.Refers top node := by
  induction h with
  | nil => cases mem
  | expr get _ _ inside next =>
    simp only [nodesLeft_append, nodesLeft_leaveExpr, List.mem_append, List.mem_cons] at mem
    rcases mem with hbelow | rfl | hafter
    · obtain ⟨child, hchild, hnode⟩ := inside hbelow
      rw [← children_expr get] at hchild
      exact ⟨_, List.mem_cons_self, .head hchild hnode⟩
    · exact ⟨_, List.mem_cons_self, .refl⟩
    · obtain ⟨top, htop, hnode⟩ := next hafter
      exact ⟨top, List.mem_cons_of_mem _ htop, hnode⟩
  | stmt get _ _ inside next =>
    simp only [List.cons_append, nodesLeft_enterStmt, nodesLeft_append, nodesLeft_leaveStmt,
      List.mem_append, List.mem_cons] at mem
    rcases mem with hbelow | rfl | hafter
    · obtain ⟨child, hchild, hnode⟩ := inside hbelow
      rw [← children_stmt get] at hchild
      exact ⟨_, List.mem_cons_self, .head hchild hnode⟩
    · exact ⟨_, List.mem_cons_self, .refl⟩
    · obtain ⟨top, htop, hnode⟩ := next hafter
      exact ⟨top, List.mem_cons_of_mem _ htop, hnode⟩

/-- A node is left for each time that it is listed, at the start or by a parent that is left. -/
theorem count_nodesLeft (h : a.Course nodes events) (node : ExprId ⊕ StmtId) :
    (nodesLeft events).count node =
      nodes.count node + ((nodesLeft events).flatMap a.children).count node := by
  induction h with
  | nil => rfl
  | expr get _ _ inside next =>
    simp only [nodesLeft_append, nodesLeft_leaveExpr, List.count_append, List.count_cons,
      List.flatMap_append, List.flatMap_cons, children_expr get] at inside next ⊢
    omega
  | stmt get _ _ inside next =>
    simp only [List.cons_append, nodesLeft_enterStmt, nodesLeft_append, nodesLeft_leaveStmt,
      List.count_append, List.count_cons, List.flatMap_append, List.flatMap_cons,
      children_stmt get] at inside next ⊢
    omega

/-- A statement is entered as often as it is left. -/
theorem count_enterStmt (h : a.Course nodes events) (id : StmtId) :
    events.count (.enterStmt id) = events.count (.leaveStmt id) := by
  induction h with
  | nil => rfl
  | expr _ _ _ inside next => simp [List.count_append, inside, next]
  | stmt _ _ _ inside next =>
    simp only [List.cons_append, List.count_append, List.count_cons, beq_iff_eq,
      Event.enterStmt.injEq, Event.leaveStmt.injEq, reduceCtorEq, if_false, inside, next]
    omega

/-- Children are left before their parent, in the order in which they are listed. -/
theorem expr_sublist (h : a.Course nodes events) {id : ExprId} {e : Expr}
    (get : a.expr? id = some e) (mem : .inl id ∈ nodesLeft events) :
    List.Sublist (e.form.children.map Event.leaveExpr ++ [.leaveExpr id]) events := by
  obtain ⟨own, hown, hpart⟩ := h.part mem
  cases hown with
  | expr get' inside next =>
    cases get.symm.trans get'
    have hchildren := inside.leave_sublist
    rw [List.map_map] at hchildren
    exact (hchildren.append (List.singleton_sublist.2 List.mem_cons_self)).trans hpart.sublist

/-- A statement is entered before its children are left, and left after them. -/
theorem stmt_sublist (h : a.Course nodes events) {id : StmtId} {s : Stmt}
    (get : a.stmt? id = some s) (mem : .inr id ∈ nodesLeft events) :
    List.Sublist (.enterStmt id :: s.form.children.map Event.leave ++ [.leaveStmt id])
      events := by
  obtain ⟨own, hown, hpart⟩ := h.part mem
  cases hown with
  | stmt get' inside next =>
    cases get.symm.trans get'
    exact ((inside.leave_sublist.cons_cons _).append
      (List.singleton_sublist.2 List.mem_cons_self)).trans hpart.sublist

end Course

/-- The expressions and statements on the course through items. -/
theorem ItemCourse.nodes {a : Arena} {items : List Item} {events : List Event}
    (h : a.ItemCourse items events) :
    a.Course (items.flatMap Item.children) (events.filter Event.ofNode) := by
  induction h with
  | nil => exact .nil
  | @cons item rest below after inside _ ih =>
    have hbelow : below.filter Event.ofNode = below := List.filter_eq_self.2 inside.ofNode
    simpa [List.filter_cons, Event.ofNode, hbelow] using inside.append ih

/-- Items are entered and left one after the other. -/
theorem ItemCourse.items {a : Arena} {items : List Item} {events : List Event}
    (h : a.ItemCourse items events) :
    events.filter (fun event => !event.ofNode) =
      items.flatMap fun item => [.enterItem item, .leaveItem item] := by
  induction h with
  | nil => rfl
  | @cons item rest below after inside _ ih =>
    have hbelow : below.filter (fun event => !event.ofNode) = [] := by
      simpa [List.filter_eq_nil_iff] using inside.ofNode
    simp only [List.cons_append, List.filter_cons, List.filter_append, List.flatMap_cons, hbelow,
      ih]
    rfl

end Arena

/-! ## Units whose ids are referred to once -/

namespace ShaderUnit

/-- All ids that are referred to are in range, and each one is referred to at most once. -/
structure Unshared (u : ShaderUnit) : Prop where
  has : ∀ child ∈ u.references, u.arena.Has child
  once : u.references.Nodup

/-- Nodes that are children of items, or below such children. -/
def Leads (u : ShaderUnit) (node : ExprId ⊕ StmtId) : Prop :=
  ∃ top ∈ u.items.flatMap Item.children, ReflTransGen u.arena.Refers top node

variable {u : ShaderUnit}

theorem leads_expr {id : ExprId} : u.Leads (.inl id) ↔ u.Reaches id := mem_extent_items

theorem leads_stmt {id : StmtId} : u.Leads (.inr id) ↔ u.ReachesStmt id := by
  constructor
  · rintro ⟨top, htop, hbelow⟩
    obtain ⟨item, hitem, hchild⟩ := List.mem_flatMap.1 htop
    obtain ⟨first, rfl, hpath⟩ := Arena.reflTransGen_stmt hbelow
    clear hbelow
    induction hpath with
    | refl => exact .item hitem hchild
    | tail _ hedge ih => exact .child ih hedge
  · intro h
    induction h with
    | item mem child => exact ⟨_, List.mem_flatMap.2 ⟨_, mem, child⟩, .refl⟩
    | child _ edge ih =>
      obtain ⟨top, htop, hbelow⟩ := ih
      exact ⟨top, htop, hbelow.tail (Arena.refers_stmt.2 edge)⟩

theorem Leads.child {node child : ExprId ⊕ StmtId} (h : u.Leads node)
    (hrefers : u.arena.Refers node child) : u.Leads child := by
  obtain ⟨top, htop, hbelow⟩ := h
  exact ⟨top, htop, hbelow.tail hrefers⟩

namespace Unshared

variable (h : u.Unshared)

include h

/-- What is led to is there. -/
theorem has_of_leads {node : ExprId ⊕ StmtId} (hnode : u.Leads node) : u.arena.Has node := by
  obtain ⟨top, htop, hbelow⟩ := hnode
  refine h.has node ?_
  cases hbelow with
  | refl => exact List.mem_append_left _ htop
  | tail _ hrefers =>
    exact List.mem_append_right _
      (List.mem_flatMap.2 ⟨_, Arena.Refers.mem_nodes hrefers, hrefers⟩)

/-- What an item leads to does not lie below itself: going back from it one comes to the item. -/
theorem not_transGen {node : ExprId ⊕ StmtId} (hnode : u.Leads node) :
    ¬TransGen u.arena.Refers node node := by
  obtain ⟨top, htop, hbelow⟩ := hnode
  induction hbelow with
  | refl =>
    intro hcycle
    obtain ⟨parent, -, hrefers⟩ := TransGen.tail'_iff.1 hcycle
    exact not_refers_of_nodup h.once htop hrefers
  | @tail node child _ hrefers ih =>
    intro hcycle
    obtain ⟨parent, hbelow, hrefers'⟩ := TransGen.tail'_iff.1 hcycle
    cases parent_unique_of_nodup h.once hrefers hrefers'
    exact ih (.head' hrefers hbelow)

/-- There is a course through nodes that items lead to. -/
theorem exists_course (nodes : List (ExprId ⊕ StmtId)) (hnodes : ∀ node ∈ nodes, u.Leads node) :
    ∃ events, u.arena.Course nodes events := by
  have hacyclic (node : ExprId ⊕ StmtId) :
      ¬TransGen (fun node child => u.Leads node ∧ u.arena.Refers node child) node node := by
    intro hcycle
    have hnode : u.Leads node := by
      obtain ⟨_, hfirst, -⟩ := TransGen.head'_iff.1 hcycle
      exact hfirst.1
    exact h.not_transGen hnode (TransGen.mono (fun _ _ hedge => hedge.2) node node hcycle)
  obtain ⟨rank, -, hrank⟩ := exists_rank (List.finite_toSet u.arena.nodes) hacyclic
    fun _ _ hedge => hedge.2.mem_nodes
  -- By the rank of the nodes; within one rank, node by node.
  suffices hbound : ∀ bound (nodes : List (ExprId ⊕ StmtId)),
      (∀ node ∈ nodes, u.Leads node ∧ rank node < bound) → ∃ events, u.arena.Course nodes events by
    obtain ⟨bound, hlt⟩ : ∃ bound, ∀ node ∈ nodes, rank node < bound :=
      ⟨(nodes.map rank).sum + 1, fun node hmem =>
        Nat.lt_succ_of_le (List.single_le_sum (by simp) _ (List.mem_map_of_mem hmem))⟩
    exact hbound bound nodes fun node hmem => ⟨hnodes node hmem, hlt node hmem⟩
  intro bound
  induction bound with
  | zero =>
    intro nodes hlt
    cases nodes with
    | nil => exact ⟨[], .nil⟩
    | cons node rest => exact absurd (hlt node List.mem_cons_self).2 (Nat.not_lt_zero _)
  | succ bound ih =>
    intro nodes hlt
    induction nodes with
    | nil => exact ⟨[], .nil⟩
    | cons node rest ihrest =>
      obtain ⟨after, hafter⟩ := ihrest fun other hmem => hlt other (List.mem_cons_of_mem _ hmem)
      obtain ⟨hnode, hbound⟩ := hlt node List.mem_cons_self
      obtain ⟨below, hbelow⟩ := ih (u.arena.children node) fun child hchild =>
        ⟨hnode.child hchild,
          Nat.lt_of_lt_of_le (hrank node child ⟨hnode, hchild⟩) (Nat.le_of_lt_succ hbound)⟩
      cases node with
      | inl id =>
        obtain ⟨e, get⟩ := (h.has_of_leads hnode).expr?
        rw [Arena.children_expr get] at hbelow
        exact ⟨_, .expr get hbelow hafter⟩
      | inr id =>
        obtain ⟨s, get⟩ := (h.has_of_leads hnode).stmt?
        rw [Arena.children_stmt get] at hbelow
        exact ⟨_, .stmt get hbelow hafter⟩

/-- There is a course through the items of a unit. -/
theorem exists_itemCourse : ∃ events, u.arena.ItemCourse u.items events := by
  suffices hsuffix : ∀ items, (∀ item ∈ items, item ∈ u.items) →
      ∃ events, u.arena.ItemCourse items events from hsuffix u.items fun _ => id
  intro items hitems
  induction items with
  | nil => exact ⟨[], .nil⟩
  | cons item rest ih =>
    obtain ⟨after, hafter⟩ := ih fun other hmem => hitems other (List.mem_cons_of_mem _ hmem)
    have hitem := hitems item List.mem_cons_self
    obtain ⟨below, hbelow⟩ := h.exists_course item.children fun child hchild =>
      ⟨child, List.mem_flatMap.2 ⟨item, hitem, hchild⟩, .refl⟩
    exact ⟨_, .cons hbelow hafter⟩

/-- **Each node that items lead to is left exactly once.** The item that has it as a child leaves it
once, or else its only parent does, which is left once itself. -/
theorem count_nodesLeft {events : List Event}
    (course : u.arena.Course (u.items.flatMap Item.children) events) {node : ExprId ⊕ StmtId}
    (hnode : u.Leads node) : (nodesLeft events).count node = 1 := by
  obtain ⟨top, htop, hbelow⟩ := hnode
  have hitems := (List.nodup_append'.1 h.once).1
  induction hbelow with
  | refl =>
    have hnone : top ∉ (nodesLeft events).flatMap u.arena.children := fun hmem => by
      obtain ⟨parent, -, hrefers⟩ := List.mem_flatMap.1 hmem
      exact not_refers_of_nodup h.once htop hrefers
    rw [course.count_nodesLeft, List.count_eq_one_of_mem hitems htop, List.count_eq_zero.2 hnone]
  | @tail parent child _ hrefers ih =>
    have hnone : child ∉ u.items.flatMap Item.children :=
      fun hmem => not_refers_of_nodup h.once hmem hrefers
    have hparent : ∀ other, (u.arena.children other).count child = [other].count parent := by
      intro other
      by_cases heq : other = parent
      · subst heq
        rw [List.count_eq_one_of_mem (nodup_children h.once _) hrefers, List.count_singleton_self]
      · have hother : child ∉ u.arena.children other :=
          fun hmem => heq (parent_unique_of_nodup h.once hmem hrefers)
        rw [List.count_eq_zero.2 hother, List.count_eq_zero.2 (by simpa using Ne.symm heq)]
    have hflat : ((nodesLeft events).flatMap u.arena.children).count child =
        (nodesLeft events).count parent := by
      rw [List.count_flatMap, ← List.flatMap_singleton' (nodesLeft events), List.count_flatMap,
        List.flatMap_singleton']
      exact congrArg List.sum (List.map_congr_left fun other _ => hparent other)
    rw [course.count_nodesLeft, List.count_eq_zero.2 hnone, hflat, ih, Nat.zero_add]

/-- Nothing is left twice. -/
theorem nodup_nodesLeft {events : List Event}
    (course : u.arena.Course (u.items.flatMap Item.children) events) :
    (nodesLeft events).Nodup := by
  rw [List.nodup_iff_count_le_one]
  intro node
  by_cases hmem : node ∈ nodesLeft events
  · exact (h.count_nodesLeft course (course.below_of_mem hmem)).le
  · rw [List.count_eq_zero.2 hmem]
    exact Nat.zero_le 1

end Unshared
end ShaderUnit
end ShaderFront
