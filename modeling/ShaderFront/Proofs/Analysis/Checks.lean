import ShaderFront.Proofs.Analysis.Abreast
import ShaderFront.Proofs.Analysis.Levels

/-!
# Items checked by themselves

The analysis goes from item to item with one scope, one table of types, one arena and one list of
findings. Yet all that an item leaves to the next one is the name of a global. So in a forest each
item may as well be checked by itself, in the arena as it was and from the place where only the
globals above it are declared: it reports the same there, and it comes to the same types and nodes.
The checks of the items one by one are compared with the run by induction on the items. Both see the
same at the nodes of an item, and nothing but these nodes is changed on the way through it.
-/

namespace ShaderFront

open Transformer Reported Relation

/-! ## Checking one item -/

namespace Rules

variable (r : Rules) (mode : TransformMode) (a : Arena)

/-- The place past an item: a global is declared, and nothing else is left of the item. -/
def past (p : Place) : Item → Place
  | .global d => (p.declare d.name (r.declaredType d.name d.type).value d.span).value
  | .function _ | .struct _ | .typedef _ => p

/-- An item is checked by itself from a place. -/
def check (p : Place) (item : Item) : Except Fault (Arena × Analyzer) :=
  (Analyzer.transformer r mode).transformItem item
    (a, { place := p, types := .empty a.exprs.size })

/-- Items are checked each by itself, from the places where the globals above them are declared. -/
def checks : Place → List Item → Except Fault (List (Arena × Analyzer))
  | _, [] => .ok []
  | p, item :: rest => do
    let c ← r.check mode a p item
    let others ← checks (r.past p item) rest
    return c :: others

theorem past_outermost {p : Place} (h : p.Outermost) (item : Item) :
    (r.past p item).Outermost := by
  cases item with
  | global d => exact h.of_level (p.declare_level _ _ _)
  | function | struct | typedef => exact h

end Rules

/-! ## What is the same in two analyses -/

namespace Likeness

/-- Everything is the same. -/
def same : Likeness := ⟨Eq, Eq, Eq, Eq, Eq⟩

instance : Std.Refl same.finding := ⟨fun _ => rfl⟩

theorem eq_of_seen {o o' : Operand} (h : same.Seen o o') : o' = o := by
  obtain ⟨type, span, core⟩ := o
  obtain ⟨type', span', core'⟩ := o'
  obtain ⟨htype, hspan, hcore⟩ := h
  dsimp only at htype hspan hcore
  rw [eq_of_optionRel htype, hspan, hcore.eq]

theorem comes_same {α : Type} {R : α → α → Prop} {x : Reported α} (h : R x.value x.value) :
    same.Comes R x x := ⟨h, List.forall₂_refl _⟩

theorem respected_same (r : Rules) : same.Respected r r where
  enterScope := fun hp => congrArg Place.enterScope hp
  expr span form form' hp hform := by
    have heq := (hform.imp fun _ _ h => (eq_of_seen h).symm).eq
    cases hp
    rw [heq]
    refine comes_same ?_
    cases (r.type _ span form).value with
    | none => exact .none
    | some ty => exact .some rfl
  stmt span form form' hp hform := by
    have heq := (hform.imp fun _ _ h => (eq_of_seen h).symm).eq
    cases hp
    rw [heq]
    exact comes_same rfl

end Likeness

namespace Arena

variable {a a' : Arena} {roots : List (ExprId ⊕ StmtId)}

/-- The nodes of a list and all that is below them. -/
def below (a : Arena) (roots : List (ExprId ⊕ StmtId)) : Set (ExprId ⊕ StmtId) :=
  {node | ∃ root ∈ roots, ReflTransGen a.Refers root node}

theorem mem_below_of_mem {node : ExprId ⊕ StmtId} (h : node ∈ roots) : node ∈ a.below roots :=
  ⟨node, h, .refl⟩

theorem child_mem_below {node child : ExprId ⊕ StmtId} (h : node ∈ a.below roots)
    (hc : a.Refers node child) : child ∈ a.below roots := by
  obtain ⟨root, hroot, hbelow⟩ := h
  exact ⟨root, hroot, hbelow.tail hc⟩

/-- The arenas hold the same at some nodes. -/
structure AgreesAt (a a' : Arena) (nodes : Set (ExprId ⊕ StmtId)) : Prop where
  expr (id : ExprId) : .inl id ∈ nodes → a'.expr? id = a.expr? id
  stmt (id : StmtId) : .inr id ∈ nodes → a'.stmt? id = a.stmt? id

/-- What is the same in both arenas is alike. -/
theorem AgreesAt.alike (h : a.AgreesAt a' (a.below roots)) :
    Likeness.same.Arenas (a.below roots) a' a := by
  constructor
  · intro id hid
    rw [h.expr id hid]
    cases get : a.expr? id with
    | none => exact .none
    | some e =>
      refine .some ⟨rfl, .refl (fun _ => rfl) (fun _ => rfl) _, fun c hc => ?_⟩
      exact child_mem_below hid (refers_expr.2 ⟨c, ⟨e, get, hc⟩, rfl⟩)
  · intro id hid
    rw [h.stmt id hid]
    cases get : a.stmt? id with
    | none => exact .none
    | some s =>
      refine .some ⟨rfl, .refl (fun _ => rfl) _, fun c hc => ?_⟩
      exact child_mem_below hid (refers_stmt.2 ⟨s, get, hc⟩)

/-- Below the roots the arenas have the same nodes. -/
theorem AgreesAt.mem_below (h : a.AgreesAt a' (a.below roots)) {node : ExprId ⊕ StmtId}
    (hnode : node ∈ a.below roots) : node ∈ a'.below roots := by
  obtain ⟨root, hroot, hbelow⟩ := hnode
  refine ⟨root, hroot, ?_⟩
  induction hbelow with
  | refl => exact .refl
  | @tail parent child hparent hrefers ih =>
    refine ih.tail ?_
    have hmem : parent ∈ a.below roots := ⟨root, hroot, hparent⟩
    cases parent with
    | inl id => rwa [Refers, children, h.expr id hmem]
    | inr id => rwa [Refers, children, h.stmt id hmem]

end Arena

theorem Likeness.Arenas.expr?_eq {nodes : Set (ExprId ⊕ StmtId)} {a a' : Arena}
    (h : Likeness.same.Arenas nodes a a') {id : ExprId} (hid : .inl id ∈ nodes) :
    a'.expr? id = a.expr? id := by
  have hexpr := h.expr hid
  generalize a.expr? id = e, a'.expr? id = e' at hexpr ⊢
  cases hexpr with
  | none => rfl
  | @some e e' he =>
    obtain ⟨form, span⟩ := e
    obtain ⟨form', span'⟩ := e'
    obtain ⟨hspan, hform, -⟩ := he
    dsimp only at hspan hform
    rw [hspan, hform.eq]

namespace Analyzer

/-! ## What an item leaves as it is -/

/-- From one moment to another nothing has changed but at some nodes. -/
structure Frame (nodes : Set (ExprId ⊕ StmtId)) (s t : Arena × Analyzer) : Prop where
  stmts : t.1.stmts = s.1.stmts
  size : t.1.exprs.size = s.1.exprs.size
  slots : t.2.types.slots.size = s.2.types.slots.size
  expr (id : ExprId) : .inl id ∉ nodes → t.1.expr? id = s.1.expr? id
  types (id : ExprId) : .inl id ∉ nodes → t.2.types.get? id = s.2.types.get? id

namespace Frame

variable {nodes : Set (ExprId ⊕ StmtId)} {s t v : Arena × Analyzer}

theorem refl (nodes : Set (ExprId ⊕ StmtId)) (s : Arena × Analyzer) : Frame nodes s s :=
  ⟨rfl, rfl, rfl, fun _ _ => rfl, fun _ _ => rfl⟩

theorem trans (h : Frame nodes s t) (h' : Frame nodes t v) : Frame nodes s v where
  stmts := h'.stmts.trans h.stmts
  size := h'.size.trans h.size
  slots := h'.slots.trans h.slots
  expr id hid := (h'.expr id hid).trans (h.expr id hid)
  types id hid := (h'.types id hid).trans (h.types id hid)

theorem mono {more : Set (ExprId ⊕ StmtId)} (h : Frame nodes s t) (hsub : nodes ⊆ more) :
    Frame more s t where
  stmts := h.stmts
  size := h.size
  slots := h.slots
  expr id hid := h.expr id fun hmem => hid (hsub hmem)
  types id hid := h.types id fun hmem => hid (hsub hmem)

/-- Going to a place changes no node. -/
theorem moveTo (h : Frame nodes s t) (p : Reported Place) :
    Frame nodes s (t.1, t.2.moveTo p) := ⟨h.stmts, h.size, h.slots, h.expr, h.types⟩

theorem leaveExpr {rules : Rules} {mode : TransformMode} {a : Arena} {z z' : Analyzer}
    {id : ExprId} {out : Option Expr} (h : Frame nodes s (a, z)) (hid : .inl id ∈ nodes)
    (hook : leaveExpr rules mode a id z = .ok (out, z')) :
    Frame nodes s ((transformer rules mode).storeExpr id out a, z') := by
  obtain ⟨type, count, -, rfl⟩ := leaveExpr_typing hook
  refine h.trans ⟨?_, ?_, size_record, fun other hother => ?_, fun other hother => ?_⟩
  · unfold storeExpr
    split
    · split <;> rfl
    · rfl
  · unfold storeExpr
    split
    · split
      · exact a.size_setExpr id _
      · rfl
    · rfl
  · refine (transformer rules mode).expr?_storeExpr_ne ?_ out a
    rintro rfl
    exact hother hid
  · refine get?_record_ne z ?_ type
    rintro rfl
    exact hother hid

end Frame

variable {rules : Rules} {mode : TransformMode} {lenient : Prop}
  {nodes : Set (ExprId ⊕ StmtId)} {base base' : List Finding} {s s' t : Arena × Analyzer}

/-- On the way through nodes that are the same, both runs see the same, and the first one changes
nothing but these nodes. -/
theorem lockstep_same (rules : Rules) (mode : TransformMode) (lenient : Prop)
    (nodes : Set (ExprId ⊕ StmtId)) (base base' : List Finding) (s : Arena × Analyzer) :
    (transformer rules mode).Lockstep (transformer rules mode) lenient nodes
      fun t t' => Abreast .same lenient nodes base base' t t' ∧ Frame nodes s t := by
  refine (Abreast.lockstep (Likeness.respected_same rules) lenient nodes base base' mode).also
    (fun h hid hook => h.leaveExpr hid hook) (fun {a z id z'} h hid hook => ?_)
    fun {a z id out z'} h hid hook => ?_
  · obtain ⟨stmt, hstmt, -⟩ := of_bind_ok hook
    cases hook.symm.trans (enterStmt_ok z (Arena.stmt?_of_ok hstmt))
    exact h.moveTo _
  · obtain ⟨stmt, -, hook⟩ := of_bind_ok hook
    obtain ⟨form, -, hook⟩ := of_bind_ok hook
    cases hook
    exact h.moveTo _

/-- **An item changes its own nodes only**, by what is found at these nodes. -/
theorem item_same (rules : Rules) (mode : TransformMode)
    (h : Abreast .same lenient nodes base base' s s') {item : Item}
    (hmem : ∀ c ∈ item.children, c ∈ nodes) :
    Together lenient
      (fun t t' => Abreast .same lenient nodes base base' t t' ∧ Frame nodes s t)
      ((transformer rules mode).transformItem item s)
      ((transformer rules mode).transformItem item s') := by
  have hstep := lockstep_same rules mode lenient nodes base base' s
  have hplace : s'.2.place = s.2.place := h.place.symm
  have hrefl := Frame.refl nodes s
  cases item with
  | function f =>
    refine hstep.transformItem rfl hmem ?_ fun t t' ht => ?_
    · refine ⟨h.moveTo ?_, hrefl.moveTo _⟩
      rw [hplace]
      exact Likeness.comes_same rfl
    · have hleave := ht.1.goTo (congrArg Rules.leaveFunction ht.1.place)
      exact ⟨hleave, ht.2.stmts, ht.2.size, ht.2.slots, ht.2.expr, ht.2.types⟩
  | global d =>
    refine hstep.transformItem rfl hmem ⟨h, hrefl⟩ fun t t' ht => ?_
    have hinit : ∀ id ∈ d.init, .inl id ∈ nodes := fun id hid =>
      hmem _ (List.mem_map.2 ⟨id, Option.mem_toList.2 hid, rfl⟩)
    have hdecl : d.Rel Eq Eq d := by
      refine ⟨rfl, rfl, ?_, rfl⟩
      cases d.init with
      | none => exact .none
      | some id => exact .some rfl
    refine (ht.1.leaveGlobal (Likeness.respected_same rules) hdecl hinit).also fun z hz => ?_
    obtain ⟨seen, -, hz⟩ := of_bind_ok hz
    cases hz
    exact ht.2.moveTo _
  | struct | typedef => exact hstep.transformItem rfl hmem ⟨h, hrefl⟩ fun t t' ht => ht

/-! ## Where an item leads -/

/-- Expressions are gone through in one place. -/
theorem place_expr {depth : Nat} {id : ExprId}
    (h : (transformer rules mode).transformExpr depth id s = .ok t) :
    t.2.place = s.2.place := by
  induction depth generalizing id s t with
  | zero => cases h
  | succ depth ih =>
    have hchildren (l : List ExprId) (s t : Arena × Analyzer)
        (h : l.foldlM (fun s c => (transformer rules mode).transformExpr depth c s) s = .ok t) :
        t.2.place = s.2.place := by
      induction l generalizing s with
      | nil =>
        cases h
        rfl
      | cons c rest ih' =>
        rw [List.foldlM_cons] at h
        obtain ⟨v, hfirst, hrest⟩ := of_bind_ok h
        exact (ih' v hrest).trans (ih hfirst)
    obtain ⟨e, -, h⟩ := of_bind_ok h
    obtain ⟨⟨b, z⟩, hfold, h⟩ := of_bind_ok h
    obtain ⟨⟨out, z'⟩, hleave, h⟩ := of_bind_ok h
    cases h
    obtain ⟨type, count, -, rfl⟩ := leaveExpr_typing hleave
    exact hchildren _ _ (b, z) hfold

theorem value_declaration (r : Rules) (p : Place) (decl : VarDecl Operand) :
    (r.declaration p decl).value =
      (p.declare decl.name (r.declaredType decl.name decl.type).value decl.span).value := by
  unfold Rules.declaration
  rw [value_bind]
  dsimp only
  split <;> rfl

/-- **Past an item** a global is declared, and nothing else is left of the item. -/
theorem place_item {item : Item} (h : (transformer rules mode).transformItem item s = .ok t)
    (outermost : s.2.place.Outermost) : t.2.place = rules.past s.2.place item := by
  cases item with
  | struct | typedef =>
    cases h
    rfl
  | global d =>
    obtain ⟨z, hz, h⟩ := of_bind_ok h
    cases hz
    obtain ⟨⟨b, w⟩, hfold, h⟩ := of_bind_ok h
    obtain ⟨w', hleave, h⟩ := of_bind_ok h
    cases h
    obtain ⟨seen, hseen, hleave⟩ := of_bind_ok hleave
    cases hleave
    obtain ⟨init, -, hseen⟩ := of_bind_ok hseen
    cases hseen
    have hplace : w.place = s.2.place := by
      cases hinit : d.init with
      | none =>
        simp only [Item.children, hinit, Option.toList_none, List.map_nil, List.foldlM_nil]
          at hfold
        cases hfold
        rfl
      | some id =>
        simp only [Item.children, hinit, Option.toList_some, List.map_singleton,
          List.foldlM_cons, List.foldlM_nil, bind_pure] at hfold
        exact place_expr hfold
    exact (value_declaration rules _ _).trans (by rw [hplace]; rfl)
  | function f =>
    obtain ⟨steps, -, hrecord⟩ := (transformer rules mode).records_item (.function f) s t h
    obtain ⟨z, b, w, henter, hnested, hleave, -⟩ :=
      (nests rules mode).transformItem (hrecord [])
    cases henter
    obtain ⟨w', hw, heq⟩ := of_map_ok (x := leaveItem rules b (.function f) w.1) hleave
    cases hw
    have hplace : t.2.place = Rules.leaveFunction w.1.place := congrArg (·.1.place) heq.symm
    have hscope : (Rules.leaveFunction w.1.place).scope = s.2.place.scope :=
      Place.leaveScope_eq (hnested.level.outer.trans (rules.enterFunction_outer _ f))
    have hfunction : (Rules.leaveFunction w.1.place).function = s.2.place.function :=
      outermost.function.symm
    rw [hplace]
    generalize Rules.leaveFunction w.1.place = p at hscope hfunction ⊢
    obtain ⟨scope, function⟩ := p
    dsimp only at hscope hfunction
    rw [hscope, hfunction]
    rfl

end Analyzer
end ShaderFront
