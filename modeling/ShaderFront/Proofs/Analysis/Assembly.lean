import ShaderFront.Proofs.Analysis.Checks

/-!
# Analyses put together from checks

The run goes through the items of a forest one after the other, and a check goes through one of
them by itself. The induction is on the items. While some items are still to come, the run has
changed nothing at their nodes, so at the next item it sees what a check sees; and what it changes
there lies apart from the items that are left.
-/

namespace ShaderFront

open Transformer Reported Relation

/-! ## A run and the checks -/

theorem TypeTable.get?_empty (size : Nat) (id : ExprId) : (empty size).get? id = none := by
  simp only [empty, get?, Array.getElem?_replicate]
  split <;> rfl

namespace Analyzer

/-- A moment at a place from which nothing has been changed yet at some items. -/
structure Pending (a : Arena) (p : Place) (items : List Item) (s : Arena × Analyzer) : Prop where
  place : s.2.place = p
  stmts : s.1.stmts = a.stmts
  size : s.1.exprs.size = a.exprs.size
  slots : s.2.types.slots.size = a.exprs.size
  expr : ∀ id ∈ a.extent (items.flatMap Item.children), s.1.expr? id = a.expr? id
  types : ∀ id ∈ a.extent (items.flatMap Item.children), s.2.types.get? id = none

/-- Below an item the types and the nodes are those of a check. -/
def Covers (a : Arena) (types : TypeTable) (b : Arena) (item : Item) (c : Arena × Analyzer) :
    Prop :=
  ∀ id ∈ a.extent item.children, types.get? id = c.2.types.get? id ∧ b.expr? id = c.1.expr? id

/-- On the way through items nothing was found and changed but what was found and changed by the
checks of the items. -/
structure Settled (a : Arena) (items : List Item) (s t : Arena × Analyzer)
    (checks : List (Arena × Analyzer)) : Prop where
  frame : Frame (a.below (items.flatMap Item.children)) s t
  findings : t.2.findings = s.2.findings ++ checks.flatMap (·.2.findings)
  covers : List.Forall₂ (Covers a t.2.types t.1) items checks

variable {rules : Rules} {mode : TransformMode} {u : ShaderUnit} {p : Place} {item : Item}
  {rest : List Item} {s t : Arena × Analyzer}

theorem mem_below_append {a : Arena} {node : ExprId ⊕ StmtId} {l l' : List (ExprId ⊕ StmtId)} :
    node ∈ a.below (l ++ l') ↔ node ∈ a.below l ∨ node ∈ a.below l' := by
  simp only [Arena.below, List.mem_append, Set.mem_ofPred_eq, or_and_right, exists_or]

/-- What is below the first item is below the items. -/
theorem below_first (a : Arena) (item : Item) (rest : List Item) :
    a.below item.children ⊆ a.below ((item :: rest).flatMap Item.children) := by
  intro node hnode
  rw [List.flatMap_cons]
  exact mem_below_append.2 (.inl hnode)

theorem below_rest (a : Arena) (item : Item) (rest : List Item) :
    a.below (rest.flatMap Item.children) ⊆ a.below ((item :: rest).flatMap Item.children) := by
  intro node hnode
  rw [List.flatMap_cons]
  exact mem_below_append.2 (.inr hnode)

/-- What is apart piece by piece is apart as a whole. -/
theorem disjoint_of_apart {nodes nodes' : List (ExprId ⊕ StmtId)}
    (h : u.Apart (nodes ++ nodes')) :
    Disjoint (u.arena.extent nodes) (u.arena.extent nodes') := by
  obtain ⟨-, -, hcross⟩ := List.pairwise_append.1 h
  rw [Set.disjoint_left]
  rintro x ⟨c, hc, hx⟩ ⟨d, hd, hx'⟩
  exact Set.disjoint_left.1 (hcross c hc d hd) ⟨c, List.mem_singleton_self c, hx⟩
    ⟨d, List.mem_singleton_self d, hx'⟩

/-- Two moments at which everything is the same were found the same on the way. -/
theorem Abreast.found {lenient : Prop} {nodes : Set (ExprId ⊕ StmtId)} {base base' : List Finding}
    (h : Abreast .same lenient nodes base base' s t) :
    ∃ found, s.2.findings = base ++ found ∧ t.2.findings = base' ++ found := by
  obtain ⟨found, found', hfound, hfound', hall⟩ := h.findings
  have heq : List.Forall₂ Eq found found' := hall
  rw [List.forall₂_eq_eq_eq] at heq
  exact ⟨found, hfound, heq ▸ hfound'⟩

/-- At a pending item the run sees what a check of the item sees. -/
theorem Pending.abreast (h : Pending u.arena p (item :: rest) s) :
    Abreast .same False (u.arena.below item.children) s.2.findings [] s
      (u.arena, { place := p, types := .empty u.arena.exprs.size }) := by
  have hmem (id : ExprId) (hid : .inl id ∈ u.arena.below item.children) :
      id ∈ u.arena.extent ((item :: rest).flatMap Item.children) := below_first _ item rest hid
  have hagrees : u.arena.AgreesAt s.1 (u.arena.below item.children) :=
    ⟨fun id hid => h.expr id (hmem id hid), fun id _ => Arena.stmt?_congr h.stmts id⟩
  refine ⟨.inr ⟨h.size.symm, by rw [h.stmts]⟩, hagrees.alike, h.place, h.slots.trans h.size.symm,
    by simp [TypeTable.empty], fun {id} hid => ?_, [], [], by simp, rfl, .nil⟩
  rw [h.types id (hmem id hid), TypeTable.get?_empty]
  exact .none

/-- What was pending after an item is pending still. -/
theorem Pending.past (h : Pending u.arena p (item :: rest) s)
    (apart : Disjoint (u.arena.extent item.children)
      (u.arena.extent (rest.flatMap Item.children)))
    (frame : Frame (u.arena.below item.children) s t)
    (place : t.2.place = rules.past p item) : Pending u.arena (rules.past p item) rest t := by
  have hout (id : ExprId) (hid : id ∈ u.arena.extent (rest.flatMap Item.children)) :
      .inl id ∉ u.arena.below item.children := fun hmem => Set.disjoint_left.1 apart hmem hid
  have hmem (id : ExprId) (hid : id ∈ u.arena.extent (rest.flatMap Item.children)) :
      id ∈ u.arena.extent ((item :: rest).flatMap Item.children) := below_rest _ item rest hid
  exact ⟨place, frame.stmts.trans h.stmts, frame.size.trans h.size, frame.slots.trans h.slots,
    fun id hid => (frame.expr id (hout id hid)).trans (h.expr id (hmem id hid)),
    fun id hid => (frame.types id (hout id hid)).trans (h.types id (hmem id hid))⟩

/-- An item is gone through, and checked by itself. -/
theorem Pending.checked (h : Pending u.arena p (item :: rest) s) (outermost : p.Outermost) :
    Together False (fun t c => t.2.place = rules.past p item ∧
        Frame (u.arena.below item.children) s t ∧ Covers u.arena t.2.types t.1 item c ∧
        t.2.findings = s.2.findings ++ c.2.findings)
      ((transformer rules mode).transformItem item s) (rules.check mode u.arena p item) := by
  have hsame := item_same rules mode h.abreast fun _ hc => Arena.mem_below_of_mem hc
  refine (hsame.also fun t ht => place_item ht (h.place ▸ outermost)).imp ?_
  rintro t c ⟨⟨habreast, hframe⟩, hplace⟩
  refine ⟨hplace.trans (by rw [h.place]), hframe, fun id hid => ⟨?_, ?_⟩, ?_⟩
  · exact (eq_of_optionRel (habreast.types hid)).symm
  · exact (habreast.arenas.expr?_eq hid).symm
  · obtain ⟨found, hfound, hfound'⟩ := habreast.found
    rw [hfound, hfound', List.nil_append]

/-- An item and the items after it. -/
theorem Settled.cons {c : Arena × Analyzer} {cs : List (Arena × Analyzer)} {v : Arena × Analyzer}
    (frame : Frame (u.arena.below item.children) s t) (covers : Covers u.arena t.2.types t.1 item c)
    (findings : t.2.findings = s.2.findings ++ c.2.findings)
    (apart : Disjoint (u.arena.extent item.children)
      (u.arena.extent (rest.flatMap Item.children)))
    (h : Settled u.arena rest t v cs) : Settled u.arena (item :: rest) s v (c :: cs) where
  frame := (frame.mono (below_first _ item rest)).trans (h.frame.mono (below_rest _ item rest))
  findings := by rw [h.findings, findings, List.flatMap_cons, List.append_assoc]
  covers := by
    refine .cons (fun id hid => ?_) h.covers
    have hout : .inl id ∉ u.arena.below (rest.flatMap Item.children) :=
      fun hmem => Set.disjoint_left.1 apart hid hmem
    obtain ⟨htypes, hexpr⟩ := covers id hid
    exact ⟨(h.frame.types id hout).trans htypes, (h.frame.expr id hout).trans hexpr⟩

/-- **A run is put together from checks.** The checks end if the run does, and then the run has
found and changed what they have. -/
theorem run_checks (rules : Rules) (mode : TransformMode) {items : List Item}
    (apart : u.Apart (items.flatMap Item.children)) (outermost : p.Outermost)
    (h : Pending u.arena p items s) :
    Together False (Settled u.arena items s)
      (items.foldlM (fun s item => (transformer rules mode).transformItem item s) s)
      (rules.checks mode u.arena p items) := by
  induction items generalizing p s with
  | nil => exact ⟨.refl _ _, (List.append_nil _).symm, .nil⟩
  | cons item rest ih =>
    rw [List.flatMap_cons] at apart
    have hdisjoint := disjoint_of_apart apart
    rw [List.foldlM_cons]
    refine (h.checked outermost).bind fun t c ⟨hplace, hframe, hcovers, hfindings⟩ => ?_
    have hrest := ih (List.pairwise_append.1 apart).2.1 (rules.past_outermost outermost item)
      (h.past hdisjoint hframe hplace)
    rw [← bind_pure (rest.foldlM _ t)]
    exact hrest.bind fun v cs hv => .cons hframe hcovers hfindings hdisjoint hv

/-! ## What a check depends on -/

/-- **A check sees the nodes below its item only.** -/
theorem check_local {a a' : Arena} (h : a.AgreesAt a' (a.below item.children))
    {c c' : Arena × Analyzer} (hc : rules.check mode a p item = .ok c)
    (hc' : rules.check mode a' p item = .ok c') :
    c'.2.findings = c.2.findings ∧ ∀ id ∈ a.extent item.children,
      c'.2.types.get? id = c.2.types.get? id ∧ c'.1.expr? id = c.1.expr? id := by
  have habreast : Abreast .same True (a.below item.children) [] []
      (a', { place := p, types := .empty a'.exprs.size })
      (a, { place := p, types := .empty a.exprs.size }) := by
    refine ⟨.inl trivial, h.alike, rfl, by simp [TypeTable.empty], by simp [TypeTable.empty],
      fun {id} _ => ?_, [], [], rfl, rfl, .nil⟩
    rw [TypeTable.get?_empty, TypeTable.get?_empty]
    exact .none
  have hsame := item_same rules mode habreast fun _ hc => Arena.mem_below_of_mem hc
  obtain ⟨hends, -⟩ := hsame.rel hc' hc
  obtain ⟨found, hfound, hfound'⟩ := hends.found
  refine ⟨by rw [hfound, hfound'], fun id hid => ⟨?_, ?_⟩⟩
  · exact (eq_of_optionRel (hends.types hid)).symm
  · exact (hends.arenas.expr?_eq hid).symm

/-- The check of one item among others. -/
theorem checks_getElem? {a : Arena} {items : List Item} {checks : List (Arena × Analyzer)}
    (h : rules.checks mode a p items = .ok checks) {i : Nat} (get : items[i]? = some item) :
    ∃ c, checks[i]? = some c ∧
      rules.check mode a ((items.take i).foldl rules.past p) item = .ok c := by
  induction items generalizing p checks i with
  | nil => cases get
  | cons first rest ih =>
    obtain ⟨c, hc, h⟩ := of_bind_ok h
    obtain ⟨others, hothers, h⟩ := of_bind_ok h
    cases h
    cases i with
    | zero =>
      cases get
      exact ⟨c, rfl, hc⟩
    | succ i => exact ih hothers get

theorem checks_append (a : Arena) (p : Place) (above below : List Item) :
    rules.checks mode a p (above ++ below) = (do
      let cs ← rules.checks mode a p above
      let ds ← rules.checks mode a (above.foldl rules.past p) below
      return cs ++ ds) := by
  induction above generalizing p with
  | nil => exact (bind_pure _).symm
  | cons item rest ih =>
    simp only [List.cons_append, Rules.checks, ih, bind_assoc, pure_bind, List.foldl_cons]

end Analyzer

/-! ## The analysis of a forest -/

/-- The items of a unit are checked, each by itself. -/
def ShaderUnit.checks (u : ShaderUnit) (config : AnalysisConfig) :
    Except Fault (List (Arena × Analyzer)) :=
  (u.rules config).checks config.transform u.arena {} u.items

/-- An analysis is put together from checks of the items: what they report follows in order on what
is reported when the items are collected, the types and the nodes below an item are those of its
check, and what is below no item has no type and stays as it is. -/
structure Analysis.MadeOf (r : Analysis) (u : ShaderUnit) (checks : List (Arena × Analyzer)) :
    Prop where
  findings : r.findings = (ItemTable.collect u).findings ++ checks.flatMap (·.2.findings)
  items : List.Forall₂ (Analyzer.Covers u.arena r.types r.unit.arena) u.items checks
  elsewhere : ∀ id, ¬u.Reaches id →
    r.types.get? id = none ∧ r.unit.arena.expr? id = u.arena.expr? id
  unit : r.unit = { u with arena := { u.arena with exprs := r.unit.arena.exprs } }
  size : r.unit.arena.exprs.size = u.arena.exprs.size
  slots : r.types.slots.size = u.arena.exprs.size

/-- An analysis is the run through the items, with what it yields at its end. -/
theorem analyze_eq_map (u : ShaderUnit) (config : AnalysisConfig) :
    analyze u config = (u.items.foldlM (fun s item =>
      (Analyzer.transformer (u.rules config) config.transform).transformItem item s)
      (u.arena, .start u)).map (.ofRun u) := by
  have hbind : analyze u config = ((u.items.foldlM (fun s item =>
      (Analyzer.transformer (u.rules config) config.transform).transformItem item s)
      (u.arena, .start u)).bind fun t => .ok ({ u with arena := t.1 }, t.2)).bind
        fun t => .ok ⟨t.1, (ItemTable.collect u).value, t.2.types, t.2.replacements,
          t.2.findings⟩ := rfl
  rw [hbind]
  cases u.items.foldlM (fun s item =>
    (Analyzer.transformer (u.rules config) config.transform).transformItem item s)
    (u.arena, .start u) <;> rfl

/-- **The analysis of a forest is put together from checks** of its items. -/
theorem analyze_checks {u : ShaderUnit} (forest : u.Forest) (config : AnalysisConfig) :
    Together False (fun r checks => r.MadeOf u checks) (analyze u config) (u.checks config) := by
  have hstart : Analyzer.Pending u.arena {} u.items (u.arena, .start u) :=
    ⟨rfl, rfl, rfl, Analyzer.size_start u, fun _ _ => rfl,
      fun id _ => Analyzer.get?_start u id⟩
  have hrun := Analyzer.run_checks (u.rules config) config.transform forest.apart_items ⟨rfl, rfl⟩
    hstart
  rw [analyze_eq_map]
  refine hrun.map fun t checks h => ⟨h.findings, h.covers, fun id hid => ?_, ?_, h.frame.size,
    h.frame.slots.trans (Analyzer.size_start u)⟩
  · have hout : .inl id ∉ u.arena.below (u.items.flatMap Item.children) :=
      fun hmem => hid (ShaderUnit.mem_extent_items.1 hmem)
    exact ⟨(h.frame.types id hout).trans (Analyzer.get?_start u id), h.frame.expr id hout⟩
  · obtain ⟨⟨exprs, stmts⟩, z⟩ := t
    have hstmts : stmts = u.arena.stmts := h.frame.stmts
    rw [Analysis.ofRun, hstmts]

end ShaderFront
