import ShaderFront.Proofs.Analysis.Slots

/-!
# Stripping parentheses

Leaving parentheses stores the node behind them, and settles them. So at the end of an analysis
every expression below an item is settled, and a settled expression unfolds to the tree it had,
without parentheses.
-/

namespace ShaderFront
namespace Stripping

section Holds

variable {mode : TransformMode} {u : ShaderUnit} {s : Arena × Analyzer} {id : ExprId} {e : Expr}

/-- A slot that still holds parentheses is the one of the unit. -/
theorem Holds.unchanged (h : Holds mode u s) (wf : u.WellFormed) (hid : u.Reaches id)
    (get : s.1.expr? id = some e) (hparen : e.form.IsParen) : u.arena.expr? id = some e := by
  obtain ⟨e', get', horigin⟩ := h.found wf hid
  cases get'.symm.trans get
  rcases horigin with hsame | hbehind
  · exact hsame
  · exact absurd hparen hbehind.plain

theorem Holds.finite (h : Holds mode u s) : {id | Changed u s.1 id}.Finite := by
  have hindex : Function.Injective ExprId.index := fun ⟨i⟩ ⟨j⟩ he => congrArg ExprId.mk he
  refine (ncard_index_lt hindex u.arena.exprs.size).1.subset fun id hid => ?_
  obtain ⟨-, -, ⟨e, he, -⟩, -⟩ := h.slot id hid
  exact (Array.getElem?_eq_some_iff.1 he).1

/-- A step that leaves the arena and the number of replacements as they are. -/
theorem Holds.move (h : Holds mode u s) {s' : Analyzer}
    (hcount : s'.replacements = s.2.replacements) : (invariant mode u).Leads s (s.1, s') :=
  ⟨⟨h.stmts, h.size, h.slot, hcount.trans h.count⟩, fun _ hsettled => hsettled⟩

/-- An expression that keeps its node is settled if its children are. -/
theorem Holds.settled_of_children (h : Holds mode u s)
    (get : s.1.expr? id = some e) (plain : ¬e.form.IsParen)
    (hchildren : ∀ c ∈ e.form.children, Settled u s.1 c) : Settled u s.1 id := by
  by_cases hchanged : Changed u s.1 id
  · exact (h.slot id hchanged).2.2.2
  · have hsame : u.arena.expr? id = some e := by rw [← not_not.1 hchanged, get]
    intro x hx e' hbehind
    rcases Relation.ReflTransGen.cases_head hx with rfl | ⟨c, hedge, hrest⟩
    · rw [get, (Arena.Behind.node hsame plain).eq hbehind]
    · obtain ⟨e'', hget, hc⟩ := hedge
      cases hget.symm.trans hsame
      exact hchildren c hc x hrest e' hbehind

/-- Storing the node behind parentheses settles nothing anew but these parentheses. -/
theorem settled_setExpr {a : Arena} {core : Expr} (hcore : u.arena.Behind id core)
    (hsize : id.index < a.exprs.size) {x : ExprId} (h : Settled u a x) :
    Settled u (a.setExpr id core) x := by
  intro y hy e hbehind
  by_cases heq : y = id
  · subst heq
    rw [hcore.eq hbehind]
    exact a.expr?_setExpr_self y core hsize
  · rw [a.expr?_setExpr_ne id y core heq]
    exact h y hy e hbehind

/-- Storing another node than the one of the unit. -/
theorem changed_setExpr {a : Arena} {core : Expr} (hsize : id.index < a.exprs.size)
    (hcore : u.arena.expr? id ≠ some core) :
    {x | Changed u (a.setExpr id core) x} = insert id {x | Changed u a x} := by
  ext x
  by_cases heq : x = id
  · subst heq
    simp [Changed, a.expr?_setExpr_self x core hsize, hcore.symm]
  · simp [Changed, a.expr?_setExpr_ne id x core heq, heq]

/-- What is found behind the parentheses is the node behind them. -/
theorem Holds.behind_of_settled (wf : u.WellFormed) {inner : ExprId} {core : Expr}
    (hinner : u.Reaches inner) (hsettled : Settled u s.1 inner)
    (get : s.1.expr? inner = some core) : u.arena.Behind inner core := by
  obtain ⟨e', hbehind⟩ := wf.exists_behind (hinner.has wf)
  have hget := hsettled inner .refl e' hbehind
  cases hget.symm.trans get
  exact hbehind

/-- Leaving an expression keeps the invariant, and settles the expression if its children are. -/
theorem Holds.store (h : Holds mode u s) (wf : u.WellFormed) {r : Transformer Analyzer}
    (hmode : r.mode = mode) (hid : u.Reaches id) (get : s.1.expr? id = some e)
    (hdone : ∀ c ∈ e.form.children, mode.exprs = true → Settled u s.1 c) {out : Option Expr}
    {n : Nat} (hout : Replacement mode s e out n) (s' : Analyzer) (hn : s'.replacements = n) :
    (invariant mode u).Leads s (r.storeExpr id out s.1, s') ∧
      (mode.exprs = true → Settled u (r.storeExpr id out s.1) id) := by
  cases hout with
  | keep plain =>
    exact ⟨h.move hn, fun hexprs =>
      h.settled_of_children get plain fun c hc => hdone c hc hexprs⟩
  | @strip inner core form getInner =>
    rw [Transformer.storeExpr, hmode]
    split
    · rename_i hexprs
      rw [if_pos hexprs] at hn
      have hsame : u.arena.expr? id = some e := h.unchanged wf hid get ⟨inner, form⟩
      have hmem : inner ∈ e.form.children := by simp [form, ExprForm.children]
      have hedge : u.arena.Child id inner := ⟨e, hsame, hmem⟩
      have hinner : Settled u s.1 inner := hdone inner hmem hexprs
      have hcore : u.arena.Behind id core := .paren hsame form
        (behind_of_settled wf (hid.below (.single hedge)) hinner getInner)
      have hsize : id.index < s.1.exprs.size := h.size ▸ hid.has wf
      have hold : ¬Changed u s.1 id := not_not.2 (get.trans hsame.symm)
      have hnew : {x | Changed u (s.1.setExpr id core) x} = insert id {x | Changed u s.1 x} :=
        changed_setExpr hsize fun heq => hcore.plain (by
          rw [Option.some.inj (heq.symm.trans hsame)]
          exact ⟨inner, form⟩)
      have hself : Settled u (s.1.setExpr id core) id := by
        intro x hx e' hbehind
        rcases Relation.ReflTransGen.cases_head hx with rfl | ⟨c, ⟨e'', hget, hc⟩, hrest⟩
        · rw [hcore.eq hbehind]
          exact s.1.expr?_setExpr_self id core hsize
        · cases hget.symm.trans hsame
          simp only [form, ExprForm.children, List.mem_singleton] at hc
          subst hc
          exact settled_setExpr hcore hsize hinner x hrest e' hbehind
      refine ⟨⟨⟨h.stmts, ?_, fun x hx => ?_, ?_⟩, fun x => settled_setExpr hcore hsize⟩,
        fun _ => hself⟩
      · rw [Arena.size_setExpr, h.size]
      · have hx' : x ∈ insert id {x | Changed u s.1 x} := hnew ▸ hx
        rcases hx' with rfl | hx'
        · exact ⟨hexprs, hid, ⟨e, hsame, inner, form⟩, hself⟩
        · obtain ⟨-, hreach, hparen, hsettled⟩ := h.slot x hx'
          exact ⟨hexprs, hreach, hparen, settled_setExpr hcore hsize hsettled⟩
      · rw [hnew, Set.ncard_insert_of_notMem hold h.finite, ← h.count]
        exact hn
    · rename_i hexprs
      rw [if_neg hexprs, Nat.add_zero] at hn
      exact ⟨h.move hn, fun hon => absurd hon hexprs⟩

end Holds

/-- Nothing is changed at the start. -/
theorem holds_start (u : ShaderUnit) (mode : TransformMode) :
    (invariant mode u).Holds (u.arena, .start u) := by
  refine ⟨rfl, rfl, fun id hid => absurd rfl hid, ?_⟩
  simp [Changed, Analyzer.start]

/-- **Every hook of the analysis keeps the invariant.** -/
theorem keeps {u : ShaderUnit} (wf : u.WellFormed) (rank : u.arena.Ranking) (rules : Rules)
    (mode : TransformMode) :
    (Analyzer.transformer rules mode).Keeps u rank (invariant mode u) where
  refl _ _ hsettled := hsettled
  trans hst htv id hsettled := htv id (hst id hsettled)
  done hst hdone hexprs := hst _ (hdone hexprs)
  size h := h.size
  stmts h := h.stmts
  expr h hid := Holds.expr h wf rank hid
  leaveExpr {s id e} h hid get hdone := by
    obtain ⟨operands, out, n, -, hout, hrun⟩ := Holds.leaveExpr h wf rules hid get
    obtain ⟨hleads, hsettled⟩ := Holds.store (r := Analyzer.transformer rules mode) h wf rfl hid get
      hdone hout { s.2.record id _ with replacements := n } rfl
    exact ⟨out, _, hrun, hleads, hsettled⟩
  enterStmt h hid get := by
    obtain ⟨s', hrun, hmoves⟩ := enterStmt_moves (u := u) rules get
    exact ⟨s', hrun, Holds.move h hmoves.replacements⟩
  leaveStmt h hid get hform := by
    obtain ⟨s', hrun, hmoves⟩ := Holds.leaveStmt h wf rules get fun e he => (hform e he).1
    exact ⟨none, s', hrun, Holds.move h hmoves.replacements⟩
  enterItem h hitem := ⟨_, rfl, Holds.move h (enterItem_moves rules hitem).replacements⟩
  leaveItem h _ hform := by
    obtain ⟨s', hrun, hmoves⟩ := Holds.leaveItem h wf rules fun e he => (hform e he).1
    exact ⟨s', hrun, Holds.move h hmoves.replacements⟩

/-! ## The unit that is left -/

section Settled

variable {mode : TransformMode} {u : ShaderUnit} {s : Arena × Analyzer}

/-- All ids are still in range, and no node lies below itself. -/
theorem Holds.wellFormed (h : Holds mode u s) (wf : u.WellFormed) :
    ShaderUnit.WellFormed { u with arena := s.1 } := by
  obtain ⟨rank⟩ := wf.ranking
  have hhas {child : ExprId ⊕ StmtId} (hc : u.arena.Has child) : s.1.Has child :=
    hc.mono h.size.ge (congrArg Array.size h.stmts).ge
  have hstmt (id : StmtId) : s.1.stmt? id = u.arena.stmt? id := Arena.stmt?_congr h.stmts id
  refine ⟨fun item hitem child hc => hhas (wf.items item hitem child hc), fun id child hc => ?_,
    fun id stmt get child hc => ?_, ?_, ?_⟩
  · obtain ⟨x, -, hedge⟩ := h.child wf hc
    exact hhas (wf.exprs x child hedge)
  · exact hhas (wf.stmts id stmt (hstmt id ▸ get) child hc)
  · exact not_transGen_of_rank rank.expr fun id child hc => h.child_rank wf rank hc
  · refine not_transGen_of_rank rank.stmt fun id child hedge => ?_
    obtain ⟨stmt, get, hc⟩ := hedge
    exact rank.stmt_child id child ⟨stmt, hstmt id ▸ get, hc⟩

/-- What is reached in the unit that is left was reached before. -/
theorem Holds.reaches (h : Holds mode u s) (wf : u.WellFormed) {id : ExprId}
    (hid : ShaderUnit.Reaches { u with arena := s.1 } id) : u.Reaches id := by
  obtain ⟨root, ⟨item, hitem, child, hchild, carries⟩, hbelow⟩ := hid
  have hroot : u.Root root := ⟨item, hitem, child, hchild, carries.congr h.stmts.symm⟩
  induction hbelow with
  | refl => exact hroot.reaches
  | tail _ hc ih =>
    obtain ⟨x, hbelow, hedge⟩ := h.child wf hc
    exact ih.below (hbelow.tail hedge)

/-- **A settled expression unfolds to the tree it had, without parentheses.** -/
theorem unfold_settled (wf : u.WellFormed) (rank : u.arena.Ranking) {a : Arena}
    {t : ExprId → ExprTree}
    (node : ∀ id e, u.arena.expr? id = some e → t id = .node (e.form.map t) e.span) {id : ExprId}
    (hid : u.arena.Has (.inl id)) (hsettled : Settled u a id) {depth : Nat}
    (hdepth : rank.expr id < depth) : a.unfold depth id = .ok (t id).strip := by
  induction hn : rank.expr id using Nat.strong_induction_on generalizing id depth with
  | _ n ih =>
    subst hn
    obtain ⟨e, he⟩ := hid.expr?
    have hchild (c : ExprId) (hc : c ∈ e.form.children) {depth : Nat}
        (hlt : rank.expr c < depth) : a.unfold depth c = .ok (t c).strip := by
      have hedge : u.arena.Child id c := ⟨e, he, hc⟩
      exact ih _ (rank.expr_child id c hedge) (wf.exprs id c hedge)
        (fun x hx => hsettled x (.head hedge hx)) hlt rfl
    obtain ⟨depth, rfl⟩ : ∃ below, depth = below + 1 := ⟨depth - 1, by omega⟩
    by_cases hparen : e.form.IsParen
    · obtain ⟨inner, hform⟩ := hparen
      have hmem : inner ∈ e.form.children := by simp [hform, ExprForm.children]
      have hedge : u.arena.Child id inner := ⟨e, he, hmem⟩
      obtain ⟨core, hcore⟩ := wf.exists_behind (wf.exprs id inner hedge)
      have hget : a.expr? id = some core := hsettled id .refl core (.paren he hform hcore)
      have hinner : a.expr? inner = some core := hsettled inner (.single hedge) core hcore
      have hrank := rank.expr_child id inner hedge
      rw [node id e he, hform, ExprForm.map, ExprTree.strip_paren, Arena.unfold_congr hget hinner]
      exact hchild inner hmem (by omega)
    · have hget : a.expr? id = some e := hsettled id .refl e (.node he hparen)
      have hplain : ¬(e.form.map t).IsParen := fun hmap => hparen hmap.of_map
      rw [node id e he, ExprTree.strip_node hplain, ExprForm.map_map]
      refine Arena.unfold_node hget fun c hc => hchild c hc ?_
      have hrank := rank.expr_child id c ⟨e, he, hc⟩
      omega

end Settled

/-- The analysis of a well-formed unit does not fault, and it leaves a unit that is well-formed. -/
theorem analyze_wellFormed {u : ShaderUnit} (wf : u.WellFormed) (config : AnalysisConfig) :
    ∃ r, analyze u config = .ok r ∧ r.unit.WellFormed := by
  obtain ⟨rank⟩ := wf.ranking
  obtain ⟨t, hrun, hleads, -⟩ :=
    analyze_keeps config (keeps wf rank _ _) wf (holds_start u _)
  exact ⟨_, hrun, hleads.holds.wellFormed wf⟩

theorem analyze_ok {u : ShaderUnit} (wf : u.WellFormed) (config : AnalysisConfig) :
    ∃ r, analyze u config = .ok r := by
  obtain ⟨r, ended, -⟩ := analyze_wellFormed wf config
  exact ⟨r, ended⟩

/-- **Stripping parentheses preserves meaning.** If replacements of expressions are stored, the
analysis of a well-formed unit does not fault, and it leaves a well-formed unit, in which:

* each expression below an item has the tree it had, without parentheses, and is none itself;
* nothing is reached that was not reached before;
* the file, the items, the statements and the number of expressions are the same, and so is each
  expression that is not below an item or is not in parentheses.

As many replacements are counted as there are parentheses below the items. -/
theorem analysis_strips {u : ShaderUnit} (wf : u.WellFormed) {config : AnalysisConfig}
    (hexprs : config.transform.exprs = true) :
    ∃ r, analyze u config = .ok r ∧ r.unit.WellFormed ∧
      (∀ id, u.Reaches id →
        (∃ t, u.arena.tree id = .ok t ∧ r.unit.arena.tree id = .ok t.strip) ∧
        ¬r.unit.arena.IsParen id) ∧
      (∀ id, r.unit.Reaches id → u.Reaches id) ∧
      (r.unit.file = u.file ∧ r.unit.items = u.items ∧ r.unit.arena.stmts = u.arena.stmts ∧
        r.unit.arena.exprs.size = u.arena.exprs.size ∧
        ∀ id, ¬u.Reaches id ∨ ¬u.arena.IsParen id →
          r.unit.arena.expr? id = u.arena.expr? id) ∧
      r.replacements = {id | u.Reaches id ∧ u.arena.IsParen id}.ncard := by
  obtain ⟨rank⟩ := wf.ranking
  obtain ⟨t, hrun, hleads, hroots⟩ :=
    analyze_keeps config (keeps wf rank (u.rules config) config.transform) wf (holds_start u _)
  obtain ⟨htree, hnode, htrees⟩ := wf.exists_unfold rank
  have h : Holds config.transform u t := hleads.holds
  have hsettled (id : ExprId) (hid : u.Reaches id) : Settled u t.1 id := by
    obtain ⟨root, hroot, hbelow⟩ := hid
    exact fun x hx => hroots root hroot hexprs x (hbelow.trans hx)
  have hplain (id : ExprId) (hid : u.Reaches id) : ¬t.1.IsParen id := by
    rintro ⟨e', he', hparen⟩
    obtain ⟨e, hbehind⟩ := wf.exists_behind (hid.has wf)
    cases (hsettled id hid id .refl e hbehind).symm.trans he'
    exact hbehind.plain hparen
  have hdepth (id : ExprId) : rank.expr id < u.arena.exprDepth := by
    have hle := rank.expr_le id
    rw [Arena.exprDepth]
    omega
  have hchanged : {id | Changed u t.1 id} = {id | u.Reaches id ∧ u.arena.IsParen id} := by
    ext id
    refine ⟨fun hid => ⟨(h.slot id hid).2.1, (h.slot id hid).2.2.1⟩, ?_⟩
    rintro ⟨hid, e, he, hparen⟩ hsame
    exact hplain id hid ⟨e, hsame.trans he, hparen⟩
  refine ⟨_, hrun, h.wellFormed wf, fun id hid => ⟨⟨htree id, ?_, ?_⟩, hplain id hid⟩,
    fun id hid => h.reaches wf hid, ⟨rfl, rfl, h.stmts, h.size, fun id hid => ?_⟩, ?_⟩
  · exact htrees id (hid.has wf) _ (hdepth id)
  · refine unfold_settled wf rank hnode (hid.has wf) (hsettled id hid) ?_
    rw [Arena.exprDepth, h.size]
    exact hdepth id
  · by_contra hdiffers
    obtain ⟨-, hreach, hparen, -⟩ := h.slot id hdiffers
    exact hid.elim (· hreach) (· hparen)
  · rw [← hchanged]
    exact h.count

/-- A global with an initial value in two pairs of parentheses. -/
def nested : ShaderUnit where
  items := [.global ⟨"x", ⟨"int", .point 0 1 1⟩, some ⟨2⟩, .point 0 1 1⟩]
  arena :=
    { exprs := #[⟨.literal (.int 1), .point 0 1 3⟩, ⟨.paren ⟨0⟩, .point 0 1 2⟩,
        ⟨.paren ⟨1⟩, .point 0 1 1⟩] }

theorem nested_wellFormed : nested.WellFormed :=
  ShaderUnit.Ascending.wellFormed ⟨by decide, fun i h => absurd h (Nat.not_lt_zero i), by decide⟩

theorem nested_reaches : nested.Reaches ⟨2⟩ :=
  ShaderUnit.Root.reaches ⟨_, List.mem_singleton_self _, .inl ⟨2⟩, List.mem_singleton_self _,
    .expr ⟨2⟩⟩

theorem analysis_strips_nested :
    nested.WellFormed ∧ ∃ r, analyze nested {} = .ok r ∧
      r.unit.arena.tree ⟨2⟩ = .ok (.node (.literal (.int 1)) (.point 0 1 3)) := by
  obtain ⟨r, hrun, -, htrees, -⟩ := @analysis_strips nested nested_wellFormed {} rfl
  obtain ⟨⟨t, ht, hstripped⟩, -⟩ := htrees ⟨2⟩ nested_reaches
  cases (show nested.arena.tree ⟨2⟩ = .ok (.node (.paren (.node (.paren (.node (.literal (.int 1))
    (.point 0 1 3))) (.point 0 1 2))) (.point 0 1 1)) from rfl).symm.trans ht
  exact ⟨nested_wellFormed, r, hrun, hstripped⟩

end Stripping
end ShaderFront
