import ShaderFront.Proofs.Analysis.Modes

/-!
# Analysing again

The analysis of a forest that strips its parentheses leaves a unit in which the slot of each
expression holds the node behind its parentheses. A second run over that unit types at the slot of
parentheses what the first run typed at the node behind them. So while the first run is at a node,
the second one is at the slot of the outermost parentheses around it, or at the node itself.
-/

namespace ShaderFront
namespace Rerun

open Transformer

/-- How a run over a forest and a run over what is left of it stand once some expressions have been
gone through. `twin` says where the first run has the type that the second run has at an expression
that is still reached. -/
structure Rel (u : ShaderUnit) (left : Arena) (twin : ExprId → ExprId) (V : Set ExprId)
    (s : Arena × Analyzer.Recorded) (s' : Arena × Analyzer) : Prop where
  first : Passed u.arena true V s.1
  second : s'.1 = left
  place : s'.2.place = s.2.1.place
  findings : s'.2.findings = s.2.1.findings
  count : s'.2.replacements = 0
  size : s.2.1.types.slots.size = u.arena.exprs.size
  size' : s'.2.types.slots.size = u.arena.exprs.size
  reached : ∀ id, ShaderUnit.Reaches { u with arena := left } id →
    s'.2.types.get? id = s.2.1.types.get? (twin id)
  hidden : ∀ id, ¬ShaderUnit.Reaches { u with arena := left } id → s'.2.types.get? id = none
  /-- What is ahead has no type yet. -/
  ahead : ∀ id, id ∉ V → s.2.1.types.get? id = none

section

variable {u : ShaderUnit} {left : Arena}

/-- The slot of an expression that was reached holds the node behind its parentheses. -/
theorem expr?_left (final : Passed u.arena true {id | u.Reaches id} left) {id : ExprId}
    (hid : u.Reaches id) {e : Expr} (behind : u.arena.Behind id e) :
    left.expr? id = some e := by
  obtain ⟨n, e', -, behind', get⟩ := final.done id hid
  rw [get, behind.eq behind']
  rfl

theorem root_iff (final : Passed u.arena true {id | u.Reaches id} left) {id : ExprId} :
    ShaderUnit.Root { u with arena := left } id ↔ u.Root id := by
  constructor
  · rintro ⟨item, hitem, child, hchild, carries⟩
    exact ⟨item, hitem, child, hchild, carries.congr final.stmts.symm⟩
  · rintro ⟨item, hitem, child, hchild, carries⟩
    exact ⟨item, hitem, child, hchild, carries.congr final.stmts⟩

/-- A child in what is left is the child of a node behind parentheses. -/
theorem child_left (final : Passed u.arena true {id | u.Reaches id} left) {id c : ExprId}
    (hid : u.Reaches id) (hc : left.Child id c) :
    ∃ x n, u.arena.Below id x ∧ u.arena.expr? x = some n ∧ ¬n.form.IsParen ∧
      c ∈ n.form.children := by
  obtain ⟨n, e, -, behind, get⟩ := final.done id hid
  obtain ⟨e', get', hmem⟩ := hc
  cases get.symm.trans get'
  obtain ⟨x, hbelow, hx⟩ := behind.exists_below
  exact ⟨x, e, hbelow, hx, behind.plain, hmem⟩

/-- What is still reached was reached before. -/
theorem reaches_of_left (final : Passed u.arena true {id | u.Reaches id} left) {id : ExprId}
    (hid : ShaderUnit.Reaches { u with arena := left } id) : u.Reaches id := by
  obtain ⟨root, hroot, hbelow⟩ := hid
  induction hbelow with
  | refl => exact ((root_iff final).1 hroot).reaches
  | tail _ hc ih =>
    obtain ⟨x, n, hx, get, -, hmem⟩ := child_left final ih hc
    exact ih.below (hx.tail ⟨n, get, hmem⟩)

/-- What stands in parentheses is not reached any more. -/
theorem not_reaches_inner (forest : u.Forest) (final : Passed u.arena true {id | u.Reaches id} left)
    {id inner : ExprId} {n : Expr} (get : u.arena.expr? id = some n)
    (form : n.form = .paren inner) : ¬ShaderUnit.Reaches { u with arena := left } inner := by
  have hedge : u.arena.Child id inner := ⟨n, get, by simp [form, ExprForm.children]⟩
  rintro ⟨root, hroot, hbelow⟩
  rcases Relation.ReflTransGen.cases_tail hbelow with heq | ⟨y, hy, hc⟩
  · subst heq
    exact forest.not_child_of_root ((root_iff final).1 hroot) hedge
  · obtain ⟨x, n', -, get', plain, hmem⟩ :=
      child_left final (reaches_of_left final ⟨root, hroot, hy⟩) hc
    cases forest.parent_unique (Arena.refers_expr.2 ⟨inner, hedge, rfl⟩)
      (Arena.refers_expr.2 ⟨inner, ⟨n', get', hmem⟩, rfl⟩)
    cases get.symm.trans get'
    exact plain ⟨inner, form⟩

end

/-- One expression has its twin elsewhere, and every other one is its own. -/
def twinAt (twin id : ExprId) : ExprId → ExprId := Function.update (fun x => x) id twin

theorem twinAt_same (id : ExprId) : twinAt id id = fun x => x := Function.update_eq_self id _

section

variable {u : ShaderUnit} {left : Arena} {V : Set ExprId} {id outer : ExprId}

/-- Both runs leave a node: the first one at its own slot, the second one at that of the
parentheses around it. -/
theorem Rel.record {s : Arena × Analyzer.Recorded} {s' : Arena × Analyzer}
    (h : Rel u left (fun x => x) V s s') (hnew : id ∉ V) (hnew' : outer ∉ V)
    (hid : u.arena.Has (.inl id)) (hid' : u.arena.Has (.inl outer))
    (hhidden : id = outer ∨ ¬ShaderUnit.Reaches { u with arena := left } id)
    (houter : ShaderUnit.Reaches { u with arena := left } outer)
    (type : Reported (Option Ty)) {b : Arena} (hfirst : Passed u.arena true (insert id V) b)
    (count : Nat) (log : List (Transformer.Step Analyzer)) :
    Rel u left (twinAt id outer) (insert id V)
      (b, { s.2.1.record id type with replacements := count }, log)
      (s'.1, s'.2.record outer type) where
  first := hfirst
  second := h.second
  place := h.place
  findings := congrArg (· ++ type.findings) h.findings
  count := h.count
  size := Analyzer.size_record.trans h.size
  size' := Analyzer.size_record.trans h.size'
  reached x hx := by
    by_cases heq : x = outer
    · subst heq
      have hfresh : s'.2.types.get? x = none := (h.reached x houter).trans (h.ahead x hnew')
      have hself : id.index < s.2.1.types.slots.size := h.size.symm ▸ hid
      have hself' : x.index < s'.2.types.slots.size := h.size'.symm ▸ hid'
      rw [twinAt, Function.update_self, Analyzer.get?_record_self hself' hfresh]
      exact (Analyzer.get?_record_self hself (h.ahead id hnew) type).symm
    · have hne : x ≠ id := by
        rintro rfl
        exact hhidden.elim heq (· hx)
      rw [twinAt, Function.update_of_ne heq, s'.2.get?_record_ne heq]
      exact (h.reached x hx).trans (s.2.1.get?_record_ne hne type).symm
  hidden x hx := by
    have hne : x ≠ outer := fun heq => hx (heq ▸ houter)
    rw [s'.2.get?_record_ne hne]
    exact h.hidden x hx
  ahead := Analyzer.record_ahead h.ahead id type

/-- The first run leaves parentheses, while the second run has been at the outermost ones around
the node already. -/
theorem Rel.recordParen {s : Arena × Analyzer.Recorded} {s' : Arena × Analyzer} {inner : ExprId}
    (h : Rel u left (twinAt inner outer) V s s') (hnew : id ∉ V) (hid : u.arena.Has (.inl id))
    (hhidden : id = outer ∨ ¬ShaderUnit.Reaches { u with arena := left } id)
    {b : Arena} (hfirst : Passed u.arena true (insert id V) b) (count : Nat)
    (log : List (Transformer.Step Analyzer)) :
    Rel u left (twinAt id outer) (insert id V)
      (b, { s.2.1.record id (pure (s.2.1.types.get? inner)) with replacements := count }, log)
      s' where
  first := hfirst
  second := h.second
  place := h.place
  findings := h.findings.trans (List.append_nil _).symm
  count := h.count
  size := Analyzer.size_record.trans h.size
  size' := h.size'
  reached x hx := by
    have hinner := h.reached x hx
    by_cases heq : x = outer
    · subst heq
      have hself : id.index < s.2.1.types.slots.size := h.size.symm ▸ hid
      have htyped := Analyzer.get?_record_self hself (h.ahead id hnew)
        (pure (s.2.1.types.get? inner))
      rw [twinAt, Function.update_self] at hinner ⊢
      exact hinner.trans htyped.symm
    · have hne : x ≠ id := by
        rintro rfl
        exact hhidden.elim heq (· hx)
      rw [twinAt, Function.update_of_ne heq] at hinner ⊢
      exact hinner.trans (s.2.1.get?_record_ne hne _).symm
  hidden x hx := h.hidden x hx
  ahead := Analyzer.record_ahead h.ahead id _

/-- What the first run sees of an expression that is still reached, the second run sees too. -/
theorem Rel.operand {s : Arena × Analyzer.Recorded} {s' : Arena × Analyzer}
    (h : Rel u left (fun x => x) V s s') (final : Passed u.arena true {id | u.Reaches id} left)
    (hid : ShaderUnit.Reaches { u with arena := left } id) {o : Operand}
    (hseen : Seen u.arena true s.2.1.types id o) : s'.2.operand s'.1 id = .ok o := by
  obtain ⟨get, behind⟩ := hseen
  rw [h.second, ← h.reached id hid]
  exact Analyzer.operand_plain (expr?_left final (reaches_of_left final hid) behind) behind.plain

end

variable {u : ShaderUnit} {left : Arena} {mode : TransformMode}

/-- Where the first run is: at a node, around which the outermost parentheses are those whose slot
the second run is at. -/
structure Twins (u : ShaderUnit) (left : Arena) (id outer : ExprId) : Prop where
  reaches : u.Reaches id
  still : ShaderUnit.Reaches { u with arena := left } outer
  above : u.arena.Below outer id
  hidden : id = outer ∨ ¬ShaderUnit.Reaches { u with arena := left } id

theorem Twins.refl (final : Passed u.arena true {id | u.Reaches id} left) {id : ExprId}
    (hid : ShaderUnit.Reaches { u with arena := left } id) : Twins u left id id :=
  ⟨reaches_of_left final hid, hid, .refl, .inl rfl⟩

theorem Twins.inner (forest : u.Forest) (final : Passed u.arena true {id | u.Reaches id} left)
    {id outer inner : ExprId} (h : Twins u left id outer) {n : Expr}
    (get : u.arena.expr? id = some n) (form : n.form = .paren inner) :
    Twins u left inner outer := by
  have hedge : u.arena.Child id inner := ⟨n, get, by simp [form, ExprForm.children]⟩
  exact ⟨h.reaches.below (.single hedge), h.still, h.above.tail hedge,
    .inr (not_reaches_inner forest final get form)⟩

/-- Going through a node whose children are gone through by both runs. -/
theorem follows_node (forest : u.Forest) (final : Passed u.arena true {id | u.Reaches id} left)
    (rules : Rules) (strips : mode.exprs = true) {depth depth' : Nat} {id outer : ExprId}
    (h : Twins u left id outer) {n : Expr} (get : u.arena.expr? id = some n)
    (plain : ¬n.form.IsParen) (getOuter : left.expr? outer = some n)
    (children : ∀ c, u.arena.Child id c →
      Follows (Rel u left fun x => x) (Rel u left fun x => x) (u.arena.extent [.inl c])
        ((Analyzer.transformer rules mode).recording.transformExpr depth c)
        ((Analyzer.transformer rules mode).transformExpr depth' c)) :
    Follows (fun V s s' => outer ∉ V ∧ Rel u left (fun x => x) V s s')
      (Rel u left (twinAt id outer)) (u.arena.extent [.inl id])
      ((Analyzer.transformer rules mode).recording.transformExpr (depth + 1) id)
      ((Analyzer.transformer rules mode).transformExpr (depth' + 1) outer) := by
  have hsize : u.arena.Has (.inl outer) := by
    show outer.index < u.arena.exprs.size
    rw [← final.size]
    exact (Array.getElem?_eq_some_iff.1 getOuter).1
  refine follows_expr forest (fun V s s' hnew hrel => ?_) (fun c hc => ?_) ?_
  · refine ⟨hrel.2.first.ahead id hnew, fun m hm => ?_⟩
    cases get.symm.trans hm
    exact ⟨n, hrel.2.second ▸ getOuter, rfl⟩
  · refine (children c hc).ahead fun hmem => forest.acyclic.exprs outer ?_
    exact .trans_right h.above (.head' hc (Arena.mem_extent_expr.1 hmem))
  · rintro V s s' m out z hm hnew hchildren ⟨hnew', hrel⟩ hleave
    cases get.symm.trans hm
    obtain ⟨f, out', count, hseen, hrun, hfirst⟩ :=
      (strips ▸ hrel.first : Passed u.arena mode.exprs V s.1).leaveExpr (s := (s.1, s.2.1))
        forest.acyclic rules hnew get hchildren
    obtain ⟨after, hhook, rfl⟩ := leaveExpr_of_recording hleave
    cases hhook.symm.trans hrun
    rw [strips] at hseen hfirst
    have hoperands : ∀ c ∈ n.form.children, s'.2.operand s'.1 c = .ok (f c) := fun c hc =>
      hrel.operand final (h.still.below (.single ⟨n, getOuter, hc⟩)) (hseen c hc)
    have hrun' := Analyzer.leaveExpr_plain rules mode (hrel.second ▸ getOuter) plain hoperands
    rw [hrel.place] at hrun'
    exact ⟨none, _, hrun', hrel.record hnew hnew' (Array.getElem?_eq_some_iff.1 get).1 hsize
      h.hidden h.still _ hfirst count _⟩

/-- Going through parentheses, once the first run has gone through what they enclose. -/
theorem follows_paren (forest : u.Forest) (rules : Rules) (strips : mode.exprs = true)
    {depth depth' : Nat} {id outer inner : ExprId} (h : Twins u left id outer) {n : Expr}
    (get : u.arena.expr? id = some n) (form : n.form = .paren inner)
    (enclosed : Follows (fun V s s' => outer ∉ V ∧ Rel u left (fun x => x) V s s')
      (Rel u left (twinAt inner outer)) (u.arena.extent [.inl inner])
      ((Analyzer.transformer rules mode).recording.transformExpr depth inner)
      ((Analyzer.transformer rules mode).transformExpr depth' outer)) :
    Follows (fun V s s' => outer ∉ V ∧ Rel u left (fun x => x) V s s')
      (Rel u left (twinAt id outer)) (u.arena.extent [.inl id])
      ((Analyzer.transformer rules mode).recording.transformExpr (depth + 1) id)
      ((Analyzer.transformer rules mode).transformExpr depth' outer) := by
  have hextent : u.arena.extent [.inl id] = insert id (u.arena.extent [.inl inner]) := by
    rw [Arena.extent_expr get, form]
    rfl
  have hout : id ∉ u.arena.extent [.inl inner] := by
    have hnot := forest.notMem_extent_children get
    rwa [form] at hnot
  intro V s s' t hdisjoint hrel hrun
  have hfresh : id ∉ V := Arena.notMem_of_disjoint hdisjoint
  obtain ⟨m, hm, hrun⟩ := of_bind_ok hrun
  obtain ⟨⟨a, z⟩, hfold, hrun⟩ := of_bind_ok hrun
  obtain ⟨⟨out, z'⟩, hleave, hrun⟩ := of_bind_ok hrun
  cases hrun
  cases get.symm.trans ((hrel.2.first.ahead id hfresh).symm.trans (Arena.expr?_of_ok hm))
  rw [form] at hfold
  obtain ⟨⟨b, v⟩, hinner, hpure⟩ := of_bind_ok hfold
  cases hpure
  have hsub : u.arena.extent [.inl inner] ⊆ u.arena.extent [.inl id] :=
    hextent ▸ Set.subset_insert _ _
  obtain ⟨t', hrun', hrel'⟩ := enclosed V s s' _ (hdisjoint.mono_left hsub) hrel hinner
  have hnew : id ∉ V ∪ u.arena.extent [.inl inner] := fun hmem => hmem.elim hfresh hout
  have hseen : ∀ c ∈ n.form.children, c ∈ V ∪ u.arena.extent [.inl inner] := by
    intro c hc
    rw [form] at hc
    cases List.mem_singleton.1 hc
    exact .inr (Arena.mem_extent_expr.2 .refl)
  obtain ⟨f, out', count, hf, hleave', hfirst⟩ :=
    (strips ▸ hrel'.first : Passed u.arena mode.exprs _ a).leaveExpr (s := (a, z.1))
      forest.acyclic rules hnew get hseen
  obtain ⟨after, hhook, rfl⟩ := leaveExpr_of_recording hleave
  cases hhook.symm.trans hleave'
  rw [strips] at hfirst
  have htype := (hf inner (by simp [form, ExprForm.children])).type_eq
  refine ⟨t', hrun', ?_⟩
  rw [hextent, Set.union_insert, form, ExprForm.map, Rules.type, htype]
  exact hrel'.recordParen hnew (Array.getElem?_eq_some_iff.1 get).1 h.hidden hfirst count _

/-- Where both runs are at one expression, nothing has a twin elsewhere afterwards. -/
theorem follows_same {id : ExprId}
    {f : Arena × Analyzer.Recorded → Except Fault (Arena × Analyzer.Recorded)}
    {g : Arena × Analyzer → Except Fault (Arena × Analyzer)}
    (h : Follows (fun V s s' => id ∉ V ∧ Rel u left (fun x => x) V s s')
      (Rel u left (twinAt id id)) (u.arena.extent [.inl id]) f g) :
    Follows (Rel u left fun x => x) (Rel u left fun x => x) (u.arena.extent [.inl id]) f g := by
  intro V s s' t hdisjoint hrel
  rw [twinAt_same] at h
  exact h V s s' t hdisjoint ⟨Arena.notMem_of_disjoint hdisjoint, hrel⟩

/-- **Going through an expression, and through what is left of it.** The second run is at the node
itself, or at the outermost parentheses around it. -/
theorem follows (forest : u.Forest) (final : Passed u.arena true {id | u.Reaches id} left)
    (rules : Rules) (strips : mode.exprs = true) (depth : Nat) {depth' : Nat}
    (hdepth : depth ≤ depth') {id outer : ExprId} (h : Twins u left id outer) {e : Expr}
    (behind : u.arena.Behind id e) (getOuter : left.expr? outer = some e) :
    Follows (fun V s s' => outer ∉ V ∧ Rel u left (fun x => x) V s s')
      (Rel u left (twinAt id outer)) (u.arena.extent [.inl id])
      ((Analyzer.transformer rules mode).recording.transformExpr depth id)
      ((Analyzer.transformer rules mode).transformExpr depth' outer) := by
  induction depth generalizing depth' id outer e with
  | zero =>
    intro V s s' t _ _ hrun
    cases hrun
  | succ depth ih =>
    cases behind with
    | node get plain =>
      obtain ⟨depth', rfl⟩ : ∃ below, depth' = below + 1 := ⟨depth' - 1, by omega⟩
      refine follows_node forest final rules strips h get plain getOuter fun c hc => ?_
      obtain ⟨e', get', hmem⟩ := hc
      cases get.symm.trans get'
      have hstill := h.still.below (.single ⟨e, getOuter, hmem⟩)
      obtain ⟨-, core, -, hcore, -⟩ := final.done c (reaches_of_left final hstill)
      exact follows_same (ih (by omega) (.refl final hstill) hcore
        (expr?_left final (reaches_of_left final hstill) hcore))
    | paren get form rest =>
      exact follows_paren forest rules strips h get form
        (ih (by omega) (h.inner forest final get form) rest getOuter)

theorem comparison (forest : u.Forest) (final : Passed u.arena true {id | u.Reaches id} left)
    (rules : Rules) (strips : mode.exprs = true) :
    Comparison u rules mode mode Eq (fun _ => True) (Rel u left fun x => x) where
  stmts h := ⟨h.first.stmts, h.second ▸ final.stmts⟩
  place h _ := h.place
  operand {V s s' id} h hroot hid := by
    obtain ⟨o, ho, hseen⟩ := h.first.operand forest.acyclic hid s.2.1
    have hstill := ((root_iff final).2 hroot).reaches
    exact ⟨o, o, ho, h.operand final hstill hseen, fun _ => ⟨rfl, rfl, fun _ => rfl⟩⟩
  move {V s s' event p p'} h _ hp := by
    obtain rfl := (hp trivial).eq
    exact { h with
      place := rfl
      findings := congrArg (· ++ p'.findings) h.findings }
  expr {id} hroot := by
    have hstill := ((root_iff final).2 hroot).reaches
    obtain ⟨-, core, -, hcore, -⟩ := final.done id hroot.reaches
    refine follows_exprDepth (fun V s s' h => ?_) fun depth => follows_same ?_
    · rw [h.second, final.size, h.first.size]
    · exact follows forest final rules strips depth (Nat.le_refl _) (.refl final hstill) hcore
        (expr?_left final hroot.reaches hcore)

theorem rel_start (final : Passed u.arena true {id | u.Reaches id} left) :
    Rel u left (fun x => x) ∅ (u.arena, .start u, [])
      (left, .start { u with arena := left }) where
  first := .start u.arena true
  second := rfl
  place := rfl
  findings := rfl
  count := rfl
  size := Analyzer.size_start u
  size' := (Analyzer.size_start _).trans final.size
  reached id _ := by rw [Analyzer.get?_start, Analyzer.get?_start]
  hidden id _ := Analyzer.get?_start _ id
  ahead id _ := Analyzer.get?_start u id

/-- **Analysing again finds the same and changes nothing.** If the analysis of a forest does not
fault, the analysis of the unit it leaves does not either. It finds the same at the same places,
leaves that unit as it is, and strips no parentheses if it strips any. What is still reached has the
type it had, and nothing else has one. If all ids are in range there is no fault. -/
theorem analysis_again {u : ShaderUnit} (forest : u.Forest) (config : AnalysisConfig) :
    (u.WellFormed → ∃ r, analyze u config = .ok r) ∧
    ∀ r, analyze u config = .ok r →
      ∃ r', analyze r.unit config = .ok r' ∧ r'.diagnostics = r.diagnostics ∧ r'.unit = r.unit ∧
        (config.transform.exprs = true → r'.replacements = 0) ∧
        ∀ id, (r.unit.Reaches id → r'.types.get? id = r.types.get? id) ∧
          (¬r.unit.Reaches id → r'.types.get? id = none) := by
  refine ⟨fun wf => Stripping.analyze_ok wf config, fun r ended => ?_⟩
  obtain ⟨hunit, hpassed, huntyped⟩ := Modes.analysis_passed forest ended
  cases hmode : config.transform.exprs with
  | false =>
    rw [hmode] at hpassed
    have hsame : r.unit = u := by rw [hunit, hpassed.unchanged]
    rw [hsame]
    exact ⟨r, ended, rfl, hsame, nofun, fun id => ⟨fun _ => rfl, huntyped id⟩⟩
  | true =>
    rw [hmode] at hpassed
    obtain ⟨t, t', -, rfl, ended', hrel⟩ :=
      (comparison forest hpassed (u.rules config) hmode).analyze config forest rfl
        (rel_start hpassed) ended
    refine ⟨_, ended', ?_, ?_, fun _ => hrel.count, fun id => ⟨hrel.reached id, hrel.hidden id⟩⟩
    · exact congrArg (List.map (·.diagnostic)) hrel.findings
    · exact congrArg (ShaderUnit.mk u.file u.items) hrel.second

theorem analysis_again_mismatched :
    Modes.mismatched.Forest ∧ ∃ r r', analyze Modes.mismatched {} = .ok r ∧
      analyze r.unit {} = .ok r' ∧ r.replacements = 2 ∧ r'.replacements = 0 ∧
      r'.unit = r.unit ∧ r'.diagnostics = r.diagnostics := by
  obtain ⟨-, hagain⟩ := analysis_again Modes.mismatched_forest {}
  have hcount : (analyze Modes.mismatched {}).map Analysis.replacements = .ok 2 := by
    decide +kernel
  obtain ⟨r, hrun, htwo⟩ := of_map_ok hcount
  obtain ⟨r', hrun', hdiagnostics, hunit, hzero, -⟩ := hagain r hrun
  exact ⟨Modes.mismatched_forest, r, r', hrun, hrun', htwo, hzero rfl, hunit, hdiagnostics⟩

end Rerun
end ShaderFront
