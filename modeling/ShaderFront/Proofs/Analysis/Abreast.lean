import ShaderFront.Proofs.Analysis.Run
import ShaderFront.Proofs.Syntax.Lockstep

/-!
# Two analyses abreast

Two runs of the analysis that take the same way see the same, in the sense that a likeness gives: it
says how the names that they read, the types that they find, the places where they are and the
problems that they report are related. If the rules by which they go respect a likeness, so do their
hooks, and the runs stay abreast. Nothing is said of the nodes that are not ahead, nor of what was
found before.
-/

namespace ShaderFront

/-- In which sense two analyses see the same. -/
structure Likeness where
  written : WrittenType → WrittenType → Prop
  callee : String → String → Prop
  type : Ty → Ty → Prop
  place : Place → Place → Prop
  finding : Finding → Finding → Prop

namespace Likeness

variable (L : Likeness)

/-- Of both operands the rules see the same. -/
structure Seen (o o' : Operand) : Prop where
  type : Option.Rel L.type o.type o'.type
  span : o'.span = o.span
  core : o.core.Rel L.written L.callee Eq o'.core

/-- Two rules come to related values, and related problems are found on the way. -/
structure Comes {α β : Type} (R : α → β → Prop) (x : Reported α) (x' : Reported β) : Prop where
  value : R x.value x'.value
  findings : List.Forall₂ L.finding x.findings x'.findings

/-- Rules that are given what is alike come to what is alike. -/
structure Respected (r r' : Rules) : Prop where
  enterScope {p p' : Place} : L.place p p' → L.place p.enterScope p'.enterScope
  expr {p p' : Place} (span : Span) {form form' : ExprForm Operand} : L.place p p' →
    form.Rel L.written L.callee L.Seen form' →
    L.Comes (Option.Rel L.type) (r.type p.scope span form) (r'.type p'.scope span form')
  stmt {p p' : Place} (span : Span) {form form' : StmtForm Operand StmtId} : L.place p p' →
    form.Rel L.written L.Seen form' →
    L.Comes L.place (r.statement p span form) (r'.statement p' span form')

/-- At the nodes of a set, which has the children of its nodes, the arenas are alike. -/
structure Arenas (nodes : Set (ExprId ⊕ StmtId)) (a a' : Arena) : Prop where
  expr {id : ExprId} : .inl id ∈ nodes →
    Option.Rel (fun e e' => e'.span = e.span ∧ e.form.Rel L.written L.callee Eq e'.form ∧
      ∀ c ∈ e.form.children, .inl c ∈ nodes) (a.expr? id) (a'.expr? id)
  stmt {id : StmtId} : .inr id ∈ nodes →
    Option.Rel (fun s s' => s'.span = s.span ∧ s.form.Rel L.written Eq s'.form ∧
      ∀ c ∈ s.form.children, c ∈ nodes) (a.stmt? id) (a'.stmt? id)

end Likeness

namespace Analyzer

/-- At two moments what is at the nodes ahead is alike, the places are alike, and so is what was
found after `base` and `base'`. -/
structure Abreast (L : Likeness) (lenient : Prop) (nodes : Set (ExprId ⊕ StmtId))
    (base base' : List Finding) (s s' : Arena × Analyzer) : Prop where
  size : lenient ∨ s'.1.exprs.size = s.1.exprs.size ∧ s'.1.stmts.size = s.1.stmts.size
  arenas : L.Arenas nodes s.1 s'.1
  place : L.place s.2.place s'.2.place
  slots : s.2.types.slots.size = s.1.exprs.size
  slots' : s'.2.types.slots.size = s'.1.exprs.size
  types {id : ExprId} : .inl id ∈ nodes →
    Option.Rel L.type (s.2.types.get? id) (s'.2.types.get? id)
  findings : ∃ found found', s.2.findings = base ++ found ∧ s'.2.findings = base' ++ found' ∧
    List.Forall₂ L.finding found found'

namespace Abreast

variable {L : Likeness} {lenient : Prop} {nodes : Set (ExprId ⊕ StmtId)}
  {base base' : List Finding} {s s' : Arena × Analyzer}

/-! ## What the rules see -/

theorem core (h : Abreast L lenient nodes base base' s s') {depth depth' : Nat}
    (hdepth : lenient ∨ depth' = depth) {id : ExprId} (hid : .inl id ∈ nodes) :
    Together lenient (ExprForm.Rel L.written L.callee Eq) (s.1.core depth id)
      (s'.1.core depth' id) := by
  induction depth generalizing depth' id with
  | zero =>
    cases depth' with
    | zero => trivial
    | succ depth' => exact .error_left (hdepth.resolve_right nofun) _ _
  | succ depth ih =>
    cases depth' with
    | zero => exact .error_right (hdepth.resolve_right nofun) _ _
    | succ depth' =>
      refine (Arena.expr_together (h.arenas.expr hid)).bind fun e e' hnode => ?_
      obtain ⟨⟨form, span⟩, ⟨form', span'⟩⟩ := e, e'
      obtain ⟨⟨-, hform, hchildren⟩, -⟩ := hnode
      have hsame := hform
      dsimp only at hform hchildren hsame ⊢
      cases hform with
      | paren hinner =>
        subst hinner
        exact ih (hdepth.imp_right Nat.succ.inj) (hchildren _ List.mem_cons_self)
      | _ => exact hsame

theorem operand (h : Abreast L lenient nodes base base' s s') {id : ExprId}
    (hid : .inl id ∈ nodes) :
    Together lenient L.Seen (s.2.operand s.1 id) (s'.2.operand s'.1 id) := by
  have hdepth : lenient ∨ s'.1.exprDepth = s.1.exprDepth := h.size.imp_right fun hsize => by
    rw [Arena.exprDepth, Arena.exprDepth, hsize.1]
  refine (Arena.expr_together (h.arenas.expr hid)).bind fun e e' he => ?_
  obtain ⟨⟨hspan, -⟩, -⟩ := he
  exact (h.core hdepth hid).bind fun core core' hcore => ⟨h.types hid, hspan, hcore⟩

theorem optionalOperand (h : Abreast L lenient nodes base base' s s') {value value' : Option ExprId}
    (hvalue : Option.Rel Eq value value') (hmem : ∀ id ∈ value, .inl id ∈ nodes) :
    Together lenient (Option.Rel L.Seen) (s.2.optionalOperand s.1 value)
      (s'.2.optionalOperand s'.1 value') := by
  cases hvalue with
  | none => exact Option.Rel.none
  | some hid =>
    subst hid
    exact (h.operand (hmem _ rfl)).bind fun o o' ho => Option.Rel.some ho

theorem declOperands (h : Abreast L lenient nodes base base' s s') {decl decl' : VarDecl ExprId}
    (hdecl : decl.Rel L.written Eq decl') (hmem : ∀ id ∈ decl.init, .inl id ∈ nodes) :
    Together lenient (VarDecl.Rel L.written L.Seen) (s.2.declOperands s.1 decl)
      (s'.2.declOperands s'.1 decl') :=
  (h.optionalOperand hdecl.init hmem).bind fun _ _ hinit =>
    ⟨hdecl.name, hdecl.type, hinit, hdecl.span⟩

theorem stmtOperands (h : Abreast L lenient nodes base base' s s')
    {form form' : StmtForm ExprId StmtId} (hform : form.Rel L.written Eq form')
    (hmem : ∀ c ∈ form.children, c ∈ nodes) :
    Together lenient (StmtForm.Rel L.written L.Seen) (s.2.stmtOperands s.1 form)
      (s'.2.stmtOperands s'.1 form') := by
  cases hform with
  | block body => exact .block body
  | discard => exact .discard
  | breakLoop => exact .breakLoop
  | continueLoop => exact .continueLoop
  | empty => exact .empty
  | expr he =>
    subst he
    exact (h.operand (hmem _ (by simp [StmtForm.children]))).bind fun _ _ he => .expr he
  | declare hdecl =>
    refine (h.declOperands hdecl fun id hid => hmem _ ?_).bind fun _ _ hdecl => .declare hdecl
    simpa [StmtForm.children] using hid
  | ifElse hc yes no =>
    subst hc
    exact (h.operand (hmem _ (by simp [StmtForm.children]))).bind fun _ _ hc => .ifElse hc yes no
  | whileLoop hc body =>
    subst hc
    exact (h.operand (hmem _ (by simp [StmtForm.children]))).bind fun _ _ hc => .whileLoop hc body
  | forLoop init hc hs body =>
    have hcondition := h.optionalOperand hc fun id hid => hmem _ (by
      simpa [StmtForm.children] using .inl hid)
    have hstep := h.optionalOperand hs fun id hid => hmem _ (by
      simpa [StmtForm.children] using .inr hid)
    exact hcondition.bind fun _ _ hc => hstep.bind fun _ _ hs => .forLoop init hc hs body
  | returns hv =>
    refine (h.optionalOperand hv fun id hid => hmem _ ?_).bind fun _ _ hv => .returns hv
    simpa [StmtForm.children] using hid

/-! ## Hooks -/

/-- Both go to places that are alike, and find what is alike on the way. -/
theorem moveTo (h : Abreast L lenient nodes base base' s s') {p p' : Reported Place}
    (hp : L.Comes L.place p p') :
    Abreast L lenient nodes base base' (s.1, s.2.moveTo p) (s'.1, s'.2.moveTo p') := by
  obtain ⟨found, found', hfound, hfound', hall⟩ := h.findings
  refine { h with
    place := hp.value
    findings := ⟨found ++ p.findings, found' ++ p'.findings, ?_, ?_,
      List.rel_append hall hp.findings⟩ }
  · simp [Analyzer.moveTo, hfound]
  · simp [Analyzer.moveTo, hfound']

/-- Both go to places that are alike, and find nothing. -/
theorem goTo (h : Abreast L lenient nodes base base' s s') {p p' : Place} (hp : L.place p p') :
    Abreast L lenient nodes base base' (s.1, { s.2 with place := p })
      (s'.1, { s'.2 with place := p' }) := { h with place := hp }

/-- Both record types that are alike. -/
theorem record (h : Abreast L lenient nodes base base' s s') {id : ExprId}
    (hin : id.index < s.1.exprs.size) (hin' : id.index < s'.1.exprs.size)
    {type type' : Reported (Option Ty)} (htype : L.Comes (Option.Rel L.type) type type') :
    Abreast L lenient nodes base base' (s.1, s.2.record id type) (s'.1, s'.2.record id type') := by
  obtain ⟨found, found', hfound, hfound', hall⟩ := h.findings
  refine { h with
    slots := size_record.trans h.slots
    slots' := size_record.trans h.slots'
    types := fun {other} hother => ?_
    findings := ⟨found ++ type.findings, found' ++ type'.findings, ?_, ?_,
      List.rel_append hall htype.findings⟩ }
  · by_cases hid : other = id
    · subst hid
      have hold := h.types hother
      have hnew := htype.value
      rw [get?_record (h.slots ▸ hin), get?_record (h.slots' ▸ hin')]
      generalize type.value = new, type'.value = new' at hnew ⊢
      cases hnew with
      | none => exact hold
      | some hnew => exact .some hnew
    · rw [get?_record_ne _ hid, get?_record_ne _ hid]
      exact h.types hother
  · simp [Analyzer.record, hfound]
  · simp [Analyzer.record, hfound']

/-- Both count replacements, each for itself. -/
theorem counting (h : Abreast L lenient nodes base base' s s') (n n' : Nat) :
    Abreast L lenient nodes base base' (s.1, { s.2 with replacements := n })
      (s'.1, { s'.2 with replacements := n' }) := { h with }

end Abreast
end Analyzer

/-- What is stored under an id that was given out is found there. -/
theorem Arena.expr?_setExpr {a : Arena} {id : ExprId} {old : Expr} (get : a.expr? id = some old)
    (e : Expr) (other : ExprId) :
    (a.setExpr id e).expr? other = if other = id then some e else a.expr? other := by
  split
  · rename_i hid
    subst hid
    exact a.expr?_setExpr_self other e (Array.getElem?_eq_some_iff.1 get).1
  · rename_i hid
    exact a.expr?_setExpr_ne id other e hid

theorem Arena.stmt?_setStmt {a : Arena} {id : StmtId} {old : Stmt} (get : a.stmt? id = some old)
    (s : Stmt) (other : StmtId) :
    (a.setStmt id s).stmt? other = if other = id then some s else a.stmt? other := by
  obtain ⟨hlt, -⟩ := Array.getElem?_eq_some_iff.1 get
  split
  · rename_i hid
    subst hid
    simp [setStmt, stmt?, hlt]
  · rename_i hid
    exact a.stmt?_setStmt_ne id other s hid

namespace Analyzer.Abreast

variable {L : Likeness} {lenient : Prop} {nodes : Set (ExprId ⊕ StmtId)}
  {base base' : List Finding} {s s' : Arena × Analyzer} {r r' : Rules} {mode : TransformMode}

/-- Parentheses give way to what they enclose. -/
theorem strip (h : Abreast L lenient nodes base base' s s') {id inner : ExprId}
    (hinner : .inl inner ∈ nodes) {old old' e e' : Expr} (hold : s.1.expr? id = some old)
    (hold' : s'.1.expr? id = some old') (he : s.1.expr? inner = some e)
    (he' : s'.1.expr? inner = some e') :
    Abreast L lenient nodes base base'
      ((transformer r mode).storeExpr id (some e) s.1, s.2)
      ((transformer r' mode).storeExpr id (some e') s'.1, s'.2) := by
  have hmode : (transformer r mode).mode = mode ∧ (transformer r' mode).mode = mode := ⟨rfl, rfl⟩
  unfold Transformer.storeExpr
  dsimp only
  rw [hmode.1, hmode.2]
  split
  · refine { h with
      size := h.size.imp_right fun hsize => ⟨by simpa using hsize.1, hsize.2⟩
      slots := by simpa using h.slots
      slots' := by simpa using h.slots'
      arenas := ⟨fun {other} hother => ?_, h.arenas.stmt⟩ }
    rw [Arena.expr?_setExpr hold, Arena.expr?_setExpr hold']
    split
    · rw [← he, ← he']
      exact h.arenas.expr hinner
    · exact h.arenas.expr hother
  · exact h

theorem leaveExpr (h : Abreast L lenient nodes base base' s s') (hr : L.Respected r r')
    {id : ExprId} (hid : .inl id ∈ nodes) :
    Together lenient (fun x x' => Abreast L lenient nodes base base'
        ((transformer r mode).storeExpr id x.1 s.1, x.2)
        ((transformer r' mode).storeExpr id x'.1 s'.1, x'.2))
      (leaveExpr r mode s.1 id s.2) (Analyzer.leaveExpr r' mode s'.1 id s'.2) := by
  refine (Arena.expr_together (h.arenas.expr hid)).bind fun e e' hnode => ?_
  obtain ⟨⟨form, span⟩, ⟨form', span'⟩⟩ := e, e'
  obtain ⟨⟨hspan, hform, hchildren⟩, hget, hget'⟩ := hnode
  dsimp only at hspan hform hchildren ⊢
  subst hspan
  refine (hform.mapM fun c hc => h.operand (hchildren c hc)).bind fun seen seen' hseen => ?_
  have hrecord := h.record (Array.getElem?_eq_some_iff.1 hget).1
    (Array.getElem?_eq_some_iff.1 hget').1 (hr.expr span' h.place hseen)
  cases hform with
  | paren hinner =>
    subst hinner
    have hmem := hchildren _ List.mem_cons_self
    refine (Arena.expr_together (hrecord.arenas.expr hmem)).bind fun e e' ⟨_, he, he'⟩ => ?_
    exact (hrecord.counting _ _).strip hmem hget hget' he he'
  | _ => exact hrecord

theorem enterStmt (h : Abreast L lenient nodes base base' s s') (hr : L.Respected r r')
    {id : StmtId} (hid : .inr id ∈ nodes) :
    Together lenient (fun z z' => Abreast L lenient nodes base base' (s.1, z) (s'.1, z'))
      (enterStmt s.1 id s.2) (Analyzer.enterStmt s'.1 id s'.2) := by
  refine (Arena.stmt_together (h.arenas.stmt hid)).bind fun stmt stmt' ⟨⟨_, hform, _⟩, _⟩ => ?_
  have hscope : stmt'.form.opensScope = stmt.form.opensScope := by
    generalize stmt.form = form, stmt'.form = form' at hform ⊢
    cases hform <;> rfl
  rw [hscope]
  split
  · exact h.goTo (hr.enterScope h.place)
  · exact h

theorem leaveStmt (h : Abreast L lenient nodes base base' s s') (hr : L.Respected r r')
    {id : StmtId} (hid : .inr id ∈ nodes) :
    Together lenient (fun x x' => Abreast L lenient nodes base base'
        ((transformer r mode).storeStmt id x.1 s.1, x.2)
        ((transformer r' mode).storeStmt id x'.1 s'.1, x'.2))
      (leaveStmt r s.1 id s.2) (Analyzer.leaveStmt r' s'.1 id s'.2) := by
  refine (Arena.stmt_together (h.arenas.stmt hid)).bind fun stmt stmt' hnode => ?_
  obtain ⟨⟨hspan, hform, hchildren⟩, -⟩ := hnode
  refine (h.stmtOperands hform hchildren).bind fun seen seen' hseen => ?_
  rw [hspan]
  exact h.moveTo (hr.stmt stmt.span h.place hseen)

/-- **Analyses stay abreast** if their rules respect the likeness. -/
theorem lockstep (hr : L.Respected r r') (lenient : Prop) (nodes : Set (ExprId ⊕ StmtId))
    (base base' : List Finding) (mode : TransformMode) :
    (transformer r mode).Lockstep (transformer r' mode) lenient nodes
      (Abreast L lenient nodes base base') where
  size h := h.size
  expr {s s' id} h hid := by
    have hexpr := h.arenas.expr hid
    generalize s.1.expr? id = e, s'.1.expr? id = e' at hexpr ⊢
    cases hexpr with
    | none => exact .none
    | some he => exact .some ⟨he.2.1.children, he.2.2⟩
  stmt {s s' id} h hid := by
    have hstmt := h.arenas.stmt hid
    generalize s.1.stmt? id = stmt, s'.1.stmt? id = stmt' at hstmt ⊢
    cases hstmt with
    | none => exact .none
    | some hs => exact .some ⟨hs.2.1.children, hs.2.2⟩
  leaveExpr h hid := h.leaveExpr hr hid
  enterStmt h hid := h.enterStmt hr hid
  leaveStmt h hid := h.leaveStmt hr hid

/-- A global is declared with what is seen of its initial value. -/
theorem leaveGlobal (h : Abreast L lenient nodes base base' s s') (hr : L.Respected r r')
    {decl decl' : VarDecl ExprId} (hdecl : decl.Rel L.written Eq decl')
    (hmem : ∀ id ∈ decl.init, .inl id ∈ nodes) :
    Together lenient (fun z z' => Abreast L lenient nodes base base' (s.1, z) (s'.1, z'))
      (leaveItem r s.1 (.global decl) s.2) (leaveItem r' s'.1 (.global decl') s'.2) :=
  (h.declOperands hdecl hmem).bind fun _ _ hseen =>
    h.moveTo (hr.stmt decl.span h.place (.declare hseen))

end Analyzer.Abreast
end ShaderFront
