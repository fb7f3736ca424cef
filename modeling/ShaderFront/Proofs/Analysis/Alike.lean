import Mathlib.Data.List.Forall2
import ShaderFront.Proofs.Analysis.Run

/-!
# Alike operands

All that a rule looks at in an operand is its type, its place if it has something to report there,
and its form if it has a type. Operands that agree in this are alike, and the rules yield the same
for them: the same value, and findings that say the same, at places as near to each other as those
of the operands are. What near means is left open; a place is near to itself.
-/

namespace ShaderFront

variable {near : Span → Span → Prop}

/-- The same is wrong, at a place near to the other. -/
structure Finding.Alike (near : Span → Span → Prop) (f f' : Finding) : Prop where
  problem : f'.problem = f.problem
  span : near f.span f'.span

/-- The same remark at a place near to the other. -/
structure Label.Alike (near : Span → Span → Prop) (l l' : Label) : Prop where
  span : near l.span l'.span
  message : l'.message = l.message
  primary : l'.primary = l.primary

/-- Diagnostics that differ in nothing but the places of their labels. -/
structure Diagnostic.Alike (near : Span → Span → Prop) (d d' : Diagnostic) : Prop where
  code : d'.code = d.code
  severity : d'.severity = d.severity
  message : d'.message = d.message
  labels : List.Forall₂ (Label.Alike near) d.labels d'.labels
  notes : d'.notes = d.notes
  suggestions : d'.suggestions = d.suggestions

/-- Findings that differ in their places make diagnostics that differ in their places. -/
theorem Finding.Alike.diagnostic {f f' : Finding} (h : f.Alike near f') :
    f.diagnostic.Alike near f'.diagnostic := by
  obtain ⟨hproblem, hspan⟩ := h
  unfold Finding.diagnostic
  rw [hproblem]
  exact ⟨rfl, rfl, rfl, .cons ⟨hspan, rfl, rfl⟩ .nil, rfl, rfl⟩

theorem Finding.Alike.map_diagnostic {l l' : List Finding}
    (h : List.Forall₂ (Finding.Alike near) l l') :
    List.Forall₂ (Diagnostic.Alike near) (l.map (·.diagnostic)) (l'.map (·.diagnostic)) := by
  rw [List.forall₂_map_left_iff, List.forall₂_map_right_iff]
  exact h.imp fun _ _ halike => halike.diagnostic

/-- What the rules cannot tell apart, but for the place. -/
structure Operand.Alike (near : Span → Span → Prop) (o o' : Operand) : Prop where
  type : o'.type = o.type
  span : near o.span o'.span
  core : o.type.isSome = true → o'.core = o.core

namespace Reported

variable {α β : Type}

/-- The same value, on the way to which the same was found. -/
structure Alike (near : Span → Span → Prop) (x x' : Reported α) : Prop where
  value : x'.value = x.value
  findings : List.Forall₂ (Finding.Alike near) x.findings x'.findings

/-- Reports one after the other, if what follows sees the same value. -/
theorem Alike.bind {x x' : Reported α} (h : x.Alike near x') {f f' : α → Reported β}
    (hf : (f x.value).Alike near (f' x.value)) : (x >>= f).Alike near (x' >>= f') := by
  refine ⟨?_, ?_⟩
  · rw [value_bind, value_bind, h.value]
    exact hf.value
  · rw [findings_bind, findings_bind, h.value]
    exact List.rel_append h.findings hf.findings

theorem alike_pure (a : α) : (pure a : Reported α).Alike near (pure a) := ⟨rfl, .nil⟩

theorem alike_find (problem : Problem) {span span' : Span} (h : near span span') :
    (find problem span).Alike near (find problem span') := ⟨rfl, .cons ⟨rfl, h⟩ .nil⟩

theorem alike_reject (problem : Problem) {span span' : Span} (h : near span span') :
    (reject problem span : Reported (Option α)).Alike near (reject problem span') :=
  ⟨rfl, .cons ⟨rfl, h⟩ .nil⟩

theorem alike_orReject (value : Option α) (problem : Problem) {span span' : Span}
    (h : near span span') :
    (orReject value problem span).Alike near (orReject value problem span') := by
  cases value with
  | none => exact alike_reject problem h
  | some a => exact alike_pure (some a)

theorem alike_refl [Std.Refl near] (x : Reported α) : x.Alike near x :=
  ⟨rfl, List.forall₂_same.2 fun f _ => ⟨rfl, Std.Refl.refl f.span⟩⟩

/-- If near means the same, alike does. -/
theorem Alike.eq {x x' : Reported α} (h : x.Alike Eq x') : x' = x := by
  have hfindings {l l' : List Finding} (hl : List.Forall₂ (Finding.Alike Eq) l l') : l' = l := by
    induction hl with
    | nil => rfl
    | @cons f f' _ _ hf _ ih =>
      obtain ⟨problem, span⟩ := f
      obtain ⟨problem', span'⟩ := f'
      rw [ih, (Finding.mk.injEq ..).mpr ⟨hf.problem, hf.span.symm⟩]
  obtain ⟨value, findings⟩ := x
  obtain ⟨value', findings'⟩ := x'
  rw [Reported.mk.injEq]
  exact ⟨h.value, hfindings h.findings⟩

end Reported

open Reported

namespace Operand.Alike

variable {o o' : Operand}

/-- Parentheses around an operand do not change whether it can be assigned to. -/
theorem assignable (h : o.Alike near o') (typed : o.type.isSome = true) :
    o'.isAssignable = o.isAssignable := by
  rw [isAssignable, isAssignable, h.core typed]

/-- Nor do they change whether it is a constant. -/
theorem constant (h : o.Alike near o') (typed : o.type.isSome = true) :
    o'.constant? = o.constant? := by
  rw [constant?, constant?, h.core typed]

/-- What is seen of the same children. -/
theorem forall₂_map {α : Type} {l : List α} {f f' : α → Operand}
    (h : ∀ c ∈ l, (f c).Alike near (f' c)) :
    List.Forall₂ (Operand.Alike near) (l.map f) (l.map f') := by
  rw [List.forall₂_map_left_iff, List.forall₂_map_right_iff]
  exact List.forall₂_same.2 h

end Operand.Alike

namespace Rules

/-! ## Expressions -/

/-- Each rule gives the same from operands that are alike, and reports it at places that are. -/
theorem condition_alike {span span' : Span} (h : near span span') (ty : Ty) :
    (condition span ty).Alike near (condition span' ty) := alike_orReject _ _ h

theorem store_alike (r : Rules) {span span' : Span} (h : near span span') (value target : Ty) :
    (r.store span value target).Alike near (r.store span' value target) := by
  unfold store
  split
  · exact alike_find _ h
  · split
    · exact alike_find _ h
    · exact alike_pure ()
  · exact alike_pure ()

/-- Arguments that are alike have the same types. -/
theorem argumentTypes_alike {args args' : List Operand}
    (h : List.Forall₂ (Operand.Alike near) args args') :
    argumentTypes args' = argumentTypes args := by
  induction h with
  | nil => rfl
  | cons harg _ ih =>
    unfold argumentTypes at ih ⊢
    rw [List.mapM_cons, List.mapM_cons, harg.type, ih]

variable [Std.Refl near]

theorem conditional_alike {c c' y y' n n' : Operand} (hc : c.Alike near c') (hy : y.Alike near y')
    (hn : n.Alike near n') (span : Span) :
    (conditional c y n span).Alike near (conditional c' y' n' span) := by
  unfold conditional
  rw [hc.type, hy.type, hn.type]
  dsimp only
  split
  all_goals
    refine Alike.bind (alike_refl _) ?_
    split
    · exact alike_pure none
    · split
      · exact alike_pure none
      · split
        · exact alike_pure _
        · exact Alike.bind (condition_alike hc.span _) (alike_refl _)

theorem index_alike {target position : Ty} {o o' : Operand} (h : o.Alike near o')
    (typed : o.type.isSome = true) (span : Span) :
    (index target position o span).Alike near (index target position o' span) := by
  unfold index
  rw [h.constant typed]
  split
  · exact alike_reject _ h.span
  · split
    · exact alike_refl _
    · split
      · exact alike_refl _
      · split
        · exact alike_reject _ h.span
        · exact alike_refl _

theorem assign_alike (r : Rules) (op : AssignOp) {target target' value value' : Operand}
    (ht : target.Alike near target') (hv : value.Alike near value') (span : Span) :
    (r.assign op target value span).Alike near (r.assign op target' value' span) := by
  unfold assign
  rw [ht.type, hv.type]
  split
  · rename_i place ty htype hvalue
    rw [ht.assignable (by rw [htype]; rfl)]
    dsimp only
    split
    · exact alike_reject _ ht.span
    · split
      all_goals
        refine Alike.bind (alike_refl _) ?_
        split
        · exact alike_refl _
        · exact Alike.bind (r.store_alike hv.span _ _) (alike_refl _)
  · exact alike_refl _

/-- The argument that is reported is the same one, at a place near to the other. -/
theorem construct_alike (target : Ty) {args args' : List Operand}
    (h : List.Forall₂ (Operand.Alike near) args args') (types : List Ty) (span : Span) :
    (construct target args types span).Alike near (construct target args' types span) := by
  have hfind : Option.Rel (fun x x' : Operand × Ty => near x.1.span x'.1.span ∧ x'.2 = x.2)
      ((args.zip types).find? fun x => !x.2.isNumeric)
      ((args'.zip types).find? fun x => !x.2.isNumeric) := by
    induction h generalizing types with
    | nil => exact .none
    | @cons arg arg' rest rest' harg _ ih =>
      cases types with
      | nil => exact .none
      | cons ty types =>
        simp only [List.zip_cons_cons, List.find?_cons]
        split
        · exact .some ⟨harg.span, rfl⟩
        · exact ih types
  unfold construct
  split
  · exact alike_refl _
  · generalize (args.zip types).find? _ = found, (args'.zip types).find? _ = found' at hfind ⊢
    cases hfind with
    | some hx =>
      obtain ⟨hspan, htype⟩ := hx
      simp only [htype]
      exact alike_find _ hspan
    | none => exact alike_refl _

theorem storeArguments_alike (r : Rules) {args args' : List Operand}
    (h : List.Forall₂ (Operand.Alike near) args args') (types : List Ty)
    (params : List (String × Option Ty)) :
    (r.storeArguments args types params).Alike near (r.storeArguments args' types params) := by
  induction h generalizing types params with
  | nil => exact alike_refl _
  | @cons arg arg' rest rest' harg _ ih =>
    cases types with
    | nil => exact alike_refl _
    | cons ty types =>
      obtain _ | ⟨⟨name, param⟩, params⟩ := params
      · exact alike_refl _
      · unfold storeArguments
        cases param with
        | none => exact ih types params
        | some target =>
          refine Alike.bind (r.store_alike harg.span ty target) ?_
          exact ih types params

theorem callFunction_alike (r : Rules) (sig : FunctionSig) {args args' : List Operand}
    (h : List.Forall₂ (Operand.Alike near) args args') (span : Span) :
    (r.callFunction sig args span).Alike near (r.callFunction sig args' span) := by
  unfold callFunction
  rw [argumentTypes_alike h]
  dsimp only
  split
  · exact alike_refl _
  · split
    · exact Alike.bind (r.storeArguments_alike h _ _) (alike_refl _)
    · exact alike_refl _

theorem callIntrinsic_alike (f : Intrinsic) (name : String) {args args' : List Operand}
    (h : List.Forall₂ (Operand.Alike near) args args') (span : Span) :
    (callIntrinsic f name args span).Alike near (callIntrinsic f name args' span) := by
  unfold callIntrinsic
  rw [argumentTypes_alike h]
  exact alike_refl _

theorem call_alike (r : Rules) (callee : String) {args args' : List Operand}
    (h : List.Forall₂ (Operand.Alike near) args args') (span : Span) :
    (r.call callee args span).Alike near (r.call callee args' span) := by
  unfold call
  split
  · rw [argumentTypes_alike h]
    dsimp only
    split
    · exact alike_refl _
    · exact Alike.bind (construct_alike _ h _ span) (alike_refl _)
  · split
    · exact r.callFunction_alike _ h span
    · split
      · exact callIntrinsic_alike _ callee h span
      · exact alike_refl _

/-- **Alike operands make alike expressions.** -/
theorem type_alike (r : Rules) (scope : Scope) (span : Span) {form : ExprForm ExprId}
    {f f' : ExprId → Operand} (h : ∀ c ∈ form.children, (f c).Alike near (f' c)) :
    (r.type scope span (form.map f)).Alike near (r.type scope span (form.map f')) := by
  cases form with
  | literal | ident | error => exact alike_refl _
  | unary op e | member e name | cast written e | paren e =>
    have he := h e (by simp [ExprForm.children])
    simp only [ExprForm.map, type, he.type]
    exact alike_refl _
  | binary op left right =>
    have hleft := h left (by simp [ExprForm.children])
    have hright := h right (by simp [ExprForm.children])
    simp only [ExprForm.map, type, hleft.type, hright.type]
    exact alike_refl _
  | conditional c y n =>
    exact conditional_alike (h c (by simp [ExprForm.children])) (h y (by simp [ExprForm.children]))
      (h n (by simp [ExprForm.children])) span
  | call callee args => exact r.call_alike callee (Operand.Alike.forall₂_map h) span
  | index target position =>
    have htarget := h target (by simp [ExprForm.children])
    have hposition := h position (by simp [ExprForm.children])
    simp only [ExprForm.map, type, htarget.type, hposition.type]
    split
    · rename_i htype
      exact index_alike hposition (by rw [htype]; rfl) span
    · exact alike_refl _
  | assign op target value =>
    exact r.assign_alike op (h target (by simp [ExprForm.children]))
      (h value (by simp [ExprForm.children])) span

/-! ## Statements -/

theorem statementCondition_alike {o o' : Operand} (h : o.Alike near o') :
    (statementCondition o).Alike near (statementCondition o') := by
  unfold statementCondition
  rw [h.type]
  split
  · exact Alike.bind (condition_alike h.span _) (alike_refl _)
  · exact alike_refl _

theorem declaration_alike (r : Rules) (p : Place) {decl : VarDecl ExprId}
    {f f' : ExprId → Operand} (h : ∀ id ∈ decl.init, (f id).Alike near (f' id)) :
    (r.declaration p (decl.map f)).Alike near (r.declaration p (decl.map f')) := by
  obtain ⟨name, written, init, span⟩ := decl
  unfold declaration
  refine Alike.bind (alike_refl _) ?_
  dsimp only [VarDecl.map]
  cases init with
  | none => exact alike_refl _
  | some e =>
    have he := h e rfl
    dsimp only [Option.map_some, Option.bind_some]
    rw [he.type]
    cases (r.declaredType name written).value with
    | none => exact alike_refl _
    | some target =>
      cases (f e).type with
      | none => exact alike_refl _
      | some value => exact Alike.bind (r.store_alike he.span value target) (alike_refl _)

/-- The place of an operand without a type is looked at here, and nowhere else. -/
theorem returnStatement_alike (r : Rules) (p : Place) {value : Option ExprId}
    {f f' : ExprId → Operand} (h : ∀ id ∈ value, (f id).Alike near (f' id)) (span : Span) :
    (r.returnStatement p (value.map f) span).Alike near
      (r.returnStatement p (value.map f') span) := by
  cases value with
  | none => exact alike_refl _
  | some e =>
    have he := h e rfl
    unfold returnStatement
    cases p.function with
    | none => exact alike_refl _
    | some frame =>
      obtain ⟨name, returns, bodyDepth⟩ := frame
      cases returns with
      | none => exact alike_refl _
      | some expected =>
        dsimp only [Option.map_some]
        rw [he.type]
        split
        · exact alike_find _ he.span
        · split
          · exact r.store_alike he.span _ _
          · exact alike_refl _

/-- **Alike operands make alike statements.** -/
theorem statement_alike (r : Rules) (p : Place) (span : Span) {form : StmtForm ExprId StmtId}
    {f f' : ExprId → Operand} (h : ∀ e, .inl e ∈ form.children → (f e).Alike near (f' e)) :
    (r.statement p span (form.map f)).Alike near (r.statement p span (form.map f')) := by
  cases form with
  | expr | block | discard | breakLoop | continueLoop | empty => exact alike_refl _
  | declare decl =>
    exact r.declaration_alike p fun id hid => h id (by simpa [StmtForm.children] using hid)
  | ifElse c yes no | whileLoop c body =>
    have hc := h c (by simp [StmtForm.children])
    exact Alike.bind (statementCondition_alike hc) (alike_refl _)
  | forLoop init c step body =>
    cases c with
    | none => exact alike_refl _
    | some c =>
      have hc := h c (by simp [StmtForm.children])
      exact Alike.bind (statementCondition_alike hc) (alike_refl _)
  | returns value =>
    refine Alike.bind ?_ (alike_refl _)
    exact r.returnStatement_alike p
      (fun id hid => h id (by simpa [StmtForm.children] using hid)) span

end Rules
end ShaderFront
