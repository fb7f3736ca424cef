import Mathlib.Data.List.Basic
import ShaderFront.Proofs.Analysis.BoundTypes
import ShaderFront.Proofs.Types.Combination

/-!
# Every missing type is explained

A rule that yields no type has found an error, or it has seen an operand, a binding or a signature
without a type. So if operands, scope and items have all their types, a missing type comes with an
error that says why: the result is `Explained`.
-/

namespace ShaderFront

/-- No error is among the findings. -/
def Clean (findings : List Finding) : Prop := ∀ f ∈ findings, f.problem.severity = .warning

theorem clean_append {findings more : List Finding} :
    Clean (findings ++ more) ↔ Clean findings ∧ Clean more := by
  simp only [Clean, List.mem_append]
  exact ⟨fun h => ⟨fun f hf => h f (.inl hf), fun f hf => h f (.inr hf)⟩,
    fun ⟨h, h'⟩ f hf => hf.elim (h f) (h' f)⟩

namespace Reported

variable {α β : Type}

/-- A missing value is explained by an error. -/
def Explained (x : Reported (Option α)) : Prop := Clean x.findings → x.value.isSome = true

/-- A type that was found needs no explanation. -/
theorem explained_of_isSome {x : Reported (Option α)} (h : x.value.isSome = true) : x.Explained :=
  fun _ => h

theorem explained_pure (a : α) : (pure (some a) : Reported (Option α)).Explained :=
  explained_of_isSome rfl

theorem explained_reject {p : Problem} (h : p.severity = .error) (span : Span) :
    (reject p span : Reported (Option α)).Explained := by
  intro hclean
  have hwarning := hclean ⟨p, span⟩ (by simp [reject])
  simp [h] at hwarning

/-- A type that is missing is reported. -/
theorem explained_orReject (value : Option α) {p : Problem} (h : p.severity = .error)
    (span : Span) : (orReject value p span).Explained := by
  cases value with
  | none => exact explained_reject h span
  | some a => exact explained_of_isSome rfl

/-- Going on with a value that is explained. -/
theorem Explained.bind {x : Reported (Option α)} (hx : x.Explained)
    {f : Option α → Reported (Option β)} (hf : ∀ a, x.value = some a → (f (some a)).Explained) :
    (x >>= f).Explained := by
  intro hclean
  rw [findings_bind, clean_append] at hclean
  obtain ⟨a, ha⟩ := Option.isSome_iff_exists.1 (hx hclean.1)
  rw [value_bind, ha]
  exact hf a ha (ha ▸ hclean.2)

/-- What is made of a type needs no explanation of its own. -/
theorem Explained.map {x : Reported (Option α)} (hx : x.Explained) {f : Option α → Option β}
    (hf : ∀ a, (f (some a)).isSome = true) : (do return f (← x)).Explained :=
  hx.bind fun a _ => explained_of_isSome (hf a)

/-- Going on after a check that has no value. -/
theorem Explained.after {x : Reported α} {f : α → Reported (Option β)}
    (h : Clean x.findings → (f x.value).Explained) : (x >>= f).Explained := by
  intro hclean
  rw [findings_bind, clean_append] at hclean
  exact h hclean.1 hclean.2

theorem not_clean_find {p : Problem} (h : p.severity = .error) (span : Span) :
    ¬Clean (find p span).findings := by
  intro hclean
  have hwarning := hclean ⟨p, span⟩ (by simp [find])
  simp [h] at hwarning

end Reported

/-! ## What has all its types -/

/-- Every name has a type. -/
def Bindings.Complete (b : Bindings) : Prop := ∀ entry ∈ b, entry.2.isSome = true

/-- Every binding in sight has a type. -/
def Scope.Complete (s : Scope) : Prop := ∀ b ∈ s.inner :: s.outer, b.Complete

/-- Every field, parameter and function has a type. -/
structure ItemTable.Complete (t : ItemTable) : Prop where
  structs : ∀ s ∈ t.structs, Bindings.Complete s.fields
  params : ∀ sig ∈ t.functions, Bindings.Complete sig.params
  returns : ∀ sig ∈ t.functions, sig.returns.isSome = true

theorem Bindings.Complete.find {b : Bindings} (h : b.Complete) {name : String}
    {type : Option Ty} (get : b.lookup name = some type) : type.isSome = true :=
  Bindings.Every.find (P := (·.isSome = true)) h get

theorem Scope.Complete.lookup {s : Scope} (h : s.Complete) {name : String} {type : Option Ty}
    (get : s.lookup? name = some type) : type.isSome = true :=
  Scope.Every.lookup (P := (·.isSome = true)) h get

/-! ## Rules -/

open Reported

/-- Operators combine numeric types only. -/
theorem Ty.element?_of_combine {left right ty : Ty} (h : left.combine? right true = some ty) :
    ty.element?.isSome = true := by
  cases Ty.combine?_eq_some_iff.1 h with
  | numeric _ _ _ result => simp [result]
  | struct _ _ plain => cases plain

namespace Rules

/-- Each rule gives a type or says why not, if its operands have types. -/
theorem combine_explained (place : Combining) (span : Span) (left right : Ty) :
    (combine place span left right).Explained := explained_orReject _ rfl span

theorem condition_explained (span : Span) (ty : Ty) : (Rules.condition span ty).Explained :=
  explained_orReject _ rfl span

theorem swizzle_explained (k : ScalarKind) (size : UInt8) (name : String) (ty : Ty) (span : Span) :
    (swizzle k size name ty span).Explained := explained_orReject _ rfl span

/-- A name has a type or is reported, if all names in scope have types. -/
theorem identifier_explained {scope : Scope} (h : scope.Complete) (name : String) (span : Span) :
    (identifier scope name span).Explained := by
  unfold identifier
  split
  · rename_i binding hlookup
    exact explained_of_isSome (h.lookup hlookup)
  · exact explained_reject rfl span

theorem unary_explained (op : UnaryOp) (ty : Ty) (span : Span) : (unary op ty span).Explained := by
  unfold unary
  split
  · exact explained_reject rfl span
  · rename_i k _
    cases op with
    | not | neg => exact explained_pure _
    | bitNot =>
      dsimp only
      split
      · exact explained_pure _
      · exact explained_reject rfl span
    | increment | decrement =>
      dsimp only
      split
      · exact explained_reject rfl span
      · exact explained_pure _

theorem binary_explained (op : BinaryOp) (left right : Ty) (span : Span) :
    (binary op left right span).Explained := by
  have hcombine := combine_explained .operator span left right
  cases op with
  | mul => exact combine_explained .multiplication span left right
  | div => exact combine_explained .division span left right
  | add | sub | mod => exact hcombine
  | eq | notEq | lt | ltEq | gt | gtEq => exact hcombine.map fun _ => rfl
  | and | or =>
    unfold binary
    dsimp only
    split
    · exact explained_reject rfl span
    · exact hcombine.map fun _ => rfl
  | bitAnd | bitOr | bitXor | shl | shr =>
    refine hcombine.bind fun combined _ => ?_
    dsimp only
    split
    · exact explained_pure _
    · exact explained_reject rfl span

theorem conditional_explained {condition yes no : Operand} (hcondition : condition.type.isSome)
    (hyes : yes.type.isSome) (hno : no.type.isSome) (span : Span) :
    (conditional condition yes no span).Explained := by
  obtain ⟨ty, hty⟩ := Option.isSome_iff_exists.1 hcondition
  obtain ⟨y, hy⟩ := Option.isSome_iff_exists.1 hyes
  obtain ⟨n, hn⟩ := Option.isSome_iff_exists.1 hno
  unfold conditional
  rw [hty, hy, hn]
  refine (combine_explained .expression span y n).bind fun branches _ => ?_
  dsimp only
  split
  · rename_i habsent
    simp at habsent
  · split
    · exact explained_pure _
    · refine (condition_explained condition.span ty).bind fun _ _ => ?_
      exact explained_pure _

/-- A field has a type, if the table knows all its types. -/
theorem member_explained {r : Rules} (h : r.items.Complete) (ty : Ty) (name : String)
    (span : Span) : (r.member ty name span).Explained := by
  unfold member
  split
  · rename_i s _
    split
    · rename_i field hfield
      obtain ⟨info, hinfo, hget⟩ := Option.bind_eq_some_iff.1 hfield
      have hmem : info ∈ r.items.structs := List.mem_of_find?_eq_some hinfo
      exact explained_of_isSome ((h.structs info hmem).find hget)
    · exact explained_reject rfl span
  · exact swizzle_explained _ _ name ty span
  · exact swizzle_explained _ _ name ty span
  · exact explained_reject rfl span

theorem index_explained (target position : Ty) (operand : Operand) (span : Span) :
    (index target position operand span).Explained := by
  unfold index
  split
  · exact explained_reject rfl operand.span
  · split
    · exact explained_reject rfl span
    · split
      · exact explained_pure _
      · split
        · exact explained_reject rfl operand.span
        · exact explained_pure _

theorem assign_explained {r : Rules} (op : AssignOp) {target value : Operand}
    (htarget : target.type.isSome) (hvalue : value.type.isSome) (span : Span) :
    (r.assign op target value span).Explained := by
  obtain ⟨place, hplace⟩ := Option.isSome_iff_exists.1 htarget
  obtain ⟨ty, hty⟩ := Option.isSome_iff_exists.1 hvalue
  unfold assign
  rw [hplace, hty]
  dsimp only
  split
  · exact explained_reject rfl target.span
  · have hstore (stored : Ty) :
        Explained (do r.store value.span stored place; return some place) :=
      Explained.after fun _ => explained_pure place
    split
    · exact (explained_pure ty).bind fun stored _ => hstore stored
    · exact (binary_explained _ place ty span).bind fun stored _ => hstore stored

/-! ## Calls -/

/-- Arguments that all have types have them together. -/
theorem argumentTypes_isSome {args : List Operand} (h : ∀ o ∈ args, o.type.isSome = true) :
    ∃ types, argumentTypes args = some types := by
  induction args with
  | nil => exact ⟨[], rfl⟩
  | cons arg rest ih =>
    obtain ⟨ty, hty⟩ := Option.isSome_iff_exists.1 (h arg List.mem_cons_self)
    obtain ⟨types, htypes⟩ := ih fun o ho => h o (List.mem_cons_of_mem _ ho)
    refine ⟨ty :: types, ?_⟩
    rw [argumentTypes] at htypes ⊢
    simp [List.mapM_cons, hty, htypes]

/-- Only numeric types are constructed without an error. -/
theorem isNumeric_of_construct {target : Ty} {args : List Operand} {types : List Ty} {span : Span}
    (h : Clean (construct target args types span).findings) : target.isNumeric = true := by
  unfold construct at h
  split at h
  · exact absurd h (not_clean_find rfl span)
  · rename_i hnumeric
    simpa using hnumeric

theorem applyIntrinsic_explained {f : Intrinsic} (name : String) {types : List Ty}
    (harity : types.length = f.arity) (haccepts : ∀ ty ∈ types, accepts f ty = true)
    (span : Span) : (applyIntrinsic f name types span).Explained := by
  cases f with
  | componentwise =>
    obtain ⟨x, rfl⟩ := List.length_eq_one_iff.1 harity
    exact explained_pure _
  | length =>
    obtain ⟨x, rfl⟩ := List.length_eq_one_iff.1 harity
    have hx := haccepts x (List.mem_singleton_self x)
    refine explained_of_isSome ?_
    simpa [applyIntrinsic, accepts, Ty.isNumeric] using hx
  | dot =>
    obtain ⟨a, b, rfl⟩ := List.length_eq_two.1 harity
    refine (combine_explained .operator span a b).bind fun ty hty => explained_of_isSome ?_
    rw [combine, value_orReject] at hty
    simpa using Ty.element?_of_combine hty
  | pairwise =>
    obtain ⟨a, b, rfl⟩ := List.length_eq_two.1 harity
    exact combine_explained .operator span a b
  | interpolate =>
    obtain ⟨a, b, c, rfl⟩ := List.length_eq_three.1 harity
    refine (combine_explained .operator span a b).bind fun ab _ => ?_
    exact combine_explained .operator span ab c
  | multiply =>
    obtain ⟨a, b, rfl⟩ := List.length_eq_two.1 harity
    exact combine_explained .multiplication span a b
  | cross =>
    obtain ⟨a, b, rfl⟩ := List.length_eq_two.1 harity
    refine (combine_explained .operator span a b).bind fun ty _ => ?_
    split
    · rename_i habsent
      cases habsent
    · exact explained_pure _
    · exact explained_reject rfl span
  | sample =>
    obtain ⟨texture, coordinates, rfl⟩ := List.length_eq_two.1 harity
    unfold applyIntrinsic
    dsimp only
    split
    · exact explained_pure _
    · exact explained_reject rfl span

theorem callIntrinsic_explained (f : Intrinsic) (name : String) {args : List Operand}
    (h : ∀ o ∈ args, o.type.isSome = true) (span : Span) :
    (callIntrinsic f name args span).Explained := by
  obtain ⟨types, htypes⟩ := argumentTypes_isSome h
  unfold callIntrinsic
  rw [htypes]
  dsimp only
  split
  · rename_i harity
    split
    · exact explained_reject rfl span
    · rename_i hnone
      refine applyIntrinsic_explained name harity (fun ty hty => ?_) span
      simpa using List.find?_eq_none.1 hnone ty hty
  · exact explained_reject rfl span

/-- A call has the type of its function, whatever its arguments are. -/
theorem callFunction_explained {r : Rules} (sig : FunctionSig) (args : List Operand) (span : Span)
    (h : sig.returns.isSome = true) : (r.callFunction sig args span).Explained := by
  unfold callFunction
  dsimp only
  split
  · exact explained_of_isSome h
  · split
    · exact explained_of_isSome h
    · exact explained_of_isSome h

theorem call_explained {r : Rules} (hitems : r.items.Complete) (callee : String)
    {args : List Operand} (h : ∀ o ∈ args, o.type.isSome = true) (span : Span) :
    (r.call callee args span).Explained := by
  obtain ⟨types, htypes⟩ := argumentTypes_isSome h
  unfold call
  split
  · rename_i target _
    rw [htypes]
    refine Explained.after fun hclean => explained_of_isSome ?_
    rw [if_pos (isNumeric_of_construct hclean)]
    rfl
  · split
    · rename_i sig hsig
      have hmem : sig ∈ r.items.functions := List.mem_of_find?_eq_some hsig
      exact callFunction_explained sig args span (hitems.returns sig hmem)
    · split
      · exact callIntrinsic_explained _ callee h span
      · exact explained_reject rfl span

/-- **Every missing type is explained.** -/
theorem type_explained {r : Rules} (hitems : r.items.Complete) {scope : Scope}
    (hscope : scope.Complete) (span : Span) {form : ExprForm Operand}
    (h : ∀ o ∈ form.children, o.type.isSome = true) (hform : form ≠ .error) :
    (r.type scope span form).Explained := by
  cases form with
  | literal v => exact explained_pure _
  | ident name => exact identifier_explained hscope name span
  | unary op e =>
    obtain ⟨ty, hty⟩ := Option.isSome_iff_exists.1 (h e (by simp [ExprForm.children]))
    unfold type
    dsimp only
    rw [hty]
    exact unary_explained op ty span
  | binary op left right =>
    obtain ⟨l, hl⟩ := Option.isSome_iff_exists.1 (h left (by simp [ExprForm.children]))
    obtain ⟨t, ht⟩ := Option.isSome_iff_exists.1 (h right (by simp [ExprForm.children]))
    unfold type
    dsimp only
    rw [hl, ht]
    exact binary_explained op l t span
  | conditional c y n =>
    exact conditional_explained (h c (by simp [ExprForm.children]))
      (h y (by simp [ExprForm.children])) (h n (by simp [ExprForm.children])) span
  | call callee args => exact call_explained hitems callee h span
  | member e name =>
    obtain ⟨ty, hty⟩ := Option.isSome_iff_exists.1 (h e (by simp [ExprForm.children]))
    unfold type
    dsimp only
    rw [hty]
    exact member_explained hitems ty name span
  | index target position =>
    obtain ⟨t, ht⟩ := Option.isSome_iff_exists.1 (h target (by simp [ExprForm.children]))
    obtain ⟨p, hp⟩ := Option.isSome_iff_exists.1 (h position (by simp [ExprForm.children]))
    unfold type
    dsimp only
    rw [ht, hp]
    exact index_explained t p position span
  | cast written e =>
    refine (explained_orReject _ rfl written.span).bind fun target _ => ?_
    dsimp only
    split
    · exact Explained.after fun _ => explained_pure target
    · exact explained_pure target
  | assign op target value =>
    exact assign_explained op (h target (by simp [ExprForm.children]))
      (h value (by simp [ExprForm.children])) span
  | paren inner => exact explained_of_isSome (h inner (by simp [ExprForm.children]))
  | error => exact absurd rfl hform

end Rules
end ShaderFront
