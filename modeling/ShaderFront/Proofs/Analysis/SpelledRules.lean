import Mathlib.Data.List.Basic
import ShaderFront.Proofs.Analysis.BoundTypes
import ShaderFront.Proofs.Types.Spelling

/-!
# Rules yield types that are spelled

Combining, swizzling and indexing take the dimensions of their results from their operands, or from
how many components are written. Everything else that a rule yields is a type it was given, one that
was collected, or one that has a name. So if operands and bindings are spelled, results are.
-/

namespace ShaderFront

open Ty

/-! ## Operations on types -/

namespace ItemTable

/-- There is no type, or it is spelled. -/
def Admits (t : ItemTable) (type : Option Ty) : Prop := ∀ ty, type = some ty → t.Spells ty

variable {t : ItemTable} {left right ty : Ty}

theorem admits_none : t.Admits none := nofun

@[simp] theorem admits_some : t.Admits (some ty) ↔ t.Spells ty :=
  ⟨fun h => h ty rfl, fun h _ heq => Option.some.inj heq ▸ h⟩

theorem Admits.of_ite {p : Prop} [Decidable p] (h : p → t.Spells ty) :
    t.Admits (if p then some ty else none) := by
  split
  · rename_i hp
    exact admits_some.2 (h hp)
  · exact admits_none

/-- A type with other elements can be spelled. -/
theorem SpellsAll.withElement (all : t.SpellsAll) (h : t.Spells ty) (k : ScalarKind) :
    t.Spells (ty.withElement k) := by
  have hresolved := all.resolve h
  unfold Ty.withElement
  generalize ty.resolve = resolved at hresolved
  cases resolved with
  | scalar => exact spells_scalar k
  | vector | matrix => simpa using hresolved
  | void | sampler | struct | synonym => exact hresolved

/-- What two types combine to can be spelled. -/
theorem SpellsAll.combine? (all : t.SpellsAll) (hleft : t.Spells left) (hright : t.Spells right)
    (underOperator : Bool) : t.Admits (left.combine? right underOperator) := by
  have hleft := all.resolve hleft
  have hright := all.resolve hright
  unfold Ty.combine?
  generalize left.resolve = l at hleft
  generalize right.resolve = r at hright
  split
  case h_1 => simp
  case h_2 | h_3 => exact .of_ite fun _ => by simpa using hright
  case h_4 | h_5 | h_6 | h_7 => exact .of_ite fun _ => by simpa using hleft
  case h_8 => exact .of_ite fun _ => hleft
  case h_9 => exact admits_none

theorem SpellsAll.product? (all : t.SpellsAll) (hleft : t.Spells left)
    (hright : t.Spells right) : t.Admits (left.product? right) := by
  have hleft := all.resolve hleft
  have hright := all.resolve hright
  unfold Ty.product?
  generalize left.resolve = l at hleft
  generalize right.resolve = r at hright
  split
  case h_1 => simp
  case h_2 | h_3 => simpa using hright
  case h_4 | h_5 => simpa using hleft
  case h_6 => exact .of_ite fun _ => by simpa using hleft
  case h_7 => exact .of_ite fun _ => spells_vector.2 hleft.matrix.1
  case h_8 => exact .of_ite fun _ => spells_vector.2 hright.matrix.2
  case h_9 => exact .of_ite fun _ => spells_matrix.2 ⟨hleft.matrix.1, hright.matrix.2⟩
  case h_10 => exact admits_none

theorem SpellsAll.quotient? (all : t.SpellsAll) (hleft : t.Spells left)
    (hright : t.Spells right) : t.Admits (left.quotient? right) := by
  have hleft := all.resolve hleft
  have hright := all.resolve hright
  unfold Ty.quotient?
  generalize left.resolve = l at hleft
  generalize right.resolve = r at hright
  split
  case h_1 => simp
  case h_2 => simpa using hright
  case h_3 | h_4 => simpa using hleft
  case h_5 | h_6 => exact .of_ite fun _ => by simpa using hleft
  case h_7 => exact admits_none

/-- **Types that are spelled combine to one that is spelled.** -/
theorem SpellsAll.apply (all : t.SpellsAll) (place : Combining) (hleft : t.Spells left)
    (hright : t.Spells right) : t.Admits (place.apply left right) := by
  cases place with
  | operator | expression => exact all.combine? hleft hright _
  | multiplication => exact all.product? hleft hright
  | division => exact all.quotient? hleft hright

/-- A swizzle has as many components as are written. -/
theorem swizzle?_admits (k : ScalarKind) (size : UInt8) (member : String) :
    t.Admits (swizzle? k size member) := by
  unfold swizzle?
  dsimp only
  split
  · exact admits_none
  · rename_i hlength
    split
    · exact admits_none
    · refine .of_ite fun _ => ?_
      split
      · exact spells_scalar k
      · have hmax : maxDimension.toNat = 4 := rfl
        obtain heq | heq | heq | heq : member.utf8ByteSize = 1 ∨ member.utf8ByteSize = 2 ∨
            member.utf8ByteSize = 3 ∨ member.utf8ByteSize = 4 := by omega
        all_goals
          rw [heq, spells_vector]
          decide

end ItemTable

/-! ## Typing rules -/

namespace Rules

open ItemTable Reported

variable {t : ItemTable} {left right ty : Ty} {span : Span}

/-- Each rule gives a type that can be spelled, if it sees such types. -/
theorem combine_admits (all : t.SpellsAll) (place : Combining) (span : Span)
    (hleft : t.Spells left) (hright : t.Spells right) :
    t.Admits (combine place span left right).value := by
  rw [combine, value_orReject]
  exact all.apply place hleft hright

/-- A name has a type that can be spelled, if all names in scope do. -/
theorem identifier_admits {scope : Scope} (h : scope.Every t.Admits) (name : String)
    (span : Span) : t.Admits (identifier scope name span).value := by
  unfold identifier
  split
  · rename_i binding hlookup
    exact h.lookup hlookup
  · exact admits_none

theorem unary_admits (all : t.SpellsAll) (op : UnaryOp) (h : t.Spells ty) (span : Span) :
    t.Admits (unary op ty span).value := by
  unfold unary
  split
  · exact admits_none
  · have hsame := admits_some.2 h
    cases op with
    | not => exact admits_some.2 (all.withElement h .bool)
    | neg => exact hsame
    | bitNot =>
      dsimp only
      split
      · exact hsame
      · exact admits_none
    | increment | decrement =>
      dsimp only
      split
      · exact admits_none
      · exact hsame

theorem truth_admits (all : t.SpellsAll) {type : Option Ty} (h : t.Admits type) :
    t.Admits (truth type) := by
  cases type with
  | none => exact admits_none
  | some ty => exact admits_some.2 (all.withElement (admits_some.1 h) .bool)

theorem binary_admits (all : t.SpellsAll) (op : BinaryOp) (hleft : t.Spells left)
    (hright : t.Spells right) (span : Span) : t.Admits (binary op left right span).value := by
  have hcombine (place : Combining) := combine_admits all place span hleft hright
  cases op with
  | mul | div | add | sub | mod => exact hcombine _
  | eq | notEq | lt | ltEq | gt | gtEq => exact truth_admits all (hcombine .operator)
  | and | or =>
    unfold binary
    dsimp only
    split
    · exact admits_none
    · exact truth_admits all (hcombine .operator)
  | bitAnd | bitOr | bitXor | shl | shr =>
    have hoperator := hcombine .operator
    unfold binary
    dsimp only
    rw [value_bind]
    split
    · exact admits_none
    · rename_i combined hcombined
      rw [hcombined] at hoperator
      split
      · exact hoperator
      · exact admits_none

theorem conditional_admits (all : t.SpellsAll) {condition yes no : Operand}
    (hyes : t.Admits yes.type) (hno : t.Admits no.type) (span : Span) :
    t.Admits (conditional condition yes no span).value := by
  unfold conditional
  dsimp only
  split
  on_goal 1 => have hbranches := combine_admits all .expression span (hyes _ ‹_›) (hno _ ‹_›)
  on_goal 2 => have hbranches : t.Admits none := admits_none
  -- Whatever is yielded is what the branches combine to.
  all_goals
    rw [value_bind]
    split
    · exact admits_none
    · split
      · exact admits_none
      · split
        · exact hbranches
        · rw [value_bind]
          split
          · exact admits_none
          · exact hbranches

/-- The fields of structs have such types. -/
theorem member_admits {r : Rules} (all : r.items.SpellsAll) (ty : Ty) (name : String)
    (span : Span) : r.items.Admits (r.member ty name span).value := by
  have hswizzle (k : ScalarKind) (size : UInt8) :
      r.items.Admits (swizzle k size name ty span).value := by
    rw [swizzle, value_orReject]
    exact swizzle?_admits k size name
  unfold member
  split
  · split
    · rename_i field hfield
      obtain ⟨info, hinfo, hget⟩ := Option.bind_eq_some_iff.1 hfield
      have hmem : info ∈ r.items.structs := List.mem_of_find?_eq_some hinfo
      have hfields : Bindings.Every r.items.Admits info.fields := by
        rintro ⟨other, type⟩ hentry ty rfl
        exact all ty (.field hmem hentry)
      exact hfields.find hget
    · exact admits_none
  · exact hswizzle _ _
  · exact hswizzle _ _
  · exact admits_none

theorem index_admits (all : t.SpellsAll) {target : Ty} (h : t.Spells target) (position : Ty)
    (operand : Operand) (span : Span) : t.Admits (index target position operand span).value := by
  have hselected : ∀ selected size, indexed? target = some (selected, size) →
      t.Spells selected := by
    intro selected size hindexed
    have hresolved := all.resolve h
    unfold indexed? at hindexed
    split at hindexed
    · cases hindexed
      exact spells_scalar _
    · rename_i hmatrix
      cases hindexed
      rw [hmatrix] at hresolved
      exact spells_vector.2 hresolved.matrix.2
    · cases hindexed
  unfold index
  split
  · exact admits_none
  · split
    · exact admits_none
    · rename_i selected size hindexed
      have hyields := admits_some.2 (hselected selected size hindexed)
      split
      · exact hyields
      · split
        · exact admits_none
        · exact hyields

/-- An assignment has the type of its place. -/
theorem assign_admits {r : Rules} (op : AssignOp) {target value : Operand}
    (htarget : t.Admits target.type) (span : Span) :
    t.Admits (r.assign op target value span).value := by
  unfold assign
  split
  · rename_i place ty hplace _
    split
    · exact admits_none
    · have hyields := admits_some.2 (htarget place hplace)
      dsimp only
      split
      all_goals
        rw [value_bind]
        split
        · exact admits_none
        · exact hyields
  · exact admits_none

/-! ## Calls -/

theorem spells_of_argumentTypes {args : List Operand} (h : ∀ o ∈ args, t.Admits o.type)
    {types : List Ty} (htypes : argumentTypes args = some types) : ∀ ty ∈ types, t.Spells ty := by
  induction args generalizing types with
  | nil =>
    cases htypes
    exact nofun
  | cons arg rest ih =>
    rw [argumentTypes, List.mapM_cons] at htypes
    obtain ⟨ty, hty, htypes⟩ := Option.bind_eq_some_iff.1 htypes
    obtain ⟨others, hothers, heq⟩ := Option.bind_eq_some_iff.1 htypes
    cases heq
    intro other hmem
    rcases List.mem_cons.1 hmem with rfl | hrest
    · exact h arg List.mem_cons_self other hty
    · exact ih (fun o ho => h o (List.mem_cons_of_mem _ ho)) hothers other hrest

/-- An intrinsic makes types of at most four components. -/
theorem applyIntrinsic_admits (all : t.SpellsAll) (f : Intrinsic) (name : String)
    {types : List Ty} (h : ∀ ty ∈ types, t.Spells ty) (span : Span) :
    t.Admits (applyIntrinsic f name types span).value := by
  have hscalar (type : Option Ty) : t.Admits (type.bind fun ty => ty.element?.map .scalar) := by
    intro ty hty
    obtain ⟨combined, -, hcombined⟩ := Option.bind_eq_some_iff.1 hty
    obtain ⟨k, -, rfl⟩ := Option.map_eq_some_iff.1 hcombined
    exact spells_scalar k
  have hcombine (place : Combining) {a b : Ty} (ha : a ∈ types) (hb : b ∈ types) :=
    combine_admits all place span (h a ha) (h b hb)
  unfold applyIntrinsic
  split
  · rename_i x
    exact admits_some.2 (all.resolve (h x (by simp)))
  · rename_i x
    exact hscalar (some x)
  · exact hscalar _
  · exact hcombine .operator (by simp) (by simp)
  · rename_i a b c
    have hab := hcombine .operator (a := a) (b := b) (by simp) (by simp)
    rw [value_bind]
    split
    · exact admits_none
    · rename_i ab hvalue
      exact combine_admits all .operator span (hab ab hvalue) (h c (by simp))
  · exact hcombine .multiplication (by simp) (by simp)
  · rename_i a b
    have hab := hcombine .operator (a := a) (b := b) (by simp) (by simp)
    rw [value_bind]
    split
    · exact admits_none
    · rename_i k hvalue
      exact admits_some.2 (hab _ hvalue)
    · exact admits_none
  · split
    · exact admits_some.2 (spells_vector.2 (by decide))
    · exact admits_none
  · exact admits_none

theorem callIntrinsic_admits (all : t.SpellsAll) (f : Intrinsic) (name : String)
    {args : List Operand} (h : ∀ o ∈ args, t.Admits o.type) (span : Span) :
    t.Admits (callIntrinsic f name args span).value := by
  unfold callIntrinsic
  split
  · exact admits_none
  · rename_i types htypes
    split
    · split
      · exact admits_none
      · exact applyIntrinsic_admits all f name (spells_of_argumentTypes h htypes) span
    · exact admits_none

/-- A call has the type of the function, whatever its arguments are. -/
theorem callFunction_admits {r : Rules} {sig : FunctionSig} (h : r.items.Admits sig.returns)
    (args : List Operand) (span : Span) :
    r.items.Admits (r.callFunction sig args span).value := by
  unfold callFunction
  dsimp only
  split
  · exact h
  · split
    · exact h
    · exact h

theorem call_admits {r : Rules} (all : r.items.SpellsAll) (callee : String)
    {args : List Operand} (h : ∀ o ∈ args, r.items.Admits o.type) (span : Span) :
    r.items.Admits (r.call callee args span).value := by
  unfold call
  split
  · rename_i target htarget
    have hyields : r.items.Admits (if target.isNumeric = true then some target else none) :=
      .of_ite fun _ => spells_of_type? htarget
    dsimp only
    split
    · exact hyields
    · exact hyields
  · split
    · rename_i sig hsig
      have hmem : sig ∈ r.items.functions := List.mem_of_find?_eq_some hsig
      exact callFunction_admits (all · <| .result hmem ·) args span
    · split
      · exact callIntrinsic_admits all _ callee h span
      · exact admits_none

/-- **Every rule yields a type that is spelled**, if it yields one. -/
theorem type_admits {r : Rules} (all : r.items.SpellsAll) {scope : Scope}
    (hscope : scope.Every r.items.Admits) (span : Span) {form : ExprForm Operand}
    (h : ∀ o ∈ form.children, r.items.Admits o.type) :
    r.items.Admits (r.type scope span form).value := by
  cases form with
  | literal v =>
    cases v <;> exact admits_some.2 (spells_scalar _)
  | ident name => exact identifier_admits hscope name span
  | unary op e =>
    have he := h e (by simp [ExprForm.children])
    unfold type
    dsimp only
    split
    · rename_i ty hty
      exact unary_admits all op (he ty hty) span
    · exact admits_none
  | binary op left right =>
    have hleft := h left (by simp [ExprForm.children])
    have hright := h right (by simp [ExprForm.children])
    unfold type
    dsimp only
    split
    · rename_i l t hl ht
      exact binary_admits all op (hleft l hl) (hright t ht) span
    · exact admits_none
  | conditional c y n =>
    exact conditional_admits all (h y (by simp [ExprForm.children]))
      (h n (by simp [ExprForm.children])) span
  | call callee args => exact call_admits all callee h span
  | member e name =>
    unfold type
    dsimp only
    split
    · exact member_admits all _ name span
    · exact admits_none
  | index target position =>
    have htarget := h target (by simp [ExprForm.children])
    unfold type
    dsimp only
    split
    · rename_i ty p hty _
      exact index_admits all (htarget ty hty) p position span
    · exact admits_none
  | cast written e =>
    unfold type
    dsimp only
    rw [value_bind, value_resolve]
    split
    · exact admits_none
    · rename_i target htarget
      have hyields := admits_some.2 (spells_of_type? htarget)
      split
      · exact hyields
      · exact hyields
  | assign op target value => exact assign_admits op (h target (by simp [ExprForm.children])) span
  | paren inner => exact h inner (by simp [ExprForm.children])
  | error => exact admits_none

end Rules
end ShaderFront
