import ShaderFront.Proofs.Analysis.Synonyms

/-!
# Rules and synonyms

No rule of the analysis tells a synonym from the type behind it. So rules that are given types which
are the same behind their synonyms yield types that are the same behind theirs, and they report
problems of the same kinds at the same places. There is one lemma for each rule; a call of what is a
type by another name is a call of the same type.
-/

namespace ShaderFront

open Reported

namespace Rules

variable {r r' : Rules} {ty ty' left left' right right' : Ty}

/-! ## Expressions -/

/-- Each rule of expressions gives the same and reports the same, if it sees the same. -/
theorem combine_same (place : Combining) (span : Span) (hl : left.Same left')
    (hr : right.Same right') :
    (combine place span left right).Rel Eq (combine place span left' right') := by
  unfold combine
  rw [hl.combining place hr]
  cases place.apply left right with
  | some ty => exact rel_pure rfl
  | none => exact ⟨rfl, .cons ⟨rfl, rfl⟩ .nil⟩

theorem condition_same (span : Span) (h : ty.Same ty') :
    (condition span ty).Rel Eq (condition span ty') := by
  unfold condition scalar
  rw [Ty.Same.scalarKind? h (.refl _)]
  cases ty.scalarKind? (.scalar .bool) with
  | some k => exact rel_pure rfl
  | none => exact ⟨rfl, .cons ⟨rfl, rfl⟩ .nil⟩

theorem identifier_same {scope scope' : Scope} (h : scope.Same scope') (name : String)
    (span : Span) : (identifier scope name span).Rel SameKnown (identifier scope' name span) := by
  have hlookup := h.lookup? name
  unfold identifier
  generalize scope.lookup? name = found, scope'.lookup? name = found' at hlookup ⊢
  cases hlookup with
  | some hknown => exact rel_pure hknown
  | none => exact rel_reject (by rfl) span

theorem unary_same (op : UnaryOp) (h : ty.Same ty') (span : Span) :
    (unary op ty span).Rel SameKnown (unary op ty' span) := by
  unfold unary
  rw [h.element?]
  cases ty.element? with
  | none => exact rel_reject (by rfl) span
  | some k =>
    cases op with
    | not => exact rel_pure (.of_eq (by rw [h.withElement]))
    | neg => exact rel_pure (.some h)
    | bitNot =>
      dsimp only
      split
      · exact rel_pure (.some h)
      · exact rel_reject (by rfl) span
    | increment | decrement =>
      dsimp only
      split
      · exact rel_reject (by rfl) span
      · exact rel_pure (.some h)

theorem binary_same (op : BinaryOp) (hl : left.Same left') (hr : right.Same right')
    (span : Span) : (binary op left right span).Rel SameKnown (binary op left' right' span) := by
  have hcombine (place : Combining) := combine_same place span hl hr
  have htruth : (return truth (← combine .operator span left right) : Reported _).Rel SameKnown
      (return truth (← combine .operator span left' right')) :=
    (hcombine .operator).bind fun _ _ heq => rel_pure (heq ▸ .refl _)
  cases op with
  | mul | div | add | sub | mod => exact (hcombine _).imp fun _ _ heq => heq ▸ .refl _
  | eq | notEq | lt | ltEq | gt | gtEq => exact htruth
  | and | or =>
    unfold binary
    rw [hl.isMatrix, hr.isMatrix]
    dsimp only
    split
    · exact rel_reject (by rfl) span
    · exact htruth
  | bitAnd | bitOr | bitXor | shl | shr =>
    refine (hcombine .operator).bind fun combined _ heq => ?_
    subst heq
    cases combined with
    | none => exact rel_pure .none
    | some combined =>
      dsimp only
      split
      · exact rel_pure (.refl _)
      · exact rel_reject (by rfl) span

/-- What goes on from the type that two branches have together. -/
theorem branches_same {y y' n n' : Operand} (hy : y.Same y') (hn : n.Same n') (span : Span)
    {f f' : Option Ty → Reported (Option Ty)}
    (hf : ∀ branches, (f branches).Rel SameKnown (f' branches)) :
    Rel SameKnown
      (match y.type, n.type with
      | some y, some n => combine .expression span y n >>= f
      | _, _ => pure none >>= f)
      (match y'.type, n'.type with
      | some y, some n => combine .expression span y n >>= f'
      | _, _ => pure none >>= f') := by
  have hyes := hy.type
  have hno := hn.type
  generalize y.type = yes, y'.type = yes' at hyes ⊢
  generalize n.type = no, n'.type = no' at hno ⊢
  cases hyes with
  | none => exact hf none
  | some hyes =>
    cases hno with
    | none => exact hf none
    | some hno =>
      exact (combine_same .expression span hyes hno).bind fun branches _ heq => heq ▸ hf branches

theorem conditional_same {c c' y y' n n' : Operand} (hc : c.Same c') (hy : y.Same y')
    (hn : n.Same n') (span : Span) :
    (conditional c y n span).Rel SameKnown (conditional c' y' n' span) := by
  unfold conditional
  refine branches_same hy hn span fun branches => ?_
  have htype := hc.type
  rw [hc.span]
  generalize c.type = type, c'.type = type' at htype ⊢
  cases htype with
  | none => exact rel_pure .none
  | some h =>
    dsimp only
    rw [h.isVector, h.componentCount]
    split
    · exact rel_pure .none
    · split
      · exact rel_pure (.refl _)
      · refine (condition_same c.span h).bind fun kind _ heq => ?_
        subst heq
        cases kind with
        | none => exact rel_pure .none
        | some k => exact rel_pure (.refl _)

/-- The name of the type occurs only in the message of a bad swizzle. -/
theorem swizzle_same (k : ScalarKind) (size : UInt8) (name : String) (ty ty' : Ty) (span : Span) :
    (swizzle k size name ty span).Rel SameKnown (swizzle k size name ty' span) :=
  rel_orReject (SameKnown.refl _) (by rfl) span

theorem store_same (h : r.Same r') (span : Span) {value value' target target' : Ty}
    (hvalue : value.Same value') (htarget : target.Same target') :
    (r.store span value target).Rel Eq (r'.store span value' target') := by
  unfold store
  rw [hvalue.ofStore? htarget, h.warn]
  split
  · exact rel_find (by rfl) span
  · split
    · exact rel_find (by rfl) span
    · exact rel_pure rfl
  · exact rel_pure rfl

/-- Fields are looked up in structs, which have one name only. -/
theorem member_same (h : r.Same r') (hty : ty.Same ty') (name : String) (span : Span) :
    (r.member ty name span).Rel SameKnown (r'.member ty' name span) := by
  unfold member
  rw [hty]
  split
  · rename_i s _
    have hstruct := h.struct? s
    generalize r.items.struct? s = info, r'.items.struct? s = info' at hstruct ⊢
    cases hstruct with
    | none => exact rel_reject (by rfl) span
    | @some info info' hsame =>
      have hfield := hsame.fields.find? name
      have hfind (s : StructInfo) : s.field? name = Bindings.find? s.fields name := rfl
      simp only [Option.bind_some, hfind]
      generalize Bindings.find? info.fields name = field, Bindings.find? info'.fields name = field'
        at hfield ⊢
      cases hfield with
      | some hknown => exact rel_pure hknown
      | none => exact rel_reject (by rfl) span
  · exact swizzle_same ..
  · exact swizzle_same ..
  · exact rel_reject (by rfl) span

/-- Whether an index is constant does not depend on the names of types. -/
theorem index_same {target target' position position' : Ty} {o o' : Operand}
    (htarget : target.Same target') (hposition : position.Same position') (ho : o.Same o')
    (span : Span) :
    (index target position o span).Rel SameKnown (index target' position' o' span) := by
  unfold index
  rw [hposition.isScalar, hposition.element?, htarget.indexed?, ho.constant, ho.span]
  split
  · exact rel_reject (by rfl) _
  · split
    · exact rel_reject (by rfl) _
    · split
      · exact rel_pure (.refl _)
      · split
        · exact rel_reject (by rfl) _
        · exact rel_pure (.refl _)

theorem cast_same {value value' target target' : Ty} (hvalue : value.Same value')
    (htarget : target.Same target') (span : Span) :
    (cast value target span).Rel Eq (cast value' target' span) := by
  unfold cast
  rw [hvalue.isNumeric, htarget.isNumeric, hvalue, htarget]
  split
  · exact rel_pure rfl
  · exact rel_find (by rfl) span

/-- A type is stored in a place, if there is one. -/
theorem storeOptional_same (h : r.Same r') (span : Span) {place place' : Ty}
    (hplace : place.Same place') (stored stored' : Option Ty) :
    SameKnown stored stored' → Rel SameKnown
      (match stored with
      | none => pure none
      | some stored => do
        r.store span stored place
        return some place)
      (match stored' with
      | none => pure none
      | some stored => do
        r'.store span stored place'
        return some place') := by
  intro hstored
  cases hstored with
  | none => exact rel_pure .none
  | some hstored =>
    exact (store_same h span hstored hplace).bind fun _ _ _ => rel_pure (.some hplace)

theorem assign_same (h : r.Same r') (op : AssignOp) {target target' value value' : Operand}
    (ht : target.Same target') (hv : value.Same value') (span : Span) :
    (r.assign op target value span).Rel SameKnown (r'.assign op target' value' span) := by
  have htarget := ht.type
  have hvalue := hv.type
  unfold assign
  rw [ht.assignable, ht.span, hv.span]
  generalize target.type = place, target'.type = place' at htarget ⊢
  generalize value.type = type, value'.type = type' at hvalue ⊢
  cases htarget with
  | none => exact rel_pure .none
  | @some place place' hplace =>
    cases hvalue with
    | none => exact rel_pure .none
    | @some type type' htype =>
      dsimp only
      split
      · exact rel_reject (by rfl) _
      · have hstore := storeOptional_same h value.span hplace
        cases op.operation? with
        | none => exact hstore _ _ (.some htype)
        | some op => exact (binary_same op hplace htype span).bind hstore

theorem argumentTypes_same {args args' : List Operand}
    (h : List.Forall₂ Operand.Same args args') :
    Option.Rel (List.Forall₂ Ty.Same) (argumentTypes args) (argumentTypes args') := by
  unfold argumentTypes
  induction h with
  | nil => exact .some .nil
  | @cons arg arg' args args' harg _ ih =>
    have htype := harg.type
    rw [List.mapM_cons, List.mapM_cons]
    generalize arg.type = type, arg'.type = type' at htype ⊢
    generalize args.mapM (·.type) = types, args'.mapM (·.type) = types' at ih ⊢
    cases htype with
    | none => exact .none
    | some htype =>
      cases ih with
      | none => exact .none
      | some hrest => exact .some (.cons htype hrest)

/-- The argument that is reported is the same one. -/
theorem construct_same {target target' : Ty} (htarget : target.Same target')
    {args args' : List Operand} (hargs : List.Forall₂ Operand.Same args args')
    {types types' : List Ty} (htypes : List.Forall₂ Ty.Same types types') (span : Span) :
    (construct target args types span).Rel Eq (construct target' args' types' span) := by
  have hzip : List.Forall₂ (fun x x' => x.1.Same x'.1 ∧ x.2.Same x'.2) (args.zip types)
      (args'.zip types') := by
    induction hargs generalizing types types' with
    | nil => exact .nil
    | cons harg _ ih =>
      cases htypes with
      | nil => exact .nil
      | cons htype hrest => exact .cons ⟨harg, htype⟩ (ih hrest)
  have hfind := find?_rel (p := fun x => !x.2.isNumeric) (q := fun x => !x.2.isNumeric) hzip
    fun _ _ h => by rw [h.2.isNumeric]
  unfold construct
  rw [htarget.isNumeric]
  split
  · exact rel_find (by rfl) span
  · generalize (args.zip types).find? _ = found, (args'.zip types').find? _ = found' at hfind ⊢
    cases hfind with
    | @some x x' h =>
      dsimp only
      rw [h.1.span]
      exact rel_find (by rfl) _
    | none =>
      have hcomponents := Ty.Same.totalComponents htypes
      have hend (splat : Bool) : Rel Eq
          (if splat || Ty.totalComponents types == target.componentCount then pure ()
            else find (.componentCount target target.componentCount (Ty.totalComponents types))
              span)
          (if splat || Ty.totalComponents types' == target'.componentCount then pure ()
            else find (.componentCount target' target'.componentCount (Ty.totalComponents types'))
              span) := by
        rw [hcomponents, htarget.componentCount]
        split
        · exact rel_pure rfl
        · exact rel_find (by rfl) span
      obtain _ | ⟨htype, _ | _⟩ := htypes
      · exact hend false
      · dsimp only
        rw [htype.isScalar]
        exact hend _
      · exact hend false

/-- The arguments of a call are stored in its parameters one after the other. -/
theorem storeArguments_same (h : r.Same r') {args args' : List Operand}
    (hargs : List.Forall₂ Operand.Same args args') {types types' : List Ty}
    (htypes : List.Forall₂ Ty.Same types types') {params params' : List (String × Option Ty)}
    (hparams : Bindings.Same params params') :
    (r.storeArguments args types params).Rel Eq (r'.storeArguments args' types' params') := by
  induction hargs generalizing types types' params params' with
  | nil => exact rel_pure rfl
  | @cons arg arg' _ _ harg _ ih =>
    cases htypes with
    | nil => exact rel_pure rfl
    | cons htype hrest =>
      cases hparams with
      | nil => exact rel_pure rfl
      | @cons param param' _ _ hparam hmore =>
        obtain ⟨name, known⟩ := param
        obtain ⟨name', known'⟩ := param'
        obtain ⟨-, hknown⟩ := hparam
        unfold storeArguments
        cases hknown with
        | none => exact ih hrest hmore
        | some htarget =>
          rw [harg.span]
          exact (store_same h arg.span htype htarget).bind fun _ _ _ => ih hrest hmore

theorem callFunction_same (h : r.Same r') {sig sig' : FunctionSig} (hsig : sig.Same sig')
    {args args' : List Operand} (hargs : List.Forall₂ Operand.Same args args') (span : Span) :
    (r.callFunction sig args span).Rel SameKnown (r'.callFunction sig' args' span) := by
  have htypes := argumentTypes_same hargs
  unfold callFunction
  generalize argumentTypes args = types, argumentTypes args' = types' at htypes ⊢
  cases htypes with
  | none => exact rel_pure hsig.returns
  | some htypes =>
    dsimp only
    rw [← hsig.params.length_eq, ← htypes.length_eq]
    split
    · exact (storeArguments_same h hargs htypes hsig.params).bind fun _ _ _ =>
        rel_pure hsig.returns
    · exact (rel_find (by rfl) span).bind fun _ _ _ => rel_pure hsig.returns

theorem accepts_same (f : Intrinsic) (h : ty.Same ty') : accepts f ty' = accepts f ty := by
  unfold accepts
  rw [h.isNumeric, h]

/-- An intrinsic of two arguments whose types are combined. -/
theorem combine_known (place : Combining) (span : Span) (hl : left.Same left')
    (hr : right.Same right') :
    (combine place span left right).Rel SameKnown (combine place span left' right') :=
  (combine_same place span hl hr).imp fun _ _ heq => .of_eq heq.symm

theorem applyIntrinsic_same (f : Intrinsic) (name : String) {types types' : List Ty}
    (h : List.Forall₂ Ty.Same types types') (span : Span) :
    (applyIntrinsic f name types span).Rel SameKnown (applyIntrinsic f name types' span) := by
  have combined {a a' b b' : Ty} (ha : a.Same a') (hb : b.Same b')
      {f f' : Option Ty → Reported (Option Ty)}
      (hf : ∀ combined, (f combined).Rel SameKnown (f' combined)) :
      (combine .operator span a b >>= f).Rel SameKnown (combine .operator span a' b' >>= f') :=
    (combine_same .operator span ha hb).bind fun _ _ heq => heq ▸ hf _
  obtain _ | ⟨ha, _ | ⟨hb, _ | ⟨hc, _ | _⟩⟩⟩ := h
  · cases f <;> exact rel_pure .none
  · cases f with
    | componentwise => exact rel_pure (.of_eq (congrArg some ha))
    | length => exact rel_pure (.of_eq (by rw [ha.element?]))
    | _ => exact rel_pure .none
  · cases f with
    | dot => exact combined ha hb fun _ => rel_pure (.refl _)
    | pairwise => exact combine_known .operator span ha hb
    | multiply => exact combine_known .multiplication span ha hb
    | cross =>
      refine combined ha hb fun combined => ?_
      split
      · exact rel_pure .none
      · exact rel_pure (.refl _)
      · exact rel_reject (by rfl) span
    | sample =>
      simp only [applyIntrinsic]
      rw [ha, hb.isVector]
      split
      · exact rel_pure (.refl _)
      · exact rel_reject (by rfl) span
    | _ => exact rel_pure .none
  · cases f with
    | interpolate =>
      refine combined ha hb fun combined => ?_
      cases combined with
      | none => exact rel_pure .none
      | some ab => exact combine_known .operator span (.refl ab) hc
    | _ => exact rel_pure .none
  · cases f <;> exact rel_pure .none

/-- An intrinsic sees the types of its arguments for what they stand for. -/
theorem callIntrinsic_same (f : Intrinsic) (name : String) {args args' : List Operand}
    (hargs : List.Forall₂ Operand.Same args args') (span : Span) :
    (callIntrinsic f name args span).Rel SameKnown (callIntrinsic f name args' span) := by
  have htypes := argumentTypes_same hargs
  unfold callIntrinsic
  generalize argumentTypes args = types, argumentTypes args' = types' at htypes ⊢
  cases htypes with
  | none => exact rel_pure .none
  | @some types types' htypes =>
    have hfind := find?_rel (p := fun ty => !accepts f ty) (q := fun ty => !accepts f ty) htypes
      fun _ _ h => by rw [accepts_same f h]
    dsimp only
    rw [← htypes.length_eq]
    split
    · generalize types.find? _ = found, types'.find? _ = found' at hfind ⊢
      cases hfind with
      | some h => exact rel_reject (by rfl) span
      | none => exact applyIntrinsic_same f name htypes span
    · exact rel_reject (by rfl) span

/-- What is called is the same, and so is the type of the call. -/
theorem call_same (h : r.Same r') {callee callee' : String}
    (hcallee : r.items.SameCallee r'.items callee callee')
    {args args' : List Operand} (hargs : List.Forall₂ Operand.Same args args') (span : Span) :
    (r.call callee args span).Rel SameKnown (r'.call callee' args' span) := by
  obtain ⟨htype, hname⟩ := hcallee
  unfold call
  generalize r.items.type? callee = type, r'.items.type? callee' = type' at htype hname ⊢
  cases htype with
  | some htarget =>
    have htypes := argumentTypes_same hargs
    generalize argumentTypes args = types, argumentTypes args' = types' at htypes ⊢
    dsimp only
    rw [htarget.isNumeric]
    have hvalue {target target' : Ty} (h : target.Same target') (numeric : Bool) :
        SameKnown (if numeric then some target else none)
          (if numeric then some target' else none) := by
      cases numeric with
      | true => exact .some h
      | false => exact .none
    cases htypes with
    | none => exact rel_pure (hvalue htarget _)
    | some htypes =>
      exact (construct_same htarget hargs htypes span).bind fun _ _ _ =>
        rel_pure (hvalue htarget _)
  | none =>
    obtain rfl := hname rfl
    have hfunction := h.function? callee'
    dsimp only
    generalize r.items.function? callee' = sig, r'.items.function? callee' = sig' at hfunction ⊢
    cases hfunction with
    | some hsig => exact callFunction_same h hsig hargs span
    | none =>
      dsimp only
      split
      · exact callIntrinsic_same _ _ hargs span
      · exact rel_reject (by rfl) span

/-- **Expressions do not tell synonyms apart.** -/
theorem type_same (h : r.Same r') {scope scope' : Scope} (hscope : scope.Same scope') (span : Span)
    {form form' : ExprForm Operand}
    (hform : form.Rel (r.items.SameWritten r'.items) (r.items.SameCallee r'.items)
      Operand.Same form') :
    (r.type scope span form).Rel SameKnown (r'.type scope' span form') := by
  cases hform with
  | literal | error => exact rel_pure (.refl _)
  | ident name => exact identifier_same hscope name span
  | @unary op e e' he =>
    have htype := he.type
    simp only [type]
    generalize e.type = type, e'.type = type' at htype ⊢
    cases htype with
    | none => exact rel_pure Option.Rel.none
    | some htype => exact unary_same op htype span
  | @member e e' he name =>
    have htype := he.type
    simp only [type]
    generalize e.type = type, e'.type = type' at htype ⊢
    cases htype with
    | none => exact rel_pure Option.Rel.none
    | some htype => exact member_same h htype name span
  | paren he => exact rel_pure he.type
  | @binary op left left' right right' hl hr =>
    have hleft := hl.type
    have hright := hr.type
    simp only [type]
    generalize left.type = left, left'.type = left' at hleft ⊢
    generalize right.type = right, right'.type = right' at hright ⊢
    cases hleft with
    | none => exact rel_pure Option.Rel.none
    | some hleft =>
      cases hright with
      | none => exact rel_pure Option.Rel.none
      | some hright => exact binary_same op hleft hright span
  | @index target target' position position' ht hp =>
    have htarget := ht.type
    have hposition := hp.type
    simp only [type]
    generalize target.type = target, target'.type = target' at htarget ⊢
    generalize position.type = place, position'.type = place' at hposition ⊢
    cases htarget with
    | none => exact rel_pure Option.Rel.none
    | some htarget =>
      cases hposition with
      | none => exact rel_pure Option.Rel.none
      | some hposition => exact index_same htarget hposition hp span
  | conditional hc hy hn => exact conditional_same hc hy hn span
  | assign op ht hv => exact assign_same h op ht hv span
  | call hcallee hargs => exact call_same h hcallee hargs span
  | @cast written written' e e' hwritten he =>
    refine hwritten.resolve.bind fun target target' htarget => ?_
    cases htarget with
    | none => exact rel_pure Option.Rel.none
    | some htarget =>
      have htype := he.type
      dsimp only
      generalize e.type = type, e'.type = type' at htype ⊢
      cases htype with
      | none => exact rel_pure (.some htarget)
      | some htype =>
        exact (cast_same htype htarget span).bind fun _ _ _ => rel_pure (.some htarget)

/-! ## Statements -/

variable {p p' : Place}

theorem declaredType_same (name : String) {written written' : WrittenType}
    (h : r.items.SameWritten r'.items written written') :
    (r.declaredType name written).Rel SameKnown (r'.declaredType name written') := by
  refine h.resolve.bind fun type type' htype => ?_
  cases htype with
  | none => exact rel_pure .none
  | some htype =>
    dsimp only
    rw [htype.isVoid, h.span]
    split
    · exact rel_reject (by rfl) _
    · exact rel_pure (.some htype)

/-- A declaration declares the same type under the same name. -/
theorem declaration_same (h : r.Same r') (hp : p.Same p') {decl decl' : VarDecl Operand}
    (hdecl : decl.Rel (r.items.SameWritten r'.items) Operand.Same decl') :
    (r.declaration p decl).Rel Place.Same (r'.declaration p' decl') := by
  obtain ⟨name, written, init, span⟩ := decl
  obtain ⟨name', written', init', span'⟩ := decl'
  obtain ⟨hname, hwritten, hinit, hspan⟩ := hdecl
  dsimp only at hname hwritten hinit hspan
  subst hname hspan
  refine (declaredType_same name' hwritten).bind fun declared declared' hdeclared => ?_
  have hdeclare := hp.declare name' hdeclared span'
  cases hdeclared with
  | none => exact hdeclare
  | some htarget =>
    cases hinit with
    | none => exact hdeclare
    | @some o o' ho =>
      have htype := ho.type
      dsimp only [Option.bind_some]
      rw [ho.span]
      generalize o.type = type, o'.type = type' at htype ⊢
      cases htype with
      | none => exact hdeclare
      | some htype =>
        exact (store_same h o.span htype htarget).bind fun _ _ _ => hdeclare

theorem returnStatement_same (h : r.Same r') (hp : p.Same p') {value value' : Option Operand}
    (hvalue : Option.Rel Operand.Same value value') (span : Span) :
    (r.returnStatement p value span).Rel Eq (r'.returnStatement p' value' span) := by
  have hfunction := hp.function
  unfold returnStatement
  generalize p.function = f, p'.function = f' at hfunction ⊢
  cases hfunction with
  | none => exact rel_pure rfl
  | @some f f' hf =>
    have hreturns := hf.returns
    dsimp only
    generalize f.returns = returns, f'.returns = returns' at hreturns ⊢
    cases hreturns with
    | none => exact rel_pure rfl
    | some hreturns =>
      cases hvalue with
      | none =>
        dsimp only
        rw [hreturns.isVoid]
        split
        · exact rel_pure rfl
        · exact rel_find (by rfl) span
      | @some o o' ho =>
        have htype := ho.type
        dsimp only
        rw [hreturns.isVoid, ho.span]
        split
        · exact rel_find (by rfl) _
        · generalize o.type = type, o'.type = type' at htype ⊢
          cases htype with
          | none => exact rel_pure rfl
          | some htype => exact store_same h _ htype hreturns

theorem statementCondition_same {o o' : Operand} (ho : o.Same o') :
    (statementCondition o).Rel Eq (statementCondition o') := by
  have htype := ho.type
  unfold statementCondition
  rw [ho.span]
  generalize o.type = type, o'.type = type' at htype ⊢
  cases htype with
  | none => exact rel_pure rfl
  | some htype => exact (condition_same _ htype).bind fun _ _ _ => rel_pure rfl

/-- **Statements do not tell synonyms apart.** -/
theorem statement_same (h : r.Same r') (hp : p.Same p') (span : Span)
    {form form' : StmtForm Operand StmtId}
    (hform : form.Rel (r.items.SameWritten r'.items) Operand.Same form') :
    (r.statement p span form).Rel Place.Same (r'.statement p' span form') := by
  cases hform with
  | expr | discard | breakLoop | continueLoop | empty => exact rel_pure hp
  | block => exact rel_pure hp.leaveScope
  | declare hdecl => exact declaration_same h hp hdecl
  | ifElse hc | whileLoop hc =>
    exact (statementCondition_same hc).bind fun _ _ _ => rel_pure hp
  | returns hvalue =>
    exact (returnStatement_same h hp hvalue span).bind fun _ _ _ => rel_pure hp
  | forLoop init hc =>
    cases hc with
    | none => exact rel_pure hp.leaveScope
    | some hc => exact (statementCondition_same hc).bind fun _ _ _ => rel_pure hp.leaveScope

/-- Functions of one name, with one body, that are checked by the same signature. -/
structure SameFunction (r r' : Rules) (f f' : Function) : Prop where
  name : f'.name = f.name
  body : f'.body = f.body
  spans : f'.params.map (·.span) = f.params.map (·.span)
  params : Bindings.Same (r.signature f).1 (r'.signature f').1
  returns : SameKnown (r.signature f).2 (r'.signature f').2

/-- Parameters are entered with the types of the signature, at the places where they stand. -/
theorem entries_same {params params' : List (String × Option Ty)} {fields fields' : List Field}
    (hparams : Bindings.Same params params')
    (hspans : fields'.map (·.span) = fields.map (·.span)) :
    List.Forall₂ (fun e e' => e'.1 = e.1 ∧ SameKnown e.2.1 e'.2.1 ∧ e'.2.2 = e.2.2)
      ((params.zip fields).map fun ((name, ty), param) => (name, ty, param.span))
      ((params'.zip fields').map fun ((name, ty), param) => (name, ty, param.span)) := by
  induction hparams generalizing fields fields' with
  | nil => exact .nil
  | cons hparam _ ih =>
    cases fields with
    | nil =>
      rw [List.map_nil, List.map_eq_nil_iff] at hspans
      rw [hspans]
      exact .nil
    | cons field rest =>
      cases fields' with
      | nil => cases hspans
      | cons field' rest' =>
        obtain ⟨hspan, hrest⟩ := List.cons.inj hspans
        exact .cons ⟨hparam.1, hparam.2, hspan⟩ (ih hrest)

theorem enterFunction_same {f f' : Function} (h : r.SameFunction r' f f') (hp : p.Same p') :
    (r.enterFunction p f).Rel Place.Same (r'.enterFunction p' f') := by
  refine (hp.enterScope.declareAll (entries_same h.params h.spans)).bind fun q q' hq => rel_pure ?_
  exact ⟨hq.scope, .some ⟨h.name, h.returns, by rw [hq.scope.depth]⟩⟩

theorem leaveFunction_same (hp : p.Same p') : (leaveFunction p).Same (leaveFunction p') :=
  ⟨hp.scope.leave, .none⟩

end Rules
end ShaderFront
