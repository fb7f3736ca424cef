import Mathlib.Data.List.Basic
import ShaderFront.Analysis.Typing
import ShaderFront.Proofs.Types.Combination

/-!
# The order of arguments

Any number of numeric types combine by the general table, one after the other, and in any order to
the same type. That is how the type of an interpolation follows from its arguments, so the order in
which they are written does not matter for it.
-/

namespace ShaderFront

/-! ## Combining many types -/

namespace Ty

variable {a : Ty} {types types' : List Ty}

/-- The truth value is the narrowest of all types, so it changes no numeric type. -/
theorem bool_combine? (h : a.isNumeric = true) :
    (scalar .bool).combine? a true = some a.resolve := by
  obtain ⟨s, k, ha⟩ := exists_withKind h
  rw [combine?_withKind (s := .scalar) rfl ha, ha]
  cases k <;> rfl

/-- The combined type of numeric types. -/
def combineAll? (types : List Ty) : Option Ty :=
  types.foldl (fun combined ty => combined.bind (·.combine? ty true)) (some (.scalar .bool))

theorem combine?_right_comm (combined : Option Ty) (a b : Ty) :
    (combined.bind (·.combine? a true)).bind (·.combine? b true) =
      (combined.bind (·.combine? b true)).bind (·.combine? a true) := by
  cases combined with
  | none => rfl
  | some c =>
    calc (c.combine? a true).bind (·.combine? b true)
      _ = (a.combine? b true).bind (c.combine? · true) := combine?_assoc c a b true
      _ = (b.combine? a true).bind (c.combine? · true) := by rw [a.combine?_comm b true]
      _ = (c.combine? b true).bind (·.combine? a true) := (combine?_assoc c b a true).symm

/-- **Types combine in any order.** -/
theorem combineAll?_perm (h : types.Perm types') : combineAll? types = combineAll? types' :=
  h.foldl_eq' (fun a _ b _ combined => combine?_right_comm combined a b) _

end Ty

/-! ## Interpolations -/

namespace Rules

variable {args args' : List Operand}

theorem argumentTypes_eq (args : List Operand) :
    argumentTypes args =
      if args.all (·.type.isSome) then some (args.filterMap (·.type)) else none := by
  induction args with
  | nil => rfl
  | cons o rest ih =>
    rw [argumentTypes, List.mapM_cons, ← argumentTypes, ih]
    cases ho : o.type <;> by_cases hrest : rest.all (·.type.isSome) <;> simp [ho, hrest]

theorem value_interpolate {a : Ty} (numeric : a.isNumeric = true) (b c : Ty) (name : String)
    (span : Span) :
    (applyIntrinsic .interpolate name [a, b, c] span).value = Ty.combineAll? [a, b, c] := by
  simp only [Ty.combineAll?, List.foldl_cons, List.foldl_nil, Option.bind_some,
    Ty.bool_combine? numeric, Ty.resolve_combine?]
  simp only [applyIntrinsic, combine, Combining.apply, Reported.value_bind, Reported.value_orReject]
  cases a.combine? b true with
  | none => rfl
  | some ab => exact Reported.value_orReject ..

/-- The type of a call of an interpolation is the combined type of its arguments, if they are three
and numeric. -/
theorem value_callInterpolate (name : String) (args : List Operand) (span : Span) :
    (callIntrinsic .interpolate name args span).value =
      (argumentTypes args).bind fun types =>
        if types.length = 3 ∧ types.all (·.isNumeric) then Ty.combineAll? types else none := by
  unfold callIntrinsic
  cases argumentTypes args with
  | none => rfl
  | some types =>
    have haccepts (ty : Ty) : accepts .interpolate ty = ty.isNumeric := by
      simp [accepts, show (Intrinsic.interpolate == .sample) = false from rfl]
    simp only [haccepts, Option.bind_some, Intrinsic.arity]
    split
    · rename_i hlength
      split
      · rename_i rejected hfind
        have hrejected : rejected.isNumeric = false := by simpa using List.find?_some hfind
        have hall : ¬types.all (·.isNumeric) = true := fun h => by
          simpa [hrejected] using List.all_eq_true.1 h rejected (List.mem_of_find?_eq_some hfind)
        rw [if_neg (hall ·.2)]
        rfl
      · rename_i hfind
        have hall : ∀ ty ∈ types, ty.isNumeric = true := by simpa using hfind
        rw [if_pos ⟨hlength, List.all_eq_true.2 hall⟩]
        obtain ⟨a, b, c, rfl⟩ := List.length_eq_three.1 hlength
        exact value_interpolate (hall a List.mem_cons_self) b c name span
    · rename_i hlength
      rw [if_neg (hlength ·.1)]
      rfl

/-- An interpolation is indifferent to the order of its arguments. -/
theorem value_callInterpolate_perm (h : args.Perm args') (name : String) (span : Span) :
    (callIntrinsic .interpolate name args span).value =
      (callIntrinsic .interpolate name args' span).value := by
  have htypes : (args.filterMap (·.type)).Perm (args'.filterMap (·.type)) := h.filterMap _
  rw [value_callInterpolate, value_callInterpolate, argumentTypes_eq, argumentTypes_eq,
    h.all_eq]
  split
  · simp only [Option.bind_some, htypes.length_eq, htypes.all_eq, Ty.combineAll?_perm htypes]
  · rfl

/-- The type of a call. Only intrinsics look at the arguments for it. -/
theorem value_call (r : Rules) (callee : String) (args : List Operand) (span : Span) :
    (r.call callee args span).value =
      match r.items.type? callee, r.items.function? callee with
      | some target, _ => if target.isNumeric then some target else none
      | none, some sig => sig.returns
      | none, none =>
        (Intrinsic.ofName? callee).bind fun f => (callIntrinsic f callee args span).value := by
  unfold call
  cases r.items.type? callee with
  | some target =>
    dsimp only
    split <;> rfl
  | none =>
    cases r.items.function? callee with
    | some sig =>
      simp only [callFunction]
      split
      · rfl
      · split <;> rfl
    | none => cases Intrinsic.ofName? callee <;> rfl

/-- The names of interpolations. -/
def interpolations : List String := ["clamp", "lerp", "smoothstep"]

theorem ofName?_interpolations {name : String} (h : name ∈ interpolations) :
    Intrinsic.ofName? name = some .interpolate := by
  simp only [interpolations, List.mem_cons, List.not_mem_nil, or_false] at h
  rcases h with rfl | rfl | rfl <;> decide

/-- The type of a call by the name of an interpolation does not depend on the order of the
arguments, also where the unit gives the name to a type or a function of its own. -/
theorem value_call_perm {r : Rules} {callee : String} (interpolates : callee ∈ interpolations)
    (h : args.Perm args') (span : Span) :
    (r.call callee args span).value = (r.call callee args' span).value := by
  rw [value_call, value_call, ofName?_interpolations interpolates, Option.bind_some,
    Option.bind_some, value_callInterpolate_perm h]

end Rules

/-- **Combining is symmetric.** In both contexts the general table is commutative, and it is
associative, where what does not combine absorbs the third type. Its results are no synonyms, and it
looks through those of its operands. So the type of an interpolation does not depend on the order of
its arguments. -/
theorem combination_symmetric (a b c : Ty) (underOperator : Bool) (r : Rules) (scope : Scope)
    {callee : String} (interpolates : callee ∈ Rules.interpolations) {args args' : List Operand}
    (reordered : args.Perm args') (span : Span) :
    a.combine? b underOperator = b.combine? a underOperator ∧
      (a.combine? b underOperator).bind (·.combine? c underOperator) =
        (b.combine? c underOperator).bind (a.combine? · underOperator) ∧
      (∀ name target, a.combine? b underOperator ≠ some (.synonym name target)) ∧
      (a.resolve.combine? b underOperator = a.combine? b underOperator ∧
        a.combine? b.resolve underOperator = a.combine? b underOperator) ∧
      (r.type scope span (.call callee args)).value =
        (r.type scope span (.call callee args')).value :=
  ⟨a.combine?_comm b underOperator, a.combine?_assoc b c underOperator,
    a.combine?_ne_synonym b underOperator,
    ⟨a.resolve_combine? b underOperator, a.combine?_resolve b underOperator⟩,
    Rules.value_call_perm interpolates reordered span⟩

/-- A color behind a synonym, a number and a choice of components, in two orders; and three types
of which two do not combine, in both groupings. -/
theorem combination_symmetric_lerp :
    let color : Operand := ⟨some (.synonym "Color" (.vector .half 3)), default, .ident "color"⟩
    let weight : Operand := ⟨some (.scalar .float), default, .ident "weight"⟩
    let mask : Operand := ⟨some (.vector .bool 3), default, .ident "mask"⟩
    let rules : Rules := ⟨{}, true⟩
    "lerp" ∈ Rules.interpolations ∧ [color, mask, weight].Perm [weight, color, mask] ∧
      (rules.type {} default (.call "lerp" [weight, color, mask])).value =
        some (.vector .float 3) ∧
      ((Ty.scalar .int).combine? (.vector .int 3) true).bind (·.combine? (.vector .int 2) true) =
        none := by
  intro color weight mask rules
  have hnamed : "lerp" ∈ Rules.interpolations := by decide
  have hreordered : [color, mask, weight].Perm [weight, color, mask] := by decide
  have htype : (rules.type {} default (.call "lerp" [color, mask, weight])).value =
      some (.vector .float 3) := by decide
  obtain ⟨-, hassoc, -, -, horder⟩ := combination_symmetric (.scalar .int) (.vector .int 3)
    (.vector .int 2) true rules {} hnamed hreordered default
  exact ⟨hnamed, hreordered, horder ▸ htype, hassoc.trans rfl⟩

end ShaderFront
