import ShaderFront.Analysis.Typing
import ShaderFront.Proofs.Types.Combination

/-!
# The order of operands

Swapping the operands of a commutative operator leaves the type of the result as it is. The one
exception is the product: in matrix algebra the order of the factors matters, unless they fit in
both orders or in neither.
-/

namespace ShaderFront
namespace Ty

/-! ## Products -/

/-- The factors of a product may be swapped. A vector fits a matrix on both sides or on neither; two
matrices are square and of one size, or they fit in neither order. -/
def Interchangeable (left right : Ty) : Prop :=
  match left.resolve, right.resolve with
  | .matrix _ r c, .vector _ n | .vector _ n, .matrix _ r c => c = n ↔ r = n
  | .matrix _ r c, .matrix _ r' c' => (c = r' ↔ c' = r) ∧ (c = r' → r = c)
  | _, _ => True

/-- **When a product is commutative.** -/
theorem product?_comm_iff (left right : Ty) :
    left.product? right = right.product? left ↔ left.Interchangeable right := by
  unfold product? Interchangeable
  cases left.resolve <;> cases right.resolve
  case scalar.scalar a b => simp only [a.promote_comm b]
  case vector.vector a n b m =>
    by_cases hsize : n = m
    · simp [hsize, a.promote_comm b]
    · simp [hsize, Ne.symm hsize]
  case matrix.vector a r c b n =>
    have hpromote := a.promote_comm b
    by_cases hc : c = n <;> by_cases hr : n = r <;> grind
  case vector.matrix b n a r c =>
    have hpromote := a.promote_comm b
    by_cases hc : c = n <;> by_cases hr : n = r <;> grind
  case matrix.matrix a r c b r' c' =>
    have hpromote := a.promote_comm b
    by_cases hc : c = r' <;> by_cases hr : c' = r <;> grind
  all_goals exact iff_of_true rfl trivial

end Ty

namespace Rules

/-- A commutative operator combines by the general table, but for the product. -/
theorem value_binary {op : BinaryOp} (commutative : op.isCommutative = true) (left right : Ty)
    (span : Span) :
    (binary op left right span).value =
      match op with
      | .mul => left.product? right
      | .eq | .notEq => truth (left.combine? right true)
      | .and | .or =>
        if left.isMatrix || right.isMatrix then none else truth (left.combine? right true)
      | .bitAnd | .bitOr | .bitXor =>
        (left.combine? right true).filter fun ty =>
          ty.element?.any fun k => k.isIntegral || k == .bool
      | _ => left.combine? right true := by
  cases op with
  | sub | div | mod | lt | ltEq | gt | gtEq | shl | shr => cases commutative
  | mul | add => exact Reported.value_orReject _ _ span
  | eq | notEq => simp [binary, combine, Combining.apply]
  | and | or =>
    simp only [binary]
    split
    · rfl
    · simp [combine, Combining.apply]
  | bitAnd | bitOr | bitXor =>
    simp only [binary, combine, Combining.apply, Reported.value_bind, Reported.value_orReject]
    cases left.combine? right true with
    | none => rfl
    | some ty =>
      rw [Option.filter_some]
      dsimp only
      split
      · rfl
      · rfl

/-- **Commutative operators.** Swapping the operands of an operator that counts as commutative
leaves the type of the result as it is, whether there is one or not. For a product that is so
exactly if the factors are interchangeable. -/
theorem binary_swap_iff {op : BinaryOp} (commutative : op.isCommutative = true) (left right : Ty)
    (span : Span) :
    (binary op left right span).value = (binary op right left span).value ↔
      (op = .mul → left.Interchangeable right) := by
  rw [value_binary commutative, value_binary commutative, right.combine?_comm left true,
    Bool.or_comm right.isMatrix]
  cases op with
  | mul => simpa using left.product?_comm_iff right
  | _ => exact iff_of_true rfl nofun

/-- A square matrix and a vector of its size, behind a synonym. -/
theorem binary_swap_square :
    let square : Ty := .matrix .half 3 3
    let point : Ty := .synonym "Point" (.vector .float 3)
    BinaryOp.mul.isCommutative = true ∧
      (binary .mul square point default).value = some (.vector .float 3) ∧
      (binary .mul point square default).value = some (.vector .float 3) := by
  intro square point
  have hmul : (binary .mul square point default).value = some (.vector .float 3) := by decide
  have hswap : square.Interchangeable point := iff_of_true rfl rfl
  have hcommutes : BinaryOp.mul.isCommutative = true := rfl
  refine ⟨hcommutes, hmul, ?_⟩
  rw [← (binary_swap_iff hcommutes square point default).2 fun _ => hswap]
  exact hmul

/-- A vector of two components multiplies a matrix of two rows and three columns from the left, and
not from the right. -/
theorem binary_mul_ne_swapped :
    BinaryOp.mul.isCommutative = true ∧
      (binary .mul (.vector .float 2) (.matrix .float 2 3) default).value =
        some (.vector .float 3) ∧
      (binary .mul (.matrix .float 2 3) (.vector .float 2) default).value = none := by
  decide

end Rules
end ShaderFront
