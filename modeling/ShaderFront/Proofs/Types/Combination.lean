import ShaderFront.Proofs.Types.StoreOrder

/-!
# Laws of the tables

What two types combine to by the general table is a matter of their shapes and their kinds, or of
the one struct that both of them are. Neither shapes nor kinds care for order or grouping, so the
table is commutative, and it is associative, where what does not combine absorbs whatever it meets.
Division goes by the same table, but for what it refuses, and so do products, but for those of
matrix algebra, which are turned around by transposition.
-/

namespace ShaderFront

namespace Shape

/-- The shape that two shapes combine to. Outside operators a shape combines only with itself. -/
def meet? (s t : Shape) (underOperator : Bool) : Option Shape :=
  if underOperator then s.join? t else if s = t then some s else none

variable {s t u v w : Shape} {underOperator : Bool}

theorem meet?_comm (s t : Shape) (underOperator : Bool) :
    s.meet? t underOperator = t.meet? s underOperator := by
  unfold meet? join?
  grind

/-- What meets on the left meets on the right. -/
theorem meet?_assoc (hleft : s.meet? t underOperator = some u)
    (hall : u.meet? v underOperator = some w) :
    ∃ x, t.meet? v underOperator = some x ∧ s.meet? x underOperator = some w := by
  unfold meet? join? at *
  grind

theorem withKind_ne_struct (s : Shape) (k : ScalarKind) (name : String) :
    s.withKind k ≠ .struct name := by
  cases s <;> nofun

end Shape

namespace Ty

variable {a b c r q : Ty} {s t : Shape} {j k : ScalarKind} {underOperator : Bool}

/-! ## What combines -/

/-- How two types can combine to a third one. -/
inductive Combines (a b r : Ty) (underOperator : Bool) : Prop where
  /-- The shapes meet, and the kinds promote. -/
  | numeric {s t v : Shape} {j k : ScalarKind} (left : a.resolve = s.withKind j)
      (right : b.resolve = t.withKind k) (shapes : s.meet? t underOperator = some v)
      (result : r = v.withKind (j.promote k))
  /-- Both are one struct. -/
  | struct {name : String} (left : a.resolve = .struct name) (right : b.resolve = .struct name)
      (plain : underOperator = false) (result : r = .struct name)

theorem combine?_meet (ha : a.resolve = s.withKind j) (hb : b.resolve = t.withKind k)
    (underOperator : Bool) :
    a.combine? b underOperator = (s.meet? t underOperator).map (·.withKind (j.promote k)) := by
  cases underOperator with
  | true => exact combine?_withKind ha hb
  | false =>
    unfold combine? Shape.meet?
    rw [ha, hb]
    cases s <;> cases t
    case vector.vector n m => by_cases h : n = m <;> simp [Shape.withKind, h]
    case matrix.matrix r c r' c' => by_cases h : r = r' ∧ c = c' <;> simp [Shape.withKind, h]
    all_goals simp [Shape.withKind]

/-- **What the general table holds.** -/
theorem combine?_eq_some_iff :
    a.combine? b underOperator = some r ↔ a.Combines b r underOperator := by
  constructor
  · intro h
    by_cases hnumeric : a.isNumeric = true ∧ b.isNumeric = true
    · obtain ⟨s, j, ha⟩ := exists_withKind hnumeric.1
      obtain ⟨t, k, hb⟩ := exists_withKind hnumeric.2
      rw [combine?_meet ha hb] at h
      obtain ⟨v, hmeet, rfl⟩ := Option.map_eq_some_iff.1 h
      exact .numeric ha hb hmeet rfl
    · -- All arms but the one of structs are for numeric operands.
      unfold combine? at h
      split at h
      case h_8 ha hb =>
        obtain ⟨⟨rfl, plain⟩, rfl⟩ := by simpa using h
        exact .struct ha hb plain rfl
      all_goals simp_all [isNumeric, element?]
  · rintro (⟨ha, hb, hmeet, rfl⟩ | ⟨ha, hb, rfl, rfl⟩)
    · rw [combine?_meet ha hb, hmeet]
      rfl
    · simp [combine?, ha, hb]

namespace Combines

theorem symm (h : a.Combines b r underOperator) : b.Combines a r underOperator := by
  cases h with
  | numeric left right shapes result =>
    exact .numeric right left ((Shape.meet?_comm _ _ _).trans shapes)
      (ScalarKind.promote_comm _ _ ▸ result)
  | struct left right plain result => exact .struct right left plain result

theorem resolve_eq (h : a.Combines b r underOperator) : r.resolve = r := by
  cases h with
  | numeric left right shapes result => exact result ▸ Shape.resolve_withKind _ _
  | struct left right plain result => exact result ▸ rfl

/-- What combines from the left combines from the right. -/
theorem assoc (h : a.Combines b r underOperator) (h' : r.Combines c q underOperator) :
    ∃ p, b.Combines c p underOperator ∧ a.Combines p q underOperator := by
  cases h with
  | @numeric s t v j k ha hb hleft hr =>
    obtain rfl := hr
    cases h' with
    | @numeric s' u w j' l hv hc hall hq =>
      rw [Shape.resolve_withKind] at hv
      obtain ⟨rfl, rfl⟩ := Shape.withKind_inj.1 hv
      obtain ⟨x, hright, hall⟩ := Shape.meet?_assoc hleft hall
      refine ⟨x.withKind (k.promote l), .numeric hb hc hright rfl,
        .numeric ha (Shape.resolve_withKind _ _) hall ?_⟩
      rw [hq, ScalarKind.promote_assoc]
    | struct hv =>
      rw [Shape.resolve_withKind] at hv
      exact absurd hv (Shape.withKind_ne_struct _ _ _)
  | @struct name ha hb plain hr =>
    obtain rfl := hr
    cases h' with
    | numeric hv => exact absurd hv.symm (Shape.withKind_ne_struct _ _ _)
    | @struct name' hv hc _ hq =>
      cases hv
      exact ⟨.struct name, .struct hb hc plain rfl, .struct ha rfl plain hq⟩

end Combines

/-! ## Commutative and associative -/

/-- The general table is commutative. -/
theorem combine?_comm (left right : Ty) (underOperator : Bool) :
    left.combine? right underOperator = right.combine? left underOperator := by
  ext r
  rw [combine?_eq_some_iff, combine?_eq_some_iff]
  exact ⟨.symm, .symm⟩

/-- The general table is associative, and what does not combine does not combine with more. -/
theorem combine?_assoc (a b c : Ty) (underOperator : Bool) :
    (a.combine? b underOperator).bind (·.combine? c underOperator) =
      (b.combine? c underOperator).bind (a.combine? · underOperator) := by
  ext q
  simp only [Option.bind_eq_some_iff, combine?_eq_some_iff]
  constructor
  · rintro ⟨r, hleft, hall⟩
    exact hleft.assoc hall
  · -- The other grouping is this one with the operands in the opposite order.
    rintro ⟨p, hright, hall⟩
    obtain ⟨r, hleft, hall⟩ := hright.symm.assoc hall.symm
    exact ⟨r, hleft.symm, hall.symm⟩

theorem combine?_ne_synonym (a b : Ty) (underOperator : Bool) (name : String) (target : Ty) :
    a.combine? b underOperator ≠ some (.synonym name target) := by
  intro h
  exact resolve_ne_synonym _ _ _ (combine?_eq_some_iff.1 h).resolve_eq

@[simp] theorem resolve_combine? (a b : Ty) (underOperator : Bool) :
    a.resolve.combine? b underOperator = a.combine? b underOperator := by
  unfold combine?
  rw [resolve_resolve]

@[simp] theorem combine?_resolve (a b : Ty) (underOperator : Bool) :
    a.combine? b.resolve underOperator = a.combine? b underOperator := by
  unfold combine?
  rw [resolve_resolve]

/-! ## Division and products -/

/-- A matrix with its rows and columns swapped; other types are only resolved. -/
def transpose (ty : Ty) : Ty :=
  match ty.resolve with
  | .matrix k r c => .matrix k c r
  | other => other

/-- Two matrices, or a matrix and a vector: what matrix algebra multiplies in its own way. -/
def InMatrixAlgebra (left right : Ty) : Prop :=
  (left.isMatrix = true ∧ right.isMatrix = true) ∨ (left.isMatrix = true ∧ right.isVector = true) ∨
    (left.isVector = true ∧ right.isMatrix = true)

instance (left right : Ty) : Decidable (left.InMatrixAlgebra right) :=
  inferInstanceAs (Decidable (_ ∨ _ ∨ _))

/-- Division is the general table without scalars over matrices. -/
theorem quotient?_eq (left right : Ty) :
    left.quotient? right =
      if left.isScalar && right.isMatrix then none else left.combine? right true := by
  unfold quotient? combine? isScalar isMatrix
  cases left.resolve <;> cases right.resolve
  case struct.struct => simp
  all_goals rfl

/-- Outside matrix algebra the product is the general table. -/
theorem product?_eq_combine? {left right : Ty} (h : ¬left.InMatrixAlgebra right) :
    left.product? right = left.combine? right true := by
  unfold InMatrixAlgebra isMatrix isVector at h
  unfold product? combine?
  cases hl : left.resolve <;> cases hr : right.resolve <;> rw [hl, hr] at h
  case struct.struct => simp
  case matrix.matrix | matrix.vector | vector.matrix => simp at h
  all_goals rfl

@[simp] theorem resolve_transpose (ty : Ty) : ty.transpose.resolve = ty.transpose := by
  unfold transpose
  split
  · rfl
  · exact resolve_resolve ty

/-- **Products are dual.** The transpose of a product is the product of the transposes, the other
way round. -/
theorem map_transpose_product? (left right : Ty) :
    (left.product? right).map transpose = right.transpose.product? left.transpose := by
  unfold product?
  rw [resolve_transpose, resolve_transpose]
  unfold transpose
  cases left.resolve <;> cases right.resolve
  case scalar.scalar a b => simp [resolve, a.promote_comm b]
  case vector.vector a n b m | matrix.vector a _ n b m | vector.matrix a n b m _
      | matrix.matrix a _ n b m _ =>
    by_cases h : n = m
    · simp [resolve, h, a.promote_comm b]
    · simp [h, Ne.symm h]
  all_goals rfl

/-- **The three tables fit together.** Division is the general table but that no scalar is divided
by a matrix, products are the general table outside matrix algebra, and all products are turned
around by transposition. -/
theorem tables_fit (left right : Ty) :
    left.quotient? right =
        (if left.isScalar && right.isMatrix then none else left.combine? right true) ∧
      (¬left.InMatrixAlgebra right → left.product? right = left.combine? right true) ∧
      (left.product? right).map transpose = right.transpose.product? left.transpose :=
  ⟨quotient?_eq left right, product?_eq_combine?, map_transpose_product? left right⟩

/-- A matrix behind a synonym is scaled, and so is its transpose; no scalar is divided by it. -/
theorem tables_fit_scaled :
    let factor : Ty := .scalar .float
    let grid : Ty := .synonym "Grid" (.matrix .half 2 3)
    ¬factor.InMatrixAlgebra grid ∧ factor.product? grid = some (.matrix .float 2 3) ∧
      factor.quotient? grid = none ∧
      grid.transpose.product? factor.transpose = some (.matrix .float 3 2) := by
  intro factor grid
  have houtside : ¬factor.InMatrixAlgebra grid := by decide
  obtain ⟨hquotient, hproduct, hdual⟩ := tables_fit factor grid
  have hscaled : factor.product? grid = some (.matrix .float 2 3) := hproduct houtside
  exact ⟨houtside, hscaled, hquotient, by rw [← hdual, hscaled]; rfl⟩

end Ty
end ShaderFront
