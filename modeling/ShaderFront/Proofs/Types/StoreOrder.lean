import Mathlib.Order.Basic
import ShaderFront.Types.Conversion

/-!
# The store order

A type lies below another one if its values can be stored there without loss. Behind its synonyms a
numeric type is an element kind in a shape, and storing goes by the two apart: kinds are a chain,
and a scalar fills every shape, while any other shape takes only itself. The general table of
combined types goes by the same two. So it gives the least type above both operands, and it gives
one exactly if some type is above both.
-/

namespace ShaderFront

/-! ## Shapes -/

/-- How the components of a numeric type are arranged. -/
inductive Shape where
  | scalar
  | vector (size : UInt8)
  | matrix (rows columns : UInt8)
  deriving DecidableEq, Repr

namespace Shape

/-- The type of a shape over an element kind. -/
def withKind : Shape → ScalarKind → Ty
  | .scalar, k => .scalar k
  | .vector n, k => .vector k n
  | .matrix r c, k => .matrix k r c

/-- A scalar fills every shape, and any other shape only itself. -/
def Fills (s t : Shape) : Prop := s = .scalar ∨ s = t

/-- The least shape that two shapes fill. -/
def join? (s t : Shape) : Option Shape :=
  if s = .scalar then some t else if t = .scalar ∨ s = t then some s else none

variable {s t v : Shape} {j k : ScalarKind}

theorem withKind_inj : s.withKind j = t.withKind k ↔ s = t ∧ j = k := by
  cases s <;> cases t <;> simp [withKind, and_comm, and_assoc]

@[simp] theorem resolve_withKind (s : Shape) (k : ScalarKind) :
    (s.withKind k).resolve = s.withKind k := by
  cases s <;> rfl

@[simp] theorem element?_withKind (s : Shape) (k : ScalarKind) :
    (s.withKind k).element? = some k := by
  cases s <;> rfl

theorem Fills.trans (h : s.Fills t) (h' : t.Fills v) : s.Fills v := by
  rcases h with rfl | rfl
  · exact .inl rfl
  · exact h'

theorem fills_of_join? (h : s.join? t = some v) : s.Fills v ∧ t.Fills v := by
  unfold join? at h
  split at h
  · rename_i hs
    cases h
    exact ⟨.inl hs, .inr rfl⟩
  · split at h
    · rename_i ht
      cases h
      exact ⟨.inr rfl, ht.imp_right Eq.symm⟩
    · cases h

/-- What both shapes fill, their join fills. -/
theorem exists_join? (hs : s.Fills v) (ht : t.Fills v) : ∃ u, s.join? t = some u ∧ u.Fills v := by
  unfold join?
  split
  · exact ⟨t, rfl, ht⟩
  · rename_i hscalar
    obtain rfl : s = v := hs.resolve_left hscalar
    exact ⟨s, if_pos (ht.imp_right Eq.symm), .inr rfl⟩

end Shape

namespace Conversion

/-- Nothing is lost on the way to a kind that is no narrower. -/
theorem ofKinds_eq_widen {a b : ScalarKind} : ofKinds a b = .widen ↔ a.rank ≤ b.rank := by
  simp [ofKinds, ScalarKind.narrowsTo]

theorem ofKinds_ne_same (a b : ScalarKind) : ofKinds a b ≠ .same := by
  unfold ofKinds
  split <;> nofun

/-- Only numeric types are stored in types that are not the same behind their synonyms. -/
theorem ofStore?_cases {value target : Ty} {c : Conversion} (h : ofStore? value target = some c) :
    value.resolve = target.resolve ∨ value.isNumeric = true ∧ target.isNumeric = true := by
  by_cases heq : value.resolve = target.resolve
  · exact .inl heq
  · rw [ofStore?, if_neg heq] at h
    cases hv : value.resolve <;> cases ht : target.resolve <;>
      simp_all [Ty.isNumeric, Ty.element?]

end Conversion

/-! ## Types by shape and kind -/

namespace Ty

variable {a b c : Ty} {s t : Shape} {j k : ScalarKind}

/-- Behind its synonyms a numeric type has a shape and a kind. -/
theorem exists_withKind (h : a.isNumeric = true) : ∃ s k, a.resolve = Shape.withKind s k := by
  unfold isNumeric element? at h
  split at h
  · exact ⟨.scalar, _, ‹_›⟩
  · exact ⟨.vector _, _, ‹_›⟩
  · exact ⟨.matrix _ _, _, ‹_›⟩
  · cases h

/-- The general table joins shapes and promotes kinds. -/
theorem combine?_withKind (ha : a.resolve = s.withKind j) (hb : b.resolve = t.withKind k) :
    a.combine? b true = (s.join? t).map (·.withKind (j.promote k)) := by
  unfold combine?
  rw [ha, hb]
  cases s <;> cases t
  case scalar.scalar | scalar.vector | scalar.matrix | vector.scalar | matrix.scalar =>
    simp [Shape.withKind, Shape.join?, k.promote_comm j]
  case vector.vector n m => by_cases h : n = m <;> simp [Shape.withKind, Shape.join?, h]
  case matrix.matrix r c r' c' =>
    by_cases h : r = r' ∧ c = c' <;> simp [Shape.withKind, Shape.join?, h]
  case vector.matrix | matrix.vector => simp [Shape.withKind, Shape.join?]

/-! ## The order -/

/-- A value of the first type is stored in a place of the second one without loss. -/
instance : LE Ty where
  le a b := Conversion.ofStore? a b = some .same ∨ Conversion.ofStore? a b = some .widen

theorem le_def :
    a ≤ b ↔ Conversion.ofStore? a b = some .same ∨ Conversion.ofStore? a b = some .widen := .rfl

/-- Types that are the same behind their synonyms lie below each other. -/
theorem le_of_resolve_eq (h : a.resolve = b.resolve) : a ≤ b :=
  .inl (by rw [Conversion.ofStore?, if_pos h])

/-- Of two numeric types the first one lies below the second one if its shape fills the other shape
and its kind is no wider. -/
theorem le_iff_withKind (ha : a.resolve = s.withKind j) (hb : b.resolve = t.withKind k) :
    a ≤ b ↔ s.Fills t ∧ j.rank ≤ k.rank := by
  rw [le_def, Conversion.ofStore?, ha, hb]
  split
  · rename_i heq
    obtain ⟨rfl, rfl⟩ := Shape.withKind_inj.1 heq
    exact iff_of_true (.inl rfl) ⟨.inr rfl, Nat.le_refl _⟩
  · rename_i hne
    cases s <;> cases t
    case scalar.scalar | scalar.vector | scalar.matrix =>
      simp [Shape.withKind, Shape.Fills, Conversion.ofKinds_eq_widen, Conversion.ofKinds_ne_same]
    case vector.vector n m =>
      by_cases h : n = m
      · simp [Shape.withKind, Shape.Fills, h, Conversion.ofKinds_eq_widen,
          Conversion.ofKinds_ne_same]
      · by_cases hlt : m < n <;> simp [Shape.withKind, Shape.Fills, h, hlt]
    case matrix.matrix r c r' c' =>
      by_cases h : r = r' ∧ c = c'
      · simp [Shape.withKind, Shape.Fills, h, Conversion.ofKinds_eq_widen,
          Conversion.ofKinds_ne_same]
      · simp [Shape.withKind, Shape.Fills, h]
    case vector.scalar | matrix.scalar | vector.matrix | matrix.vector =>
      simp [Shape.withKind, Shape.Fills]

/-- Only numeric types lie below types that are not the same behind their synonyms. -/
theorem le_cases (h : a ≤ b) :
    a.resolve = b.resolve ∨ a.isNumeric = true ∧ b.isNumeric = true :=
  h.elim Conversion.ofStore?_cases Conversion.ofStore?_cases

/-- What lies above a numeric type is numeric, of a shape that is filled and of no narrower kind. -/
theorem le_iff_exists_withKind (ha : a.resolve = s.withKind j) :
    a ≤ b ↔ ∃ t k, b.resolve = Shape.withKind t k ∧ s.Fills t ∧ j.rank ≤ k.rank := by
  constructor
  · intro h
    obtain ⟨t, k, hb⟩ : ∃ t k, b.resolve = Shape.withKind t k := by
      rcases le_cases h with heq | ⟨-, hb⟩
      · exact ⟨s, j, heq.symm.trans ha⟩
      · exact exists_withKind hb
    exact ⟨t, k, hb, (le_iff_withKind ha hb).1 h⟩
  · rintro ⟨t, k, hb, h⟩
    exact (le_iff_withKind ha hb).2 h

/-- What is stored without loss, and from there again, is stored without loss. -/
instance : Preorder Ty where
  le_refl a := le_of_resolve_eq rfl
  le_trans a b c hab hbc := by
    rcases le_cases hab with heq | ⟨ha, -⟩
    · rw [le_def, Conversion.ofStore?] at hbc ⊢
      rwa [heq]
    · obtain ⟨s, j, ha⟩ := exists_withKind ha
      obtain ⟨t, k, hb, hst, hjk⟩ := (le_iff_exists_withKind ha).1 hab
      obtain ⟨v, l, hc, htv, hkl⟩ := (le_iff_exists_withKind hb).1 hbc
      exact (le_iff_withKind ha hc).2 ⟨hst.trans htv, Nat.le_trans hjk hkl⟩

/-- **The general table gives joins.** Under an operator two numeric types combine exactly if values
of both can be stored in some type without loss; and what they combine to is such a type, and the
least one. -/
theorem combine?_join (ha : a.isNumeric = true) (hb : b.isNumeric = true) :
    ((a.combine? b true).isSome = true ↔ ∃ t, a ≤ t ∧ b ≤ t) ∧
      ∀ r, a.combine? b true = some r → a ≤ r ∧ b ≤ r ∧ ∀ t, a ≤ t → b ≤ t → r ≤ t := by
  obtain ⟨s, j, ha⟩ := exists_withKind ha
  obtain ⟨t, k, hb⟩ := exists_withKind hb
  have hbound (c : Ty) (hac : a ≤ c) (hbc : b ≤ c) :
      ∃ v, s.join? t = some v ∧ v.withKind (j.promote k) ≤ c := by
    obtain ⟨w, l, hc, hsw, hjl⟩ := (le_iff_exists_withKind ha).1 hac
    obtain ⟨htw, hkl⟩ := (le_iff_withKind hb hc).1 hbc
    obtain ⟨v, hjoin, hvw⟩ := Shape.exists_join? hsw htw
    refine ⟨v, hjoin, (le_iff_withKind (v.resolve_withKind _) hc).2 ⟨hvw, ?_⟩⟩
    rw [ScalarKind.rank_promote]
    exact Nat.max_le.2 ⟨hjl, hkl⟩
  have habove (v : Shape) (hjoin : s.join? t = some v) :
      a ≤ v.withKind (j.promote k) ∧ b ≤ v.withKind (j.promote k) := by
    obtain ⟨hsv, htv⟩ := Shape.fills_of_join? hjoin
    rw [le_iff_withKind ha (v.resolve_withKind _), le_iff_withKind hb (v.resolve_withKind _),
      ScalarKind.rank_promote]
    exact ⟨⟨hsv, Nat.le_max_left _ _⟩, htv, Nat.le_max_right _ _⟩
  rw [combine?_withKind ha hb]
  refine ⟨⟨fun hsome => ?_, fun ⟨c, hac, hbc⟩ => ?_⟩, fun r hr => ?_⟩
  · rw [Option.isSome_map] at hsome
    obtain ⟨v, hjoin⟩ := Option.isSome_iff_exists.1 hsome
    exact ⟨_, habove v hjoin⟩
  · obtain ⟨v, hjoin, -⟩ := hbound c hac hbc
    rw [hjoin]
    rfl
  · obtain ⟨v, hjoin, rfl⟩ := Option.map_eq_some_iff.1 hr
    refine ⟨(habove v hjoin).1, (habove v hjoin).2, fun c hac hbc => ?_⟩
    obtain ⟨w, hjoin', hle⟩ := hbound c hac hbc
    cases hjoin.symm.trans hjoin'
    exact hle

/-- A wide scalar behind a synonym meets a vector of a narrow kind. -/
theorem combine?_join_synonym :
    let wide : Ty := .synonym "Real" (.scalar .double)
    let point : Ty := .synonym "Point" (.vector .half 3)
    wide.isNumeric = true ∧ point.isNumeric = true ∧
      wide.combine? point true = some (.vector .double 3) ∧
      (∀ t, wide ≤ t → point ≤ t → Ty.vector .double 3 ≤ t) ∧
      ¬∃ t, Ty.vector .float 2 ≤ t ∧ Ty.vector .float 3 ≤ t := by
  intro wide point
  have hcombine : wide.combine? point true = some (.vector .double 3) := by decide
  have hnone : (Ty.vector .float 2).combine? (.vector .float 3) true = none := by decide
  refine ⟨rfl, rfl, hcombine, ((combine?_join rfl rfl).2 _ hcombine).2.2, ?_⟩
  rw [← (combine?_join rfl rfl).1, hnone]
  exact nofun

end Ty
end ShaderFront
