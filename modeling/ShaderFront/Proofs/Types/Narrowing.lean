import ShaderFront.Analysis.Typing
import ShaderFront.Proofs.Types.Spelling
import ShaderFront.Proofs.Types.StoreOrder

/-!
# When a store narrows

Storing a value is a matter of its shape and its kind: what fills the shape of the target is
converted component by component, and a vector may be cut down to a shorter one or to a scalar. A
store that narrows loses precision or components. There is one exception: a vector that has a single
component counts as cut when it is stored in a scalar, where nothing of it is lost.
-/

namespace ShaderFront

namespace Shape

/-- The number of components. -/
def size : Shape → Nat
  | .scalar => 1
  | .vector n => n.toNat
  | .matrix r c => r.toNat * c.toNat

/-- A vector is cut down to a shorter one, or to its first component. -/
def Cuts : Shape → Shape → Prop
  | .vector n, .vector m => m < n
  | .vector _, .scalar => True
  | _, _ => False

def dimensions : Shape → List UInt8
  | .scalar => []
  | .vector n => [n]
  | .matrix r c => [r, c]

/-- All dimensions are in range. -/
def Dimensioned (s : Shape) : Prop := ∀ n ∈ s.dimensions, Ty.Dimension n

variable {s t : Shape} {j k : ScalarKind}

@[simp] theorem componentCount_withKind (s : Shape) (k : ScalarKind) :
    (s.withKind k).componentCount = s.size := by
  cases s <;> rfl

/-- A shape has at least one component. -/
theorem Dimensioned.one_le_size (h : s.Dimensioned) : 1 ≤ s.size := by
  cases s with
  | scalar => exact Nat.le_refl 1
  | vector n => exact (h n List.mem_cons_self).1
  | matrix r c =>
    exact Nat.mul_le_mul (h r List.mem_cons_self).1 (h c (List.mem_cons_of_mem _ (.head _))).1

/-- What fills a shape has no more components than the shape. -/
theorem Fills.size_le (h : s.Fills t) (ht : t.Dimensioned) : s.size ≤ t.size := by
  rcases h with rfl | rfl
  · exact ht.one_le_size
  · exact Nat.le_refl _

theorem Cuts.ne (h : s.Cuts t) : s ≠ t := by
  rintro rfl
  cases s with
  | vector n => exact UInt8.lt_irrefl n h
  | scalar | matrix => exact h

/-- A shape that fills another one is not cut to it. -/
theorem Fills.not_cuts (h : s.Fills t) : ¬s.Cuts t := by
  rcases h with rfl | rfl
  · exact id
  · exact fun cuts => cuts.ne rfl

/-- What is cut has more components than what is left, or a single one. -/
theorem Cuts.size_lt (h : s.Cuts t) (hs : s.Dimensioned) :
    t.size < s.size ∨ (s.size = 1 ∧ t = .scalar) := by
  cases s with
  | vector n =>
    cases t with
    | vector m => exact .inl h
    | scalar =>
      rcases Nat.lt_or_eq_of_le hs.one_le_size with h | h
      · exact .inl h
      · exact .inr ⟨h.symm, rfl⟩
    | matrix => exact h.elim
  | scalar | matrix => exact h.elim

end Shape

namespace Ty

def dimensions (ty : Ty) : List UInt8 :=
  match ty.resolve with
  | .vector _ n => [n]
  | .matrix _ r c => [r, c]
  | _ => []

/-- All dimensions are in range. -/
def Dimensioned (ty : Ty) : Prop := ∀ n ∈ ty.dimensions, Dimension n

instance (ty : Ty) : Decidable ty.Dimensioned :=
  List.decidableBAll Dimension ty.dimensions

/-- The element kind of the value narrows to that of the target. -/
def kindNarrows (value target : Ty) : Bool :=
  value.element?.any fun j => target.element?.any j.narrowsTo

/-- Precision or components are lost on the way from a value to a target. -/
def Loses (value target : Ty) : Prop :=
  value.kindNarrows target = true ∨ target.componentCount < value.componentCount

/-- A vector that has a single component is taken as a scalar. -/
def Unwraps (value target : Ty) : Prop :=
  value.isVector = true ∧ value.componentCount = 1 ∧ target.isScalar = true

instance (value target : Ty) : Decidable (value.Loses target) :=
  inferInstanceAs (Decidable (_ ∨ _))

instance (value target : Ty) : Decidable (value.Unwraps target) :=
  inferInstanceAs (Decidable (_ ∧ _ ∧ _))

variable {value target : Ty} {s t : Shape} {j k : ScalarKind}

theorem element?_resolve (ty : Ty) : ty.resolve.element? = ty.element? := by
  unfold element?
  rw [resolve_resolve]

theorem componentCount_resolve (ty : Ty) : ty.resolve.componentCount = ty.componentCount := by
  unfold componentCount
  rw [resolve_resolve]

theorem dimensioned_withKind (h : value.resolve = s.withKind j) :
    value.Dimensioned ↔ s.Dimensioned := by
  unfold Dimensioned dimensions
  rw [h]
  cases s <;> exact .rfl

/-- Something is lost if the elements narrow or there are fewer of them. -/
theorem loses_withKind (hv : value.resolve = s.withKind j) (ht : target.resolve = t.withKind k) :
    value.Loses target ↔ j.narrowsTo k = true ∨ t.size < s.size := by
  rw [Loses, kindNarrows, ← element?_resolve value, ← element?_resolve target,
    ← componentCount_resolve value, ← componentCount_resolve target, hv, ht]
  simp

theorem unwraps_withKind (hv : value.resolve = s.withKind j) (ht : target.resolve = t.withKind k) :
    value.Unwraps target ↔ s.Cuts t ∧ s.size = 1 ∧ t = .scalar := by
  rw [Unwraps, isVector, isScalar, ← componentCount_resolve value, hv, ht]
  cases s <;> cases t <;> simp [Shape.withKind, Shape.Cuts, componentCount, Shape.size, resolve]

/-- Between types that are the same behind their synonyms nothing is lost. -/
theorem not_loses_of_resolve_eq (h : value.resolve = target.resolve) : ¬value.Loses target := by
  rw [Loses, kindNarrows, ← element?_resolve value, ← componentCount_resolve value, h,
    element?_resolve, componentCount_resolve]
  cases target.element? <;> simp [ScalarKind.narrowsTo]

/-- No type is unwrapped into itself. -/
theorem not_unwraps_of_resolve_eq (h : value.resolve = target.resolve) :
    ¬value.Unwraps target := by
  rintro ⟨hvector, -, hscalar⟩
  unfold isVector at hvector
  unfold isScalar at hscalar
  rw [h] at hvector
  cases ht : target.resolve <;> simp_all

end Ty

namespace Conversion

open Ty

variable {value target : Ty} {c : Conversion}

theorem ofKinds_eq_narrow {j k : ScalarKind} : ofKinds j k = .narrow ↔ j.narrowsTo k = true := by
  simp [ofKinds]

/-- The ways in which a value can be stored. -/
inductive Goes (value target : Ty) : Conversion → Prop where
  | same (same : value.resolve = target.resolve) : Goes value target .same
  | fill {s t : Shape} {j k : ScalarKind} (source : value.resolve = s.withKind j)
      (place : target.resolve = t.withKind k) (differ : value.resolve ≠ target.resolve)
      (fills : s.Fills t) : Goes value target (ofKinds j k)
  | cut {s t : Shape} {j k : ScalarKind} (source : value.resolve = s.withKind j)
      (place : target.resolve = t.withKind k) (cuts : s.Cuts t) : Goes value target .narrow

/-- **How a store goes.** -/
theorem goes_of_ofStore? (h : ofStore? value target = some c) : Goes value target c := by
  by_cases differ : value.resolve = target.resolve
  · rw [ofStore?, if_pos differ] at h
    exact Option.some.inj h ▸ .same differ
  obtain ⟨hvalue, htarget⟩ := (ofStore?_cases h).resolve_left differ
  obtain ⟨s, j, hv⟩ := exists_withKind hvalue
  obtain ⟨t, k, ht⟩ := exists_withKind htarget
  rw [ofStore?, if_neg differ, hv, ht] at h
  cases s <;> cases t
  case scalar.scalar | scalar.vector | scalar.matrix =>
    exact Option.some.inj h ▸ .fill hv ht differ (.inl rfl)
  case vector.vector n m =>
    dsimp only [Shape.withKind] at h
    split at h
    · rename_i hlt
      exact Option.some.inj h ▸ .cut hv ht hlt
    · split at h
      · rename_i heq
        exact Option.some.inj h ▸ .fill hv ht differ (.inr (congrArg Shape.vector heq))
      · cases h
  case vector.scalar => exact Option.some.inj h ▸ .cut hv ht trivial
  case matrix.matrix =>
    dsimp only [Shape.withKind] at h
    split at h
    · rename_i heq
      exact Option.some.inj h ▸ .fill hv ht differ (.inr (congrArg₂ Shape.matrix heq.1 heq.2))
    · cases h
  case matrix.scalar | vector.matrix | matrix.vector => cases h

namespace Goes

/-- A store is plain if both types stand for one. -/
theorem same_iff (h : Goes value target c) : c = .same ↔ value.resolve = target.resolve := by
  cases h with
  | same same => exact iff_of_true rfl same
  | fill source place differ fills => exact iff_of_false (ofKinds_ne_same _ _) differ
  | cut source place cuts =>
    refine iff_of_false nofun fun heq => cuts.ne ?_
    rw [source, place] at heq
    exact (Shape.withKind_inj.1 heq).1

/-- A store that narrows loses something, or takes a vector that has a single component as a
scalar. -/
theorem narrow_iff (h : Goes value target c) (hv : value.Dimensioned) (ht : target.Dimensioned) :
    c = .narrow ↔ value.Loses target ∨ value.Unwraps target := by
  cases h with
  | same same =>
    exact iff_of_false nofun
      (not_or.2 ⟨not_loses_of_resolve_eq same, not_unwraps_of_resolve_eq same⟩)
  | fill source place differ fills =>
    rw [dimensioned_withKind place] at ht
    rw [loses_withKind source place, unwraps_withKind source place, ofKinds_eq_narrow]
    have hsize := Nat.not_lt_of_le (fills.size_le ht)
    simp [hsize, fills.not_cuts]
  | cut source place cuts =>
    refine iff_of_true rfl ?_
    rw [dimensioned_withKind source] at hv
    rw [loses_withKind source place, unwraps_withKind source place]
    rcases cuts.size_lt hv with hlt | ⟨hone, hscalar⟩
    · exact .inl (.inr hlt)
    · exact .inr ⟨cuts, hone, hscalar⟩

end Goes

/-- A truncation is reported where a store narrows, if truncations are reported at all. -/
theorem truncation_iff (r : Rules) (span : Span) (value target : Ty) :
    (∃ f ∈ (r.store span value target).findings, f.problem.code = .w2001) ↔
      r.warnOnTruncation = true ∧ ofStore? value target = some .narrow := by
  unfold Rules.store
  cases ofStore? value target with
  | none => simp [Reported.find, Problem.code]
  | some c =>
    cases c with
    | same | widen => simp
    | narrow => by_cases h : r.warnOnTruncation = true <;> simp [h, Reported.find, Problem.code]

/-- **When a store narrows.** A value that can be stored goes as it is exactly if the types are the
same behind their synonyms, it narrows exactly if it loses precision or components or is a vector
that has a single component and is taken as a scalar, and else it widens. So a truncation is reported
nowhere else. -/
theorem narrowing_loses {value target : Ty} (hv : value.Dimensioned) (ht : target.Dimensioned) :
    (∀ c, ofStore? value target = some c →
      (c = .same ↔ value.resolve = target.resolve) ∧
      (c = .narrow ↔ value.Loses target ∨ value.Unwraps target) ∧
      (c = .widen ↔
        value.resolve ≠ target.resolve ∧ ¬(value.Loses target ∨ value.Unwraps target))) ∧
    ∀ (r : Rules) (span : Span),
      (∃ f ∈ (r.store span value target).findings, f.problem.code = .w2001) ↔
        r.warnOnTruncation = true ∧ (ofStore? value target).isSome = true ∧
          (value.Loses target ∨ value.Unwraps target) := by
  refine ⟨fun c h => ?_, fun r span => ?_⟩
  · have hgoes := goes_of_ofStore? h
    have hsame := hgoes.same_iff
    have hnarrow := hgoes.narrow_iff hv ht
    refine ⟨hsame, hnarrow, ?_⟩
    rw [Ne, ← hsame, ← hnarrow]
    cases c <;> simp
  · rw [truncation_iff]
    cases h : ofStore? value target with
    | none => simp
    | some c => simp [(goes_of_ofStore? h).narrow_iff hv ht]

/-- A vector behind a synonym is cut to a shorter one, though of a wider kind. -/
theorem narrowing_loses_cut :
    let point : Ty := .synonym "Point" (.vector .half 3)
    let place : Ty := .vector .float 2
    point.Dimensioned ∧ place.Dimensioned ∧ ofStore? point place = some .narrow ∧
      point.Loses place ∧ ¬point.Unwraps place := by
  intro point place
  have hpoint : point.Dimensioned := by decide
  have hplace : place.Dimensioned := by decide
  have hstore : ofStore? point place = some .narrow := by decide
  have hunwraps : ¬point.Unwraps place := by decide
  have hloses := (((narrowing_loses hpoint hplace).1 _ hstore).2.1.1 rfl).resolve_right hunwraps
  exact ⟨hpoint, hplace, hstore, hloses, hunwraps⟩

/-- A vector that has a single component is reported as truncated where it is stored in a scalar of
its own kind, and nothing of it is lost. -/
theorem lone_component_narrows :
    let lone : Ty := .vector .float 1
    let place : Ty := .scalar .float
    lone.Dimensioned ∧ place.Dimensioned ∧ ofStore? lone place = some .narrow ∧
      ¬lone.Loses place ∧
      (Rules.store ⟨{}, true⟩ default lone place).findings =
        [⟨.truncation lone place, default⟩] := by
  decide

end Conversion
end ShaderFront
