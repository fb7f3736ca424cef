import ShaderFront.Proofs.Cache.Library
import ShaderFront.Proofs.Tool.Overrides

/-!
# Overrides in cache files

An override gives a value of the kind of its key. If that is no fraction, any library that does what
it documents reads it back from a cache file as it was. Infinity can be typed, and is written without
a number, which is not taken for a fraction when it is read. Of a finite fraction the cache file has
what the library makes of it: it is read back just if the library reads back the fraction alone.
-/

namespace ShaderFront

theorem ParamValue.same_self {v : ParamValue} (h : v.kind? ≠ some .float) : v.same v = true := by
  cases v with
  | float x => exact absurd rfl h
  | unset | bool | int | uint | string | mixin => exact beq_self_eq_true _

namespace Cache

/-- What is read back of a value equals it. -/
def Library.Keeps (lib : Library) (v : ParamValue) : Prop :=
  ∃ w, lib.value.read? (lib.value.write v) = some w ∧ v.same w = true

/-- What is read back of a fraction alone equals it. -/
def Library.KeepsFraction (lib : Library) (x : Binary64) : Prop :=
  ∃ y, lib.float.read? (lib.float.write x) = some y ∧ x.same y = true

variable {lib : Library}

theorem Library.Documented.keeps_of_kind (h : lib.Documented) {v : ParamValue}
    (hv : v.kind? ≠ some .float) : lib.Keeps v :=
  ⟨v, h.recovers hv, v.same_self hv⟩

/-- A fraction is kept as it is kept alone, which it is not if it is not finite. -/
theorem Library.Documented.keeps_float_iff (h : lib.Documented) (x : Binary64) :
    lib.Keeps (.float x) ↔ x.isFinite = true ∧ lib.KeepsFraction x := by
  constructor
  · rintro ⟨w, hread, hsame⟩
    have hfinite : x.isFinite = true := by
      by_contra hunfinite
      rw [h.refuses (Bool.eq_false_of_not_eq_true hunfinite)] at hread
      cases hread
    rw [h.floats.read_written] at hread
    obtain ⟨y, hy, rfl⟩ := Option.map_eq_some_iff.1 hread
    exact ⟨hfinite, y, hy, hsame⟩
  · rintro ⟨-, y, hy, hsame⟩
    refine ⟨.float y, ?_, hsame⟩
    rw [h.floats.read_written, hy, Option.map_some]

/-- **Which overrides are read back.** Those of all kinds but fractions are, and of the fractions
those that are finite and that the library reads back alone. What is not finite is refused. -/
theorem overrides_cached (documented : lib.Documented) {kind : ParamKind} {text : String}
    {v : ParamValue} (h : kind.parse? text = some v) :
    (lib.Keeps v ↔ ∀ x, v = .float x → x.isFinite = true ∧ lib.KeepsFraction x) ∧
      (kind ≠ .float → lib.Keeps v) ∧
      ∀ x, v = .float x → x.isFinite = false → lib.value.read? (lib.value.write v) = none := by
  have hkind := ParamKind.kind?_of_parse? h
  refine ⟨?_, fun hne => ?_, ?_⟩
  · constructor
    · rintro hkeeps x rfl
      exact (documented.keeps_float_iff x).1 hkeeps
    · intro hfractions
      cases v with
      | float x => exact (documented.keeps_float_iff x).2 (hfractions x rfl)
      | unset | bool | int | uint | string | mixin => exact documented.keeps_of_kind nofun
  · refine documented.keeps_of_kind fun hfloat => hne ?_
    rw [hkind] at hfloat
    exact Option.some.inj hfloat
  · rintro x rfl hunfinite
    exact documented.refuses hunfinite

/-- A quarter is read back by the library in use, and infinity is not. -/
theorem overrides_cached_quarter :
    library.Documented ∧
      (ParamKind.float.parse? " 2.5e-1" = some (.float ⟨0x3FD0000000000000⟩) ∧
        library.Keeps (.float ⟨0x3FD0000000000000⟩)) ∧
      ParamKind.float.parse? "-Infinity" = some (.float ⟨0xFFF0000000000000⟩) ∧
        library.value.read? (library.value.write (.float ⟨0xFFF0000000000000⟩)) = none := by
  have hquarter : ParamKind.float.parse? " 2.5e-1" = some (.float ⟨0x3FD0000000000000⟩) := by
    decide +kernel
  have hinfinite : ParamKind.float.parse? "-Infinity" = some (.float ⟨0xFFF0000000000000⟩) := by
    decide +kernel
  have hkept : library.KeepsFraction ⟨0x3FD0000000000000⟩ := by
    refine ⟨⟨0x3FD0000000000000⟩, ?_, by decide⟩
    decide +kernel
  refine ⟨library_documented, ⟨hquarter, ?_⟩, hinfinite, ?_⟩
  · refine (overrides_cached library_documented hquarter).1.2 ?_
    rintro _ ⟨⟩
    exact ⟨by decide, hkept⟩
  · exact (overrides_cached library_documented hinfinite).2.2 _ rfl (by decide)

/-- No library that does what it documents reads back all overrides: `inf` is an override, and
infinity is not read back. -/
theorem override_lost :
    ParamKind.float.parse? "inf" = some (.float Binary64.infinity) ∧
      Binary64.infinity.isNaN = false ∧
      ¬∃ lib : Library, lib.Documented ∧ ∀ (kind : ParamKind) (text : String) (v : ParamValue),
        kind.parse? text = some v → (∀ x, v = .float x → x.isNaN = false) → lib.Keeps v := by
  have hparse : ParamKind.float.parse? "inf" = some (.float Binary64.infinity) := by
    decide +kernel
  refine ⟨hparse, by decide, ?_⟩
  rintro ⟨lib, documented, hkeeps⟩
  have hnumber : ∀ x, ParamValue.float .infinity = .float x → x.isNaN = false := by
    rintro _ ⟨⟩
    decide
  have hkept := hkeeps _ _ _ hparse hnumber
  have hfinite := ((documented.keeps_float_iff _).1 hkept).1
  exact absurd hfinite (by decide)

end Cache
end ShaderFront
