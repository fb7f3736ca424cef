import ShaderFront.Proofs.Binary64.Shortest
import ShaderFront.Proofs.Json.NumberLexemes

/-!
# Fractions in cache files

A finite fraction is written with the digits of its shortest decimal, laid out with a point or with
a power of ten. Since the digits of a number other than zero do not start with a zero, either way a
number lexeme comes of them.
-/

namespace ShaderFront.Cache

open Json Binary64

/-- A lexeme without a sign has these characters. -/
def Unsigned (body : List Char) : Prop :=
  ∃ l : Lexeme, l.Formed ∧ l.negative = false ∧ l.chars = body

/-- A point in front of all digits. -/
theorem unsigned_point_before (n : Nat) {point : Int} (h : point ≤ 0) :
    Unsigned (positional (Nat.toDigits 10 n) point) := by
  refine ⟨⟨false, ['0'], some (List.replicate (-point).toNat '0' ++ Nat.toDigits 10 n), none⟩,
    ⟨digits_zero, fun _ => rfl, ?_, nofun⟩, rfl, ?_⟩
  · rintro _ ⟨⟩
    exact ⟨by simp [Nat.toDigits_ne_nil],
      List.forall_mem_append.2 ⟨Text.isDigit_zeros _, Text.isDigit_toDigits n⟩⟩
  · simp [Lexeme.chars, Lexeme.placesChars, Lexeme.powerChars, positional, h]

section

variable {n : Nat} (hn : n ≠ 0)

include hn

theorem head?_digits_append (more : List Char) :
    (Nat.toDigits 10 n ++ more).head? ≠ some '0' := by
  obtain ⟨c, cs, heq, -⟩ := (digits_toDigits n).eq_cons
  have hfirst := head?_toDigits hn
  rw [heq] at hfirst ⊢
  exact hfirst

/-- Zeros after all digits, and one after the point. -/
theorem unsigned_zeros_after {point : Nat} (h : (Nat.toDigits 10 n).length ≤ point) :
    Unsigned (positional (Nat.toDigits 10 n) point) := by
  have hlength : 0 < (Nat.toDigits 10 n).length := List.length_pos_iff.2 Nat.toDigits_ne_nil
  have hzeros := Text.isDigit_zeros (point - (Nat.toDigits 10 n).length)
  refine ⟨⟨false, Nat.toDigits 10 n ++ List.replicate (point - (Nat.toDigits 10 n).length) '0',
      some ['0'], none⟩,
    ⟨⟨by simp [Nat.toDigits_ne_nil], ?_⟩, ?_, ?_, nofun⟩, rfl, ?_⟩
  · exact List.forall_mem_append.2 ⟨Text.isDigit_toDigits n, hzeros⟩
  · exact fun hzero => absurd hzero (head?_digits_append hn _)
  · rintro _ ⟨⟩
    exact digits_zero
  · have hpoint : point ≠ 0 := by omega
    simp [Lexeme.chars, Lexeme.placesChars, Lexeme.powerChars, positional, hpoint, h]

/-- A point between the digits. -/
theorem unsigned_point_within {point : Nat} (hpos : 0 < point)
    (h : point < (Nat.toDigits 10 n).length) :
    Unsigned (positional (Nat.toDigits 10 n) point) := by
  have hdigit := Text.isDigit_toDigits n
  refine ⟨⟨false, (Nat.toDigits 10 n).take point, some ((Nat.toDigits 10 n).drop point), none⟩,
    ⟨⟨?_, fun c hc => hdigit c (List.mem_of_mem_take hc)⟩, ?_, ?_, nofun⟩, rfl, ?_⟩
  · rw [← List.length_pos_iff, List.length_take]
    omega
  · intro hzero
    rw [List.head?_take, if_neg (by omega)] at hzero
    exact absurd hzero (head?_toDigits hn)
  · rintro _ ⟨⟩
    exact ⟨by simpa using h, fun c hc => hdigit c (List.mem_of_mem_drop hc)⟩
  · simp [Lexeme.chars, Lexeme.placesChars, Lexeme.powerChars, positional, hpos.ne', Nat.not_le.2 h]

theorem unsigned_positional (point : Int) : Unsigned (positional (Nat.toDigits 10 n) point) := by
  rcases le_or_gt point 0 with hbefore | hafter
  · exact unsigned_point_before n hbefore
  · obtain ⟨k, rfl⟩ := Int.eq_ofNat_of_zero_le hafter.le
    rcases le_or_gt (Nat.toDigits 10 n).length k with hzeros | hwithin
    · exact unsigned_zeros_after hn hzeros
    · exact unsigned_point_within hn (by omega) hwithin

end

/-- The parts of an exponent. -/
def powerOf (order : Int) : Bool × List Char := (order < 0, Nat.toDigits 10 order.natAbs)

/-- An exponent is written with either sign. -/
theorem powerChars_powerOf (order : Int) : Lexeme.powerChars (some (powerOf order)) =
    'e' :: ((if true && decide (0 ≤ order) then ['+'] else []) ++ (toString order).toList) := by
  cases order with
  | ofNat k =>
    have hsign : ¬Int.ofNat k < 0 := Int.not_lt.2 (Int.natCast_nonneg k)
    have hsign' : 0 ≤ Int.ofNat k := Int.natCast_nonneg k
    simp only [Lexeme.powerChars, powerOf, hsign, hsign', decide_true, decide_false, Bool.and_self,
      Bool.false_eq_true, if_true, if_false]
    exact congrArg ('e' :: '+' :: ·) Nat.toList_repr.symm
  | negSucc k =>
    have hsign : Int.negSucc k < 0 := Int.negSucc_lt_zero k
    have hsign' : ¬0 ≤ Int.negSucc k := Int.not_le.2 hsign
    simp only [Lexeme.powerChars, powerOf, hsign, hsign', decide_true, decide_false, Bool.and_false,
      Bool.false_eq_true, if_true, if_false, Text.toList_negSucc]
    rfl

/-- One digit before the point, and a power of ten. -/
theorem unsigned_scientific (n : Nat) (order : Int) :
    Unsigned (scientific true (Nat.toDigits 10 n) order) := by
  have hpower : ∀ power ∈ some (powerOf order), Digits power.2 := by
    rintro _ ⟨⟩
    exact digits_toDigits _
  obtain ⟨c, cs, heq, hdigit, -⟩ := (digits_toDigits n).eq_cons
  have hfirst : Digits [c] := ⟨List.cons_ne_nil _ _, List.forall_mem_singleton.2 hdigit⟩
  have hmore : ∀ d ∈ cs, d.isDigit = true := fun d hd =>
    Text.isDigit_toDigits n d (by rw [heq]; exact List.mem_cons_of_mem c hd)
  rw [heq]
  cases cs with
  | nil =>
    refine ⟨⟨false, [c], none, some (powerOf order)⟩, ⟨hfirst, fun _ => rfl, nofun, hpower⟩, rfl,
      ?_⟩
    rw [Lexeme.chars, powerChars_powerOf]
    simp [Lexeme.placesChars, scientific]
  | cons d cs =>
    refine ⟨⟨false, [c], some (d :: cs), some (powerOf order)⟩,
      ⟨hfirst, fun _ => rfl, ?_, hpower⟩, rfl, ?_⟩
    · rintro _ ⟨⟩
      exact ⟨List.cons_ne_nil _ _, hmore⟩
    · rw [Lexeme.chars, powerChars_powerOf]
      simp [Lexeme.placesChars, scientific]

variable {x : Binary64}

/-- Some digit of a number other than zero is not zero. -/
theorem digits_shortest_ne_zero (hfinite : x.isFinite = true) (hzero : x.isZero = false)
    (tie : Tie) : (shortest tie x).digits ≠ 0 := by
  intro hnone
  have hpos := (shortest_stands hfinite hzero tie).rounds.pos hzero
  rw [Decimal.value, hnone, Nat.cast_zero, zero_mul] at hpos
  exact absurd hpos (lt_irrefl 0)

/-- **The text of a finite number is a number lexeme.** -/
theorem exists_lexeme (hfinite : x.isFinite = true) :
    ∃ l : Lexeme, l.Formed ∧ l.chars = (Layout.cache.text x).toList := by
  obtain ⟨body, htext, l, hformed, hunsigned, hchars⟩ : ∃ body,
      (Layout.cache.text x).toList = (if x.negative then '-' :: body else body) ∧
        Unsigned body := by
    rw [Layout.text, String.toList_ofList]
    refine ⟨_, rfl, ?_⟩
    by_cases hzero : x.isZero = true
    · rw [if_pos hzero]
      exact ⟨⟨false, ['0'], some ['0'], none⟩, ⟨digits_zero, fun _ => rfl,
        by rintro _ ⟨⟩; exact digits_zero, nofun⟩, rfl, rfl⟩
    · have hdigits : (toString (shortest Layout.cache.tie x).digits).toList =
          Nat.toDigits 10 (shortest Layout.cache.tie x).digits := Nat.toList_repr
      have hn := digits_shortest_ne_zero hfinite (Bool.eq_false_of_not_eq_true hzero)
        Layout.cache.tie
      rw [if_neg hzero]
      simp only [hdigits]
      split
      · exact unsigned_positional hn _
      · exact unsigned_scientific _ _
  refine ⟨{ l with negative := x.negative }, ⟨hformed.whole, hformed.leading, hformed.places,
    hformed.power⟩, ?_⟩
  rw [Lexeme.chars, hunsigned] at hchars
  rw [htext, ← hchars, Lexeme.chars]
  cases x.negative <;> rfl

end ShaderFront.Cache
