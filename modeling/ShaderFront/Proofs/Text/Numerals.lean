import Mathlib.Algebra.Group.Nat.Defs
import Mathlib.Data.List.Induction
import ShaderFront.Text.Numeral

/-!
# What numerals denote

The grammar of whole numbers, digit by digit from the left (`Denotes`), with a plus sign or not
(`DenotesNat`) and with a minus sign or not (`DenotesInt`). A reader accepts exactly the texts of
the grammar whose value its type holds, and the decimal digits of a number denote it.
-/

namespace ShaderFront.Text

theorem digitsValue_snoc (cs : List Char) (c : Char) :
    digitsValue (cs ++ [c]) = 10 * digitsValue cs + (c.toNat - 48) := by
  simp [digitsValue]

theorem digitsValue_replicate_zero (zeros : Nat) : digitsValue (List.replicate zeros '0') = 0 := by
  induction zeros with
  | zero => rfl
  | succ zeros ih =>
    rw [List.replicate_succ', digitsValue_snoc, ih]
    rfl

/-- Zeros in front of digits do not count. -/
theorem digitsValue_zeros_append (zeros : Nat) (cs : List Char) :
    digitsValue (List.replicate zeros '0' ++ cs) = digitsValue cs := by
  induction zeros with
  | zero => rfl
  | succ zeros ih =>
    rw [← ih, List.replicate_succ, List.cons_append]
    simp [digitsValue]

/-- Zeros after digits are a power of ten. -/
theorem digitsValue_append_zeros (cs : List Char) (zeros : Nat) :
    digitsValue (cs ++ List.replicate zeros '0') = digitsValue cs * 10 ^ zeros := by
  induction zeros with
  | zero => simp
  | succ zeros ih =>
    rw [List.replicate_succ', ← List.append_assoc, digitsValue_snoc, ih, Nat.pow_succ]
    exact (Nat.mul_comm _ _).trans (Nat.mul_assoc _ _ _)

theorem isDigit_zeros (zeros : Nat) : ∀ c ∈ List.replicate zeros '0', c.isDigit = true :=
  fun _ hc => List.eq_of_mem_replicate hc ▸ rfl

/-- A digit is the digit of its value. -/
theorem eq_digitChar {c : Char} (h : c.isDigit = true) :
    c.toNat - 48 < 10 ∧ c = (c.toNat - 48).digitChar := by
  obtain ⟨hlow, hhigh⟩ : 48 ≤ c.toNat ∧ c.toNat ≤ 57 := Char.isDigit_iff_toNat.1 h
  have hten : c.toNat - 48 < 10 := by omega
  refine ⟨hten, Char.toNat_inj.1 ?_⟩
  rw [Nat.toNat_digitChar_of_lt_ten hten]
  omega

theorem isDigit_digitChar {d : Nat} (h : d < 10) : d.digitChar.isDigit = true := by
  rw [Nat.isDigit_digitChar, decide_eq_true h]

/-! ## Digits -/

/-- One or more digits denote a number. -/
inductive Denotes : List Char → Nat → Prop where
  | digit {d : Nat} (low : d < 10) : Denotes [d.digitChar] d
  | snoc {cs : List Char} {n d : Nat} (before : Denotes cs n) (low : d < 10) :
      Denotes (cs ++ [d.digitChar]) (10 * n + d)

variable {cs : List Char} {n : Nat} {i : Int} {s : String}

theorem Denotes.ne_nil (h : Denotes cs n) : cs ≠ [] := by
  cases h <;> simp

theorem Denotes.isDigit (h : Denotes cs n) : ∀ c ∈ cs, c.isDigit = true := by
  induction h with
  | digit low => exact List.forall_mem_singleton.2 (isDigit_digitChar low)
  | snoc _ low ih =>
    exact List.forall_mem_append.2 ⟨ih, List.forall_mem_singleton.2 (isDigit_digitChar low)⟩

theorem Denotes.digitsValue (h : Denotes cs n) : digitsValue cs = n := by
  induction h with
  | digit low => simp [Text.digitsValue, Nat.toNat_digitChar_of_lt_ten low]
  | snoc _ low ih =>
    rw [digitsValue_snoc, ih, Nat.toNat_digitChar_of_lt_ten low, Nat.add_sub_cancel_left]

theorem denotes_digits (hne : cs ≠ []) (h : ∀ c ∈ cs, c.isDigit = true) :
    Denotes cs (digitsValue cs) := by
  induction cs using List.reverseRecOn with
  | nil => exact absurd rfl hne
  | append_singleton cs c ih =>
    obtain ⟨hbefore, hlast⟩ := List.forall_mem_append.1 h
    obtain ⟨hlow, hc⟩ := eq_digitChar (hlast c (List.mem_singleton_self c))
    rw [digitsValue_snoc, hc, Nat.toNat_digitChar_of_lt_ten hlow, Nat.add_sub_cancel_left]
    by_cases hcs : cs = []
    · subst hcs
      exact Nat.zero_add _ ▸ .digit hlow
    · exact .snoc (ih hcs hbefore) hlow

/-- **Digits are read as what they denote, and nothing else is read.** -/
theorem readDigits?_iff_denotes : readDigits? cs = some n ↔ Denotes cs n := by
  rw [readDigits?_eq_some_iff, List.all_eq_true]
  constructor
  · rintro ⟨hne, hdigits, rfl⟩
    exact denotes_digits hne hdigits
  · exact fun h => ⟨h.ne_nil, h.isDigit, h.digitsValue⟩

theorem isDigit_toDigits (n : Nat) : ∀ c ∈ Nat.toDigits 10 n, c.isDigit = true :=
  fun _ => Nat.isDigit_of_mem_toDigits (by decide) (by decide)

theorem digitsValue_toDigits (n : Nat) : digitsValue (Nat.toDigits 10 n) = n :=
  Nat.ofDigitChars_ten_toDigits

/-- The digits of a number denote it. -/
theorem denotes_toDigits (n : Nat) : Denotes (Nat.toDigits 10 n) n := by
  have h := denotes_digits (Nat.toDigits_ne_nil (n := n) (b := 10)) (isDigit_toDigits n)
  rwa [digitsValue_toDigits] at h

/-! ## Signs -/

/-- Digits after an optional plus sign. -/
inductive DenotesNat : List Char → Nat → Prop where
  | plain {cs : List Char} {n : Nat} (digits : Denotes cs n) : DenotesNat cs n
  | plus {cs : List Char} {n : Nat} (digits : Denotes cs n) : DenotesNat ('+' :: cs) n

/-- Digits after an optional sign. -/
inductive DenotesInt : List Char → Int → Prop where
  | unsigned {cs : List Char} {n : Nat} (numeral : DenotesNat cs n) : DenotesInt cs n
  | minus {cs : List Char} {n : Nat} (digits : Denotes cs n) : DenotesInt ('-' :: cs) (-n)

/-- No digits start with a sign. -/
theorem Denotes.head_ne {c : Char} (h : Denotes (c :: cs) n) (sign : Char)
    (hsign : sign.isDigit = false) : c ≠ sign := by
  rintro rfl
  cases (h.isDigit c List.mem_cons_self).symm.trans hsign

theorem DenotesNat.head_ne {c : Char} (h : DenotesNat (c :: cs) n) : c ≠ '-' := by
  cases h with
  | plain digits => exact digits.head_ne '-' rfl
  | plus => decide

theorem readUnsigned?_iff_denotes : readUnsigned? cs = some n ↔ DenotesNat cs n := by
  constructor
  · intro h
    unfold readUnsigned? at h
    split at h
    · exact .plus (readDigits?_iff_denotes.1 h)
    · exact .plain (readDigits?_iff_denotes.1 h)
  · intro h
    cases h with
    | plus digits => exact readDigits?_iff_denotes.2 digits
    | plain digits =>
      unfold readUnsigned?
      split
      · exact absurd rfl (digits.head_ne '+' rfl)
      · exact readDigits?_iff_denotes.2 digits

theorem readSigned?_iff_denotes : readSigned? cs = some i ↔ DenotesInt cs i := by
  constructor
  · intro h
    unfold readSigned? at h
    split at h
    · obtain ⟨_, hn, rfl⟩ := Option.map_eq_some_iff.1 h
      obtain ⟨n, hread, heq⟩ := Option.bind_eq_some_iff.1 hn
      cases heq
      exact .minus (readDigits?_iff_denotes.1 hread)
    · obtain ⟨_, hn, rfl⟩ := Option.map_eq_some_iff.1 h
      obtain ⟨n, hread, heq⟩ := Option.bind_eq_some_iff.1 hn
      cases heq
      exact .unsigned (readUnsigned?_iff_denotes.1 hread)
  · intro h
    cases h with
    | minus digits => simp [readSigned?, readDigits?_iff_denotes.2 digits]
    | unsigned numeral =>
      unfold readSigned?
      split
      · exact absurd rfl numeral.head_ne
      · simp [readUnsigned?_iff_denotes.2 numeral]

/-! ## The range of a type -/

/-- **Unsigned numerals** are read if they denote a number of the type. -/
theorem readUInt64?_iff_denotes {n : UInt64} :
    readUInt64? s = some n ↔ DenotesNat s.toList n.toNat := by
  rw [readUInt64?, readBelow?, Option.map_eq_some_iff]
  constructor
  · rintro ⟨m, hm, rfl⟩
    obtain ⟨hread, hlt⟩ := Option.filter_eq_some_iff.1 hm
    rw [UInt64.toNat_ofNat_of_lt' (of_decide_eq_true hlt)]
    exact readUnsigned?_iff_denotes.1 hread
  · intro h
    refine ⟨n.toNat, Option.filter_eq_some_iff.2 ⟨readUnsigned?_iff_denotes.2 h, ?_⟩,
      UInt64.ofNat_toNat⟩
    exact decide_eq_true n.toNat_lt

/-- **Signed numerals** are read if they denote a number of the type. -/
theorem readInt64?_iff_denotes {n : Int64} :
    readInt64? s = some n ↔ DenotesInt s.toList n.toInt := by
  rw [readInt64?, Option.map_eq_some_iff]
  constructor
  · rintro ⟨m, hm, rfl⟩
    obtain ⟨hread, hrange⟩ := Option.filter_eq_some_iff.1 hm
    simp only [Bool.and_eq_true, decide_eq_true_eq] at hrange
    rw [Int64.toInt_ofInt_of_le hrange.1 (Int.lt_of_le_of_lt hrange.2 (by decide))]
    exact readSigned?_iff_denotes.1 hread
  · intro h
    refine ⟨n.toInt, Option.filter_eq_some_iff.2 ⟨readSigned?_iff_denotes.2 h, ?_⟩,
      Int64.ofInt_toInt n⟩
    simp only [Bool.and_eq_true, decide_eq_true_eq]
    exact ⟨n.minValue_le_toInt, Int.le_of_lt_add_one n.toInt_lt⟩

theorem toList_negSucc (n : Nat) :
    (toString (Int.negSucc n)).toList = '-' :: Nat.toDigits 10 (n + 1) := by
  rw [← Nat.toList_repr]
  exact String.toList_append ..

/-- The text of a number denotes it. -/
theorem denotesInt_toString (i : Int) : DenotesInt (toString i).toList i := by
  cases i with
  | ofNat n =>
    have h : (toString (n : Int)).toList = Nat.toDigits 10 n := Nat.toList_repr
    exact .unsigned (.plain (h ▸ denotes_toDigits n))
  | negSucc n =>
    rw [toList_negSucc]
    exact .minus (denotes_toDigits (n + 1))

end ShaderFront.Text
