import ShaderFront.Cache.Number
import ShaderFront.Json.Reader
import ShaderFront.Proofs.Text.Numerals

/-!
# Lexemes of numbers

A number lexeme is put together from a sign, the digits before the point, the places after it and a
power of ten. If all parts are rows of digits, and no zero leads the first in vain, the reader takes
the lexeme up to what no number goes on with, and splitting the lexeme gives its parts back. A whole
number has digits and perhaps a sign, and it is the value of its lexeme.
-/

namespace ShaderFront.Json

/-- One or more digits. -/
structure Digits (cs : List Char) : Prop where
  ne_nil : cs ≠ []
  isDigit : ∀ c ∈ cs, c.isDigit = true

/-- No number goes on with what is left. -/
def Delimited (rest : List Char) : Prop :=
  ∀ c ∈ rest.head?, c.isDigit = false ∧ c ≠ '.' ∧ c ≠ 'e' ∧ c ≠ 'E'

theorem delimited_nil : Delimited [] := by simp [Delimited]

variable {digits rest : List Char}

theorem digits_toDigits (n : Nat) : Digits (Nat.toDigits 10 n) :=
  ⟨Nat.toDigits_ne_nil, Text.isDigit_toDigits n⟩

theorem digits_zero : Digits ['0'] := digits_toDigits 0

/-- A row of digits starts with a digit, which is no sign. -/
theorem Digits.eq_cons (h : Digits digits) :
    ∃ c cs, digits = c :: cs ∧ c.isDigit = true ∧ c ≠ '-' := by
  obtain ⟨c, cs, rfl⟩ := List.exists_cons_of_ne_nil h.ne_nil
  have hdigit : c.isDigit = true := h.isDigit c List.mem_cons_self
  refine ⟨c, cs, rfl, hdigit, ?_⟩
  rintro rfl
  cases hdigit

theorem Digits.readDigits? (h : Digits digits) (ends : ∀ c ∈ rest.head?, c.isDigit = false) :
    Json.readDigits? (digits ++ rest) = some (digits, rest) := by
  obtain ⟨htake, hdrop⟩ := Text.parts_append digits rest h.isDigit ends
  rw [Json.readDigits?, htake, hdrop]
  simp [h.ne_nil]

/-- Only zero starts with a zero. -/
theorem head?_toDigits {n : Nat} (h : n ≠ 0) : (Nat.toDigits 10 n).head? ≠ some '0' := by
  induction n using Nat.strongRecOn with
  | ind n ih =>
    rw [Nat.toDigits_eq_if (by decide)]
    split
    · have hdigit : ∀ d < 10, d ≠ 0 → d.digitChar ≠ '0' := by decide
      simpa using hdigit n ‹_› h
    · obtain ⟨c, cs, heq, -⟩ := (digits_toDigits (n / 10)).eq_cons
      have hfirst := ih (n / 10) (by omega) (by omega)
      rwa [heq] at hfirst ⊢

end ShaderFront.Json

namespace ShaderFront.Cache.Lexeme

open Json

/-! ## Parts -/

/-- The places with the point before them. -/
def placesChars : Option (List Char) → List Char
  | none => []
  | some digits => '.' :: digits

/-- The power of ten with its mark and sign. -/
def powerChars : Option (Bool × List Char) → List Char
  | none => []
  | some (down, digits) => 'e' :: (if down then '-' else '+') :: digits

/-- The characters of a lexeme. -/
def chars (l : Lexeme) : List Char :=
  (if l.negative then ['-'] else []) ++ (l.whole ++ (placesChars l.places ++ powerChars l.power))

/-- All parts are rows of digits. A zero leads only if it is the only digit before the point. -/
structure Formed (l : Lexeme) : Prop where
  whole : Digits l.whole
  leading : l.whole.head? = some '0' → l.whole.length = 1
  places : ∀ digits ∈ l.places, Digits digits
  power : ∀ power ∈ l.power, Digits power.2

variable {rest : List Char}

/-- Neither digits nor places go on with a power. -/
theorem ends_power (power : Option (Bool × List Char)) (delimited : Delimited rest) :
    ∀ c ∈ (powerChars power ++ rest).head?, c.isDigit = false ∧ c ≠ '.' := by
  cases power with
  | none => exact fun c hc => ⟨(delimited c hc).1, (delimited c hc).2.1⟩
  | some power =>
    rintro c ⟨⟩
    decide

/-- Digits do not go on with places. -/
theorem ends_places (places : Option (List Char))
    (ends : ∀ c ∈ rest.head?, c.isDigit = false ∧ c ≠ '.') :
    ∀ c ∈ (placesChars places ++ rest).head?, c.isDigit = false := by
  cases places with
  | none => exact fun c hc => (ends c hc).1
  | some places =>
    rintro c ⟨⟩
    rfl

theorem readPlaces?_append {places : Option (List Char)} (h : ∀ digits ∈ places, Digits digits)
    (ends : ∀ c ∈ rest.head?, c.isDigit = false ∧ c ≠ '.') :
    readPlaces? (placesChars places ++ rest) = some (placesChars places, rest) := by
  cases places with
  | none =>
    rw [placesChars, List.nil_append]
    unfold readPlaces?
    split
    · exact absurd rfl (ends '.' rfl).2
    · rfl
  | some digits =>
    simp [placesChars, readPlaces?, (h digits rfl).readDigits? fun c hc => (ends c hc).1]

theorem readPower?_append {power : Option (Bool × List Char)} (h : ∀ p ∈ power, Digits p.2)
    (delimited : Delimited rest) :
    readPower? (powerChars power ++ rest) = some (powerChars power, rest) := by
  cases power with
  | none =>
    cases rest with
    | nil => rfl
    | cons c rest =>
      obtain ⟨-, -, hlower, hupper⟩ := delimited c rfl
      simp [powerChars, readPower?, hlower, hupper]
  | some power =>
    obtain ⟨down, digits⟩ := power
    have hread := (h _ rfl).readDigits? fun c hc => (delimited c hc).1
    cases down <;> simp [powerChars, readPower?, hread]

variable {l : Lexeme}

/-- **The lexeme of a number is read up to what no number goes on with.** -/
theorem Formed.readNumber? (h : l.Formed) (delimited : Delimited rest) :
    Json.readNumber? (l.chars ++ rest) = some (l.chars, rest) := by
  obtain ⟨negative, whole, places, power⟩ := l
  have hpower := readPower?_append h.power delimited
  have hplaces := readPlaces?_append h.places (ends_power power delimited)
  have hwhole : readWhole? (whole ++ (placesChars places ++ (powerChars power ++ rest))) =
      some (whole, placesChars places ++ (powerChars power ++ rest)) := by
    rw [readWhole?, h.whole.readDigits? (ends_places places (ends_power power delimited))]
    have hleading := h.leading
    simpa using hleading
  cases negative with
  | true => simp [chars, Json.readNumber?, hwhole, hplaces, hpower]
  | false =>
    obtain ⟨c, cs, rfl, -, hsign⟩ := h.whole.eq_cons
    rw [List.cons_append] at hwhole
    simp [chars, Json.readNumber?, hsign, hwhole, hplaces, hpower]

/-- The first character of a number. -/
theorem Formed.eq_cons (h : l.Formed) :
    ∃ c cs, l.chars = c :: cs ∧ (c.isDigit = true ∨ c = '-') := by
  obtain ⟨negative, whole, places, power⟩ := l
  cases negative with
  | true => exact ⟨'-', _, rfl, .inr rfl⟩
  | false =>
    obtain ⟨c, cs, rfl, hdigit, -⟩ := h.whole.eq_cons
    exact ⟨c, _, rfl, .inl hdigit⟩

theorem split_minus {c : Char} (h : c ≠ '-') (cs : List Char) :
    Lexeme.split ('-' :: c :: cs) = { Lexeme.split (c :: cs) with negative := true } := by
  simp [Lexeme.split, h]

theorem Formed.split_unsigned {whole : List Char} {places : Option (List Char)}
    {power : Option (Bool × List Char)} (h : Formed ⟨false, whole, places, power⟩) :
    Lexeme.split (whole ++ (placesChars places ++ powerChars power)) =
      ⟨false, whole, places, power⟩ := by
  have hpower : ∀ c ∈ (powerChars power).head?, c.isDigit = false ∧ c ≠ '.' := by
    simpa using ends_power power delimited_nil
  obtain ⟨htake, hdrop⟩ := Text.parts_append whole (placesChars places ++ powerChars power)
    h.whole.isDigit (ends_places places hpower)
  obtain ⟨first, more, rfl, -, hsign⟩ := h.whole.eq_cons
  rw [List.cons_append] at htake hdrop ⊢
  simp only [Lexeme.split]
  split
  · rename_i heq
    cases heq
    exact absurd rfl hsign
  · simp only [htake, hdrop]
    cases places with
    | none => rcases power with _ | ⟨_ | _, digits⟩ <;> rfl
    | some digits =>
      obtain ⟨htake, hdrop⟩ := Text.parts_append digits (powerChars power)
        (h.places digits rfl).isDigit fun c hc => (hpower c hc).1
      simp only [placesChars, List.cons_append, htake, hdrop]
      rcases power with _ | ⟨_ | _, digits⟩ <;> rfl

/-- **Splitting a lexeme gives its parts.** -/
theorem Formed.split (h : l.Formed) : Lexeme.split l.chars = l := by
  obtain ⟨negative, whole, places, power⟩ := l
  have hunsigned := Formed.split_unsigned ⟨h.whole, h.leading, h.places, h.power⟩
  cases negative with
  | false => exact hunsigned
  | true =>
    obtain ⟨first, more, rfl, -, hsign⟩ := h.whole.eq_cons
    rw [chars, if_pos rfl, List.singleton_append, List.cons_append, split_minus hsign,
      ← List.cons_append, hunsigned]

/-! ## Whole numbers -/

/-- The lexeme of a whole number. -/
def ofWhole (negative : Bool) (n : Nat) : Lexeme := ⟨negative, Nat.toDigits 10 n, none, none⟩

theorem formed_ofWhole (negative : Bool) (n : Nat) : (ofWhole negative n).Formed where
  whole := digits_toDigits n
  leading hzero := by
    by_cases hn : n = 0
    · subst hn
      rfl
    · exact absurd hzero (head?_toDigits hn)
  places := nofun
  power := nofun

theorem chars_ofWhole (negative : Bool) (n : Nat) :
    (ofWhole negative n).chars = (if negative then ['-'] else []) ++ Nat.toDigits 10 n := by
  cases negative <;> simp [ofWhole, chars, placesChars, powerChars]

theorem whole?_ofWhole (negative : Bool) (n : Nat) : whole? (ofWhole negative n).chars =
    if negative then if n = 0 then none else some (-(n : Int)) else some n := by
  simp only [whole?, (formed_ofWhole negative n).split]
  simp [ofWhole, Text.digitsValue_toDigits]

end ShaderFront.Cache.Lexeme

namespace ShaderFront.Json

open Cache.Lexeme

/-- The lexemes of whole numbers. -/
inductive Whole : List Char → Prop where
  | natural (n : Nat) : Whole (Nat.toDigits 10 n)
  | negative (n : Nat) : Whole ('-' :: Nat.toDigits 10 n)

theorem Whole.exists_formed {lexeme : List Char} (h : Whole lexeme) :
    ∃ l : Cache.Lexeme, l.Formed ∧ l.chars = lexeme := by
  cases h with
  | natural n => exact ⟨_, formed_ofWhole false n, chars_ofWhole false n⟩
  | negative n => exact ⟨_, formed_ofWhole true n, chars_ofWhole true n⟩

theorem whole_toString_nat (n : Nat) : Whole (toString n).toList :=
  (Nat.toList_repr (n := n)) ▸ .natural n

theorem whole?_toString_nat (n : Nat) : Cache.whole? (toString n).toList = some (n : Int) := by
  have h := whole?_ofWhole false n
  rw [chars_ofWhole] at h
  exact (congrArg Cache.whole? Nat.toList_repr).trans h

/-- The text of a whole number is a lexeme. -/
theorem whole_toString (n : Int) : Whole (toString n).toList := by
  cases n with
  | ofNat n => exact whole_toString_nat n
  | negSucc n =>
    rw [Text.toList_negSucc]
    exact .negative (n + 1)

/-- **A whole number is the value of its text.** -/
theorem whole?_toString (n : Int) : Cache.whole? (toString n).toList = some n := by
  cases n with
  | ofNat n => exact whole?_toString_nat n
  | negSucc n =>
    have h := whole?_ofWhole true (n + 1)
    rw [chars_ofWhole] at h
    rw [Text.toList_negSucc]
    exact h

end ShaderFront.Json
