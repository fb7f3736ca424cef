import Mathlib.Data.List.TakeWhile
import ShaderFront.Binary64.Notation
import ShaderFront.Proofs.Binary64.Reading
import ShaderFront.Proofs.Text.Numerals

/-!
# Texts of fractions

The grammar of the fractions that a user types. A decimal is a row of digits with a point anywhere
in it or none, and perhaps a power of ten. Together with the names of what has no digits, and a sign
before either, these are the texts that are read, each decimal as the double nearest to what it
denotes. What is shown of a finite number is such a text, and is read as that number.
-/

namespace ShaderFront.Binary64

open Text

/-! ## The grammar -/

/-- A point and the places after it, or neither. -/
inductive Places : List Char → List Char → Prop where
  | none : Places [] []
  | point {places : List Char} (digits : ∀ c ∈ places, c.isDigit = true) :
      Places ('.' :: places) places

/-- A power of ten after its mark, or neither. -/
inductive Power : List Char → ℤ → Prop where
  | none : Power [] 0
  | mark {c : Char} {cs : List Char} {e : ℤ} (mark : c = 'e' ∨ c = 'E')
      (denotes : DenotesInt cs e) : Power (c :: cs) e

/-- A decimal without a sign denotes digits times a power of ten. -/
inductive DenotesDecimal : List Char → ℕ → ℤ → Prop where
  | parts {whole point places power : List Char} {e : ℤ}
      (digits : ∀ c ∈ whole, c.isDigit = true) (after : Places point places)
      (nonempty : whole ++ places ≠ []) (scaled : Power power e) :
      DenotesDecimal (whole ++ (point ++ power)) (digitsValue (whole ++ places))
        (e - places.length)

/-- What a text without a sign is read as, behind a sign or none. -/
inductive DenotesFraction (negative : Bool) : List Char → Binary64 → Prop where
  | infinite {cs : List Char} (name : String.ofList (cs.map Char.toLower) = "inf" ∨
      String.ofList (cs.map Char.toLower) = "infinity") :
      DenotesFraction negative cs (ofMagnitude negative infinityMagnitude)
  | undefined {cs : List Char} (name : String.ofList (cs.map Char.toLower) = "nan") :
      DenotesFraction negative cs (ofMagnitude negative nan.magnitude)
  | decimal {cs : List Char} {n : ℕ} {e : ℤ} (denotes : DenotesDecimal cs n e) :
      DenotesFraction negative cs (ofDecimal negative n e)

/-- The sign of a text, if it has one, and what follows. -/
inductive Signed : List Char → Bool → List Char → Prop where
  | none (cs : List Char) : Signed cs false cs
  | plus (cs : List Char) : Signed ('+' :: cs) false cs
  | minus (cs : List Char) : Signed ('-' :: cs) true cs

variable {cs : List Char} {n : ℕ} {e : ℤ} {x : Binary64}

/-! ## The reader -/

/-- The places after a point, if there is one, and what is left. -/
def afterPoint (rest : List Char) : List Char × List Char :=
  match rest with
  | '.' :: more => (more.takeWhile Char.isDigit, more.dropWhile Char.isDigit)
  | _ => ([], rest)

/-- The power of ten that a text ends in. -/
def readPower? : List Char → Option ℤ
  | [] => some 0
  | c :: cs => if c = 'e' ∨ c = 'E' then readExponent? cs else none

/-- A decimal is read part by part. -/
theorem readMagnitude?_eq (negative : Bool) (cs : List Char) :
    readMagnitude? negative cs =
      let whole := cs.takeWhile Char.isDigit
      let (places, power) := afterPoint (cs.dropWhile Char.isDigit)
      if whole.isEmpty && places.isEmpty then none
      else (readPower? power).map fun e =>
        ofDecimal negative (digitsValue (whole ++ places)) (e - places.length) := by
  have hparts : readMagnitude? negative cs =
      let whole := cs.takeWhile Char.isDigit
      let (places, power) := afterPoint (cs.dropWhile Char.isDigit)
      if whole.isEmpty && places.isEmpty then none
      else match power with
        | [] => some (ofDecimal negative (digitsValue (whole ++ places)) (-places.length))
        | c :: cs =>
          if c = 'e' ∨ c = 'E' then
            (readExponent? cs).map fun e =>
              ofDecimal negative (digitsValue (whole ++ places)) (e - places.length)
          else none := rfl
  rw [hparts]
  obtain ⟨places, power⟩ := afterPoint (cs.dropWhile Char.isDigit)
  cases power with
  | nil => simp [readPower?]
  | cons c cs => by_cases hmark : c = 'e' ∨ c = 'E' <;> simp [readPower?, hmark]

theorem readPower?_iff : readPower? cs = some e ↔ Power cs e := by
  constructor
  · intro h
    cases cs with
    | nil =>
      cases h
      exact .none
    | cons c cs =>
      rw [readPower?] at h
      split at h
      · exact .mark ‹_› (readSigned?_iff_denotes.1 h)
      · cases h
  · intro h
    cases h with
    | none => rfl
    | mark mark denotes => exact (if_pos mark).trans (readSigned?_iff_denotes.2 denotes)

/-- No digits and no point are left before the power of ten. -/
theorem Power.head (h : Power cs e) : ∀ c ∈ cs.head?, c.isDigit = false ∧ c ≠ '.' := by
  cases h with
  | none => nofun
  | mark mark =>
    rintro c ⟨⟩
    obtain rfl | rfl := mark <;> decide

theorem exists_places (rest : List Char) :
    ∃ point, Places point (afterPoint rest).1 ∧ rest = point ++ (afterPoint rest).2 := by
  unfold afterPoint
  split
  · exact ⟨_, .point fun _ => List.mem_takeWhile_imp,
      congrArg _ List.takeWhile_append_dropWhile.symm⟩
  · exact ⟨[], .none, rfl⟩

theorem Places.afterPoint {point places power : List Char} (h : Places point places)
    (ends : ∀ c ∈ power.head?, c.isDigit = false ∧ c ≠ '.') :
    Binary64.afterPoint (point ++ power) = (places, power) := by
  cases h with
  | none =>
    rw [List.nil_append]
    unfold Binary64.afterPoint
    split
    · exact absurd rfl (ends '.' rfl).2
    · rfl
  | point digits =>
    obtain ⟨htake, hdrop⟩ := parts_append places power digits fun c hc => (ends c hc).1
    rw [List.cons_append, Binary64.afterPoint, htake, hdrop]

/-- **The decimals are what is read**, each as the double nearest to what it denotes. -/
theorem readMagnitude?_iff_denotes {negative : Bool} : readMagnitude? negative cs = some x ↔
    ∃ n e, DenotesDecimal cs n e ∧ ofDecimal negative n e = x := by
  rw [readMagnitude?_eq]
  constructor
  · intro h
    obtain ⟨point, hplaces, hrest⟩ := exists_places (cs.dropWhile Char.isDigit)
    have hdigits : ∀ c ∈ cs.takeWhile Char.isDigit, c.isDigit = true :=
      fun _ => List.mem_takeWhile_imp
    have hcs : cs.takeWhile Char.isDigit ++ cs.dropWhile Char.isDigit = cs :=
      List.takeWhile_append_dropWhile
    rw [hrest] at hcs
    generalize afterPoint (cs.dropWhile Char.isDigit) = parts at h hplaces hcs
    generalize cs.takeWhile Char.isDigit = whole at h hdigits hcs
    obtain ⟨places, power⟩ := parts
    subst hcs
    dsimp only at h hplaces
    split at h
    · cases h
    · rename_i hnonempty
      obtain ⟨e, hpower, rfl⟩ := Option.map_eq_some_iff.1 h
      refine ⟨_, _, .parts hdigits hplaces ?_ (readPower?_iff.1 hpower), rfl⟩
      intro hnil
      obtain ⟨rfl, rfl⟩ : whole = [] ∧ places = [] := List.append_eq_nil_iff.1 hnil
      exact hnonempty rfl
  · rintro ⟨n, e, h, rfl⟩
    cases h with
    | @parts whole point places power e digits after nonempty scaled =>
      have hrest : ∀ c ∈ (point ++ power).head?, c.isDigit = false := by
        cases after with
        | none => exact fun c hc => (scaled.head c hc).1
        | point =>
          rintro c ⟨⟩
          rfl
      obtain ⟨htake, hdrop⟩ := parts_append whole (point ++ power) digits hrest
      have hempty : (whole.isEmpty && places.isEmpty) = false := by
        cases whole with
        | nil => simpa using nonempty
        | cons => rfl
      simp [htake, hdrop, after.afterPoint scaled.head, hempty, readPower?_iff.2 scaled]

/-- A decimal starts with a digit or with a point. -/
theorem DenotesDecimal.eq_cons (h : DenotesDecimal cs n e) :
    ∃ c more, cs = c :: more ∧ (c.isDigit = true ∨ c = '.') := by
  cases h with
  | @parts whole point places power e digits after nonempty scaled =>
    cases whole with
    | cons c whole => exact ⟨c, _, rfl, .inl (digits c List.mem_cons_self)⟩
    | nil =>
      cases after with
      | none => exact absurd rfl nonempty
      | point => exact ⟨'.', _, rfl, .inr rfl⟩

/-- A name starts with a letter, whichever case it has. -/
theorem exists_letter (first : Char) (others : List Char)
    (h : String.ofList (cs.map Char.toLower) = String.ofList (first :: others)) :
    ∃ c more, cs = c :: more ∧ c.toLower = first := by
  rw [← String.toList_inj, String.toList_ofList, String.toList_ofList, List.map_eq_cons_iff] at h
  obtain ⟨c, more, rfl, hc, -⟩ := h
  exact ⟨c, more, rfl, hc⟩

/-- What has digits has no name. -/
theorem DenotesDecimal.readNamed? (h : DenotesDecimal cs n e) (negative : Bool) :
    Binary64.readNamed? negative cs = none := by
  obtain ⟨c, more, rfl, hc⟩ := h.eq_cons
  have hdigit : ∀ d < 10, d.digitChar.toLower ≠ 'i' ∧ d.digitChar.toLower ≠ 'n' := by decide
  have hlower : c.toLower ≠ 'i' ∧ c.toLower ≠ 'n' := by
    obtain hc | rfl := hc
    · obtain ⟨hten, heq⟩ := eq_digitChar hc
      rw [heq]
      exact hdigit _ hten
    · decide
  have hname (first : Char) (others : List Char) (hfirst : c.toLower ≠ first) :
      String.ofList ((c :: more).map Char.toLower) ≠ String.ofList (first :: others) := by
    intro h
    obtain ⟨_, _, ⟨⟩, hc⟩ := exists_letter first others h
    exact hfirst hc
  have hinfinite := not_or.2 ⟨hname 'i' ['n', 'f'] hlower.1,
    hname 'i' ['n', 'f', 'i', 'n', 'i', 't', 'y'] hlower.1⟩
  exact (if_neg hinfinite).trans (if_neg (hname 'n' ['a', 'n'] hlower.2))

theorem DenotesFraction.readNamed?_or {negative : Bool} (h : DenotesFraction negative cs x) :
    (readNamed? negative cs).or (readMagnitude? negative cs) = some x := by
  cases h with
  | infinite name =>
    have hread : readNamed? negative cs = some (ofMagnitude negative infinityMagnitude) :=
      if_pos name
    rw [hread, Option.some_or]
  | undefined name =>
    have hread : readNamed? negative cs = some (ofMagnitude negative nan.magnitude) :=
      (if_neg (by rw [name]; decide)).trans (if_pos name)
    rw [hread, Option.some_or]
  | decimal denotes =>
    rw [denotes.readNamed?, Option.none_or]
    exact readMagnitude?_iff_denotes.2 ⟨_, _, denotes, rfl⟩

/-- Neither a name nor a decimal starts with a sign. -/
theorem DenotesFraction.ne_sign {negative : Bool} {c : Char}
    (h : DenotesFraction negative (c :: cs) x) : c ≠ '-' ∧ c ≠ '+' := by
  refine not_or.1 fun hsign => ?_
  obtain ⟨hi, hn, hdigit, hpoint⟩ : c.toLower ≠ 'i' ∧ c.toLower ≠ 'n' ∧ c.isDigit = false ∧
      c ≠ '.' := by
    obtain rfl | rfl := hsign <;> decide
  cases h with
  | infinite name =>
    obtain hname | hname := name
    · obtain ⟨_, _, ⟨⟩, hc⟩ := exists_letter 'i' ['n', 'f'] hname
      exact hi hc
    · obtain ⟨_, _, ⟨⟩, hc⟩ := exists_letter 'i' ['n', 'f', 'i', 'n', 'i', 't', 'y'] hname
      exact hi hc
  | undefined name =>
    obtain ⟨_, _, ⟨⟩, hc⟩ := exists_letter 'n' ['a', 'n'] name
    exact hn hc
  | decimal denotes =>
    obtain ⟨_, _, ⟨⟩, hc⟩ := denotes.eq_cons
    obtain hc | hc := hc
    · rw [hdigit] at hc
      cases hc
    · exact hpoint hc

/-- What is read behind a sign, or without one, is a name or a decimal. -/
theorem denotesFraction_of_or {negative : Bool}
    (h : (readNamed? negative cs).or (readMagnitude? negative cs) = some x) :
    DenotesFraction negative cs x := by
  rcases Option.or_eq_some_iff.1 h with hname | ⟨-, hdecimal⟩
  · simp only [readNamed?] at hname
    split at hname
    · cases hname
      exact .infinite ‹_›
    · split at hname
      · cases hname
        exact .undefined ‹_›
      · cases hname
  · obtain ⟨n, e, hdenotes, rfl⟩ := readMagnitude?_iff_denotes.1 hdecimal
    exact .decimal hdenotes

/-- **Which texts are fractions.** A text is read exactly if it is a name or a decimal behind a sign
or none, and a decimal is read as the double nearest to what it denotes. -/
theorem read?_iff_denotes {s : String} : read? s = some x ↔
    ∃ negative cs, Signed s.toList negative cs ∧ DenotesFraction negative cs x := by
  constructor
  · intro h
    unfold read? at h
    split at h
    rename_i negative cs hsign
    refine ⟨negative, cs, ?_, denotesFraction_of_or h⟩
    generalize s.toList = chars at hsign
    split at hsign
    · cases hsign
      exact .minus _
    · cases hsign
      exact .plus _
    · cases hsign
      exact .none _
  · rintro ⟨negative, cs, hsigned, h⟩
    have hread := h.readNamed?_or
    unfold read?
    generalize s.toList = chars at hsigned ⊢
    cases hsigned with
    | minus | plus => exact hread
    | none =>
      -- What is read without a sign has none, so nothing is cut from it.
      split
      rename_i hsign
      split at hsign
      · exact absurd rfl h.ne_sign.1
      · exact absurd rfl h.ne_sign.2
      · cases hsign
        exact hread

/-! ## What is shown -/

/-- Digits around a point. -/
theorem denotesDecimal_point {whole places : List Char} (hwhole : ∀ c ∈ whole, c.isDigit = true)
    (hplaces : ∀ c ∈ places, c.isDigit = true) (nonempty : whole ++ places ≠ []) :
    DenotesDecimal (whole ++ '.' :: places) (digitsValue (whole ++ places)) (-places.length) := by
  simpa using DenotesDecimal.parts hwhole (.point hplaces) nonempty .none

/-- In positional notation digits keep their value, whether zeros are put before or after them. -/
theorem exists_denotes_positional (n : ℕ) (e : ℤ) : ∃ m f,
    DenotesDecimal (positional (Nat.toDigits 10 n) (e + (Nat.toDigits 10 n).length)) m f ∧
      (m : ℚ) * 10 ^ f = n * 10 ^ e := by
  have hdigits := isDigit_toDigits n
  have hvalue := digitsValue_toDigits n
  have hne : Nat.toDigits 10 n ≠ [] := Nat.toDigits_ne_nil
  generalize Nat.toDigits 10 n = digits at hdigits hvalue hne ⊢
  unfold positional
  split
  · -- The point is before all digits.
    have hdecimal := denotesDecimal_point (isDigit_zeros 1)
      (List.forall_mem_append.2 ⟨isDigit_zeros (-(e + digits.length)).toNat, hdigits⟩) (by simp)
    have hn : digitsValue (List.replicate 1 '0' ++
        (List.replicate (-(e + digits.length)).toNat '0' ++ digits)) = n := by
      rw [digitsValue_zeros_append, digitsValue_zeros_append, hvalue]
    have he : -((List.replicate (-(e + digits.length)).toNat '0' ++ digits).length : ℤ) = e := by
      rw [List.length_append, List.length_replicate]
      omega
    rw [hn, he] at hdecimal
    exact ⟨n, e, hdecimal, rfl⟩
  · obtain ⟨k, hk⟩ : ∃ k : ℕ, e + digits.length = k := Int.eq_ofNat_of_zero_le (by omega)
    rw [hk]
    dsimp only [Int.toNat_natCast]
    split
    · -- The point is after all digits, and after the zeros up to it.
      have hdecimal := denotesDecimal_point
        (List.forall_mem_append.2 ⟨hdigits, isDigit_zeros (k - digits.length)⟩) (isDigit_zeros 1)
        (by simp)
      have he : e = ((k - digits.length : ℕ) : ℤ) := by omega
      refine ⟨_, _, hdecimal, ?_⟩
      rw [List.append_assoc, List.replicate_append_replicate, digitsValue_append_zeros, hvalue, he,
        Nat.cast_mul, Nat.cast_pow, mul_assoc, List.length_replicate, zpow_natCast, pow_succ]
      norm_num [mul_assoc]
    · have hdecimal := denotesDecimal_point (fun c hc => hdigits c (List.mem_of_mem_take hc))
        (fun c hc => hdigits c (List.mem_of_mem_drop hc))
        ((List.take_append_drop k digits).symm ▸ hne)
      have he : -((digits.drop k).length : ℤ) = e := by
        rw [List.length_drop]
        omega
      rw [List.take_append_drop, hvalue, he] at hdecimal
      exact ⟨n, e, hdecimal, rfl⟩

/-- In scientific notation one digit is before the point. -/
theorem denotes_scientific (n : ℕ) (e : ℤ) : DenotesDecimal
    (scientific false (Nat.toDigits 10 n) (e + (Nat.toDigits 10 n).length - 1)) n e := by
  have hdigits := isDigit_toDigits n
  have hvalue := digitsValue_toDigits n
  have hne : Nat.toDigits 10 n ≠ [] := Nat.toDigits_ne_nil
  generalize Nat.toDigits 10 n = digits at hdigits hvalue hne ⊢
  have hpower (order : ℤ) : Power ('e' :: (toString order).toList) order :=
    .mark (.inl rfl) (denotesInt_toString order)
  match digits with
  | [] => exact absurd rfl hne
  | [d] =>
    have hdecimal := DenotesDecimal.parts hdigits .none (by simp) (hpower (e + [d].length - 1))
    simpa [scientific, hvalue] using hdecimal
  | d :: d' :: rest =>
    obtain ⟨hfirst, hothers⟩ := List.forall_mem_cons.1 hdigits
    have hdecimal := DenotesDecimal.parts (List.forall_mem_singleton.2 hfirst) (.point hothers)
      (by simp) (hpower (e + (d :: d' :: rest).length - 1))
    have he : e + ((d :: d' :: rest).length : ℤ) - 1 - (d' :: rest).length = e := by
      rw [List.length_cons]
      omega
    rw [List.singleton_append, List.singleton_append, hvalue, he] at hdecimal
    simpa [scientific] using hdecimal

/-- The text of a finite number denotes a decimal that is read as the number. -/
theorem exists_denotes_text (h : x.isFinite = true) : ∃ cs,
    (Layout.display.text x).toList = (if x.negative then '-' :: cs else cs) ∧
      ∃ n e, DenotesDecimal cs n e ∧ ofDecimal x.negative n e = x := by
  rw [Layout.text, String.toList_ofList]
  refine ⟨_, rfl, ?_⟩
  by_cases hzero : x.isZero = true
  · have hmagnitude : x.magnitude = 0 := by simpa [isZero] using hzero
    have hread : ofMagnitude x.negative 0 = x := by
      conv_rhs => rw [← ofMagnitude_magnitude x, hmagnitude]
    rw [if_pos hzero]
    have hdenotes := denotesDecimal_point (isDigit_zeros 1) (isDigit_zeros 1) (List.cons_ne_nil _ _)
    exact ⟨_, _, hdenotes, hread⟩
  · have hnonzero : x.isZero = false := Bool.eq_false_of_not_eq_true hzero
    have hread {n : ℕ} {e : ℤ} (hvalue : (n : ℚ) * 10 ^ e = (shortest .up x).value) :
        ofDecimal x.negative n e = x := by
      have hrounds : RoundsTo ((n : ℚ) * 10 ^ e) x :=
        hvalue ▸ (shortest_stands h hnonzero .up).rounds
      rw [(ofDecimal_eq_iff h hnonzero x.negative n e).2 hrounds, ofMagnitude_magnitude]
    have htoList : (toString (shortest Layout.display.tie x).digits).toList =
        Nat.toDigits 10 (shortest .up x).digits := Nat.toList_repr
    rw [if_neg hzero]
    dsimp only
    rw [htoList]
    split
    · obtain ⟨n, e, hdenotes, hvalue⟩ :=
        exists_denotes_positional (shortest .up x).digits (shortest .up x).exponent
      rw [← sub_add_cancel (_ + _) 1] at hdenotes
      exact ⟨n, e, hdenotes, hread hvalue⟩
    · exact ⟨_, _, denotes_scientific _ _, hread rfl⟩

theorem display_of_finite (h : x.isFinite = true) : x.display = Layout.display.text x := by
  have hlimit : x.magnitude < infinityMagnitude := of_decide_eq_true h
  have hnan : x.isNaN = false := decide_eq_false hlimit.le.not_gt
  have hinfinite : x.isInfinite = false := beq_false_of_ne hlimit.ne
  simp [display, hnan, hinfinite]

/-- **What is shown of a finite number is read as that number.** -/
theorem read?_display (h : x.isFinite = true) : read? x.display = some x := by
  obtain ⟨cs, htext, n, e, hdenotes, hread⟩ := exists_denotes_text h
  have hfraction : DenotesFraction x.negative cs (ofDecimal x.negative n e) := .decimal hdenotes
  rw [hread] at hfraction
  rw [display_of_finite h, read?_iff_denotes, htext]
  refine ⟨x.negative, cs, ?_, hfraction⟩
  cases x.negative with
  | true => exact .minus cs
  | false => exact .none cs

end ShaderFront.Binary64
