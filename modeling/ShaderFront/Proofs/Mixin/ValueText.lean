import Mathlib.Data.List.TakeWhile
import ShaderFront.Mixin.Parameter
import ShaderFront.Proofs.Binary64.Texts

/-!
# Values as typed text

What is shown of a truth value, of a finite number or of a mixin is read back as the value, with any
blanks around it. Whole numbers are read by the grammar of numerals. After an unsigned one the
suffix may stand any number of times, so there are more texts than with one suffix at most.
-/

namespace ShaderFront

/-! ## Blanks and suffixes -/

namespace Text

theorem dropTrailing_append {p : Char → Bool} {body after : List Char}
    (hafter : ∀ c ∈ after, p c = true) (hlast : ∀ c ∈ body.getLast?, p c = false) :
    dropTrailing p (body ++ after) = body := by
  have hreverse : ∀ c ∈ after.reverse, p c = true := fun c hc => hafter c (List.mem_reverse.1 hc)
  rw [dropTrailing, List.reverse_append, (parts_append after.reverse body.reverse hreverse ?_).2,
    List.reverse_reverse]
  rwa [List.head?_reverse]

/-- What is cut off satisfies the test. -/
theorem exists_dropTrailing (p : Char → Bool) (cs : List Char) :
    ∃ after, cs = dropTrailing p cs ++ after ∧ ∀ c ∈ after, p c = true := by
  refine ⟨(cs.reverse.takeWhile p).reverse, ?_, fun c hc => ?_⟩
  · rw [dropTrailing, ← List.reverse_append, List.takeWhile_append_dropWhile, List.reverse_reverse]
  · exact List.mem_takeWhile_imp (List.mem_reverse.1 hc)

/-- A text of blanks and nothing else. -/
def AllBlank (s : String) : Prop := ∀ c ∈ s.toList, isBlank c = true

/-- There is no blank at either end. -/
structure Trimmed (s : String) : Prop where
  first : ∀ c ∈ s.toList.head?, isBlank c = false
  last : ∀ c ∈ s.toList.getLast?, isBlank c = false

theorem trimmed_of_visible {s : String} (h : ∀ c ∈ s.toList, isBlank c = false) : Trimmed s where
  first c hc := h c (List.mem_of_mem_head? hc)
  last c hc := h c (List.mem_of_getLast? hc)

/-- **Only the blanks around a text are cut.** -/
theorem trim_append {p s q : String} (hp : AllBlank p) (h : Trimmed s) (hq : AllBlank q) :
    trim (p ++ s ++ q) = s := by
  rw [trim, trimBlanks, String.toList_append, String.toList_append, List.append_assoc,
    List.dropWhile_append_of_pos hp]
  by_cases hempty : s.toList = []
  · rw [hempty, List.nil_append, List.dropWhile_eq_nil_iff.2 hq, ← String.toList_inj, hempty]
    rfl
  · -- The first character is no blank, so nothing more is cut in front.
    obtain ⟨c, cs, hs⟩ := List.exists_cons_of_ne_nil hempty
    have hc : isBlank c = false := h.first c (by rw [hs]; rfl)
    have hfront : (s.toList ++ q.toList).dropWhile isBlank = s.toList ++ q.toList := by
      rw [hs, List.cons_append, List.dropWhile_cons_of_neg (by simp [hc])]
    rw [hfront, dropTrailing_append hq h.last, String.ofList_toList]

theorem isBlank_of_isDigit {c : Char} (h : c.isDigit = true) : isBlank c = false := by
  obtain ⟨hlow, hhigh⟩ : 48 ≤ c.toNat ∧ c.toNat ≤ 57 := Char.isDigit_iff_toNat.1 h
  simp [isBlank]
  omega

variable {cs : List Char} {n : Nat} {i : Int}

theorem Denotes.visible (h : Denotes cs n) : ∀ c ∈ cs, isBlank c = false :=
  fun c hc => isBlank_of_isDigit (h.isDigit c hc)

theorem DenotesInt.visible (h : DenotesInt cs i) : ∀ c ∈ cs, isBlank c = false := by
  cases h with
  | minus digits => exact List.forall_mem_cons.2 ⟨rfl, digits.visible⟩
  | unsigned numeral =>
    cases numeral with
    | plain digits => exact digits.visible
    | plus digits => exact List.forall_mem_cons.2 ⟨rfl, digits.visible⟩

/-- Neither digits and points nor a power of ten are blank. -/
theorem visible_decimal {e : Int} (h : Binary64.DenotesDecimal cs n e) :
    ∀ c ∈ cs, isBlank c = false := by
  cases h with
  | parts digits after _ scaled =>
    refine List.forall_mem_append.2 ⟨fun c hc => isBlank_of_isDigit (digits c hc),
      List.forall_mem_append.2 ⟨?_, ?_⟩⟩
    · cases after with
      | none => exact List.forall_mem_nil _
      | point digits =>
        exact List.forall_mem_cons.2 ⟨rfl, fun c hc => isBlank_of_isDigit (digits c hc)⟩
    · cases scaled with
      | none => exact List.forall_mem_nil _
      | mark mark denotes =>
        refine List.forall_mem_cons.2 ⟨?_, denotes.visible⟩
        obtain rfl | rfl := mark <;> rfl

/-- A numeral ends in a digit. -/
theorem DenotesNat.isDigit_getLast (h : DenotesNat cs n) : ∀ c ∈ cs.getLast?, c.isDigit = true := by
  cases h with
  | plain digits => exact fun c hc => digits.isDigit c (List.mem_of_getLast? hc)
  | @plus cs _ digits =>
    rintro c hc
    rw [List.getLast?_cons_of_ne_nil digits.ne_nil] at hc
    exact digits.isDigit c (List.mem_of_getLast? hc)

end Text

/-! ## What is shown is read back -/

open Text

namespace ParamValue

/-- Values whose text can be typed. -/
inductive Typable : ParamValue → Prop where
  | bool (b : Bool) : Typable (.bool b)
  | int (n : Int64) : Typable (.int n)
  | uint (n : UInt64) : Typable (.uint n)
  | mixin {name : String} (nonempty : name ≠ "") (trimmed : Trimmed name) : Typable (.mixin name)

theorem toList_display_uint (n : UInt64) :
    (uint n).display.toList = Nat.toDigits 10 n.toNat ++ List.replicate 1 'u' := by
  rw [← Nat.toList_repr]
  exact String.toList_append ..

theorem Typable.trimmed {v : ParamValue} (h : v.Typable) : Trimmed v.display := by
  cases h with
  | bool b => exact trimmed_of_visible (by cases b <;> simp [display, isBlank])
  | int n => exact trimmed_of_visible (denotesInt_toString n.toInt).visible
  | uint n =>
    refine trimmed_of_visible ?_
    rw [toList_display_uint]
    exact List.forall_mem_append.2 ⟨(denotes_toDigits n.toNat).visible,
      fun _ hc => List.eq_of_mem_replicate hc ▸ rfl⟩
  | mixin _ trimmed => exact trimmed

end ParamValue

namespace ParamKind

/-- The suffix is cut from a numeral, however often it stands there. -/
theorem dropSuffix_numeral {s : String} {numeral : List Char} {n times : Nat}
    (h : DenotesNat numeral n) (hs : s.toList = numeral ++ List.replicate times 'u') :
    (dropSuffix s).toList = numeral := by
  rw [dropSuffix, String.toList_ofList, hs]
  refine dropTrailing_append (fun c hc => ?_) fun c hc => ?_
  · rw [List.eq_of_mem_replicate hc]
    rfl
  · have hdigit := h.isDigit_getLast c hc
    rw [beq_eq_false_iff_ne]
    rintro rfl
    cases hdigit

/-- **What is shown of a value is read back**, with any blanks around it. -/
theorem parse?_display {v : ParamValue} (h : v.Typable) {kind : ParamKind}
    (hkind : v.kind? = some kind) {p q : String} (hp : AllBlank p) (hq : AllBlank q) :
    kind.parse? (p ++ v.display ++ q) = some v := by
  have htrim : trim (p ++ v.display ++ q) = v.display := trim_append hp h.trimmed hq
  cases h with
  | bool b =>
    cases hkind
    rw [parse?, htrim]
    cases b <;> decide
  | int n =>
    cases hkind
    simp only [parse?, htrim]
    rw [ParamValue.display, readInt64?_iff_denotes.2 (denotesInt_toString n.toInt),
      Option.map_some]
  | uint n =>
    cases hkind
    have hnumeral : DenotesNat (Nat.toDigits 10 n.toNat) n.toNat :=
      .plain (denotes_toDigits n.toNat)
    have hcut := dropSuffix_numeral hnumeral (ParamValue.toList_display_uint n)
    simp only [parse?, htrim]
    rw [readUInt64?_iff_denotes.2 (hcut.symm ▸ hnumeral), Option.map_some]
  | mixin nonempty _ =>
    cases hkind
    simp only [parse?, htrim]
    simp [ParamValue.display, nonempty]

/-- The extreme whole numbers and a name with a blank in it. -/
theorem parse?_display_extremes :
    int.parse? (" \t" ++ (ParamValue.int Int64.minValue).display ++ "\u3000") =
        some (.int Int64.minValue) ∧
      uint.parse? ("" ++ (ParamValue.uint (-1)).display ++ "\n") = some (.uint (-1)) ∧
      mixin.parse? (" " ++ (ParamValue.mixin "Tone Map").display ++ " ") =
        some (.mixin "Tone Map") := by
  refine ⟨parse?_display (.int _) rfl ?_ ?_, parse?_display (.uint _) rfl ?_ ?_,
    parse?_display (.mixin (by decide) ⟨?_, ?_⟩) rfl ?_ ?_⟩ <;> simp [AllBlank, isBlank]

/-- The text of a finite fraction has no blanks in it. -/
theorem trimmed_display_float {x : Binary64} (h : x.isFinite = true) :
    Trimmed (ParamValue.float x).display := by
  obtain ⟨cs, htext, n, e, hdenotes, -⟩ := Binary64.exists_denotes_text h
  refine trimmed_of_visible ?_
  rw [ParamValue.display, Binary64.display_of_finite h, htext]
  cases x.negative with
  | true => exact List.forall_mem_cons.2 ⟨rfl, visible_decimal hdenotes⟩
  | false => exact visible_decimal hdenotes

/-- **What is shown of a finite fraction is read back**, with any blanks around it. -/
theorem parse?_display_float {x : Binary64} (h : x.isFinite = true) {p q : String}
    (hp : AllBlank p) (hq : AllBlank q) :
    float.parse? (p ++ (ParamValue.float x).display ++ q) = some (.float x) := by
  have hread : Binary64.read? (ParamValue.float x).display = some x := Binary64.read?_display h
  simp only [parse?, trim_append hp (trimmed_display_float h) hq]
  rw [hread, Option.map_some]

/-! ## Which texts are whole numbers -/

theorem parse?_int_iff {s : String} {v : ParamValue} :
    int.parse? s = some v ↔ ∃ n : Int64, v = .int n ∧ DenotesInt (trim s).toList n.toInt := by
  simp only [parse?, Option.map_eq_some_iff, readInt64?_iff_denotes]
  exact exists_congr fun n => and_comm.trans (and_congr_left' eq_comm)

theorem parse?_uint_iff {s : String} {v : ParamValue} :
    uint.parse? s = some v ↔ ∃ (n : UInt64) (numeral : List Char) (times : Nat), v = .uint n ∧
      DenotesNat numeral n.toNat ∧ (trim s).toList = numeral ++ List.replicate times 'u' := by
  simp only [parse?, Option.map_eq_some_iff, readUInt64?_iff_denotes]
  constructor
  · rintro ⟨n, hn, rfl⟩
    obtain ⟨after, hs, hafter⟩ := exists_dropTrailing (· == 'u') (trim s).toList
    refine ⟨n, _, after.length, rfl, hn, ?_⟩
    rw [dropSuffix, String.toList_ofList,
      ← List.eq_replicate_of_mem (a := 'u') fun c hc => by simpa using hafter c hc]
    exact hs
  · rintro ⟨n, numeral, times, rfl, hn, hs⟩
    exact ⟨n, (dropSuffix_numeral hn hs).symm ▸ hn, rfl⟩

/-- A numeral has no suffix itself. -/
theorem suffixes_iff {numeral : List Char} {n times : Nat} (h : DenotesNat numeral n) :
    ['u', 'u'] <:+ numeral ++ List.replicate times 'u' ↔ 2 ≤ times := by
  have hnumeral : ∀ before, numeral ≠ before ++ ['u'] := by
    rintro before rfl
    cases h.isDigit_getLast 'u' (by simp)
  constructor
  · rintro ⟨before, heq⟩
    by_contra hfew
    obtain rfl | rfl : times = 0 ∨ times = 1 := by omega
    · exact hnumeral (before ++ ['u']) (by simpa using heq.symm)
    · refine hnumeral before ((List.append_left_inj ['u']).1 ?_)
      simpa using heq.symm
  · intro htwo
    obtain ⟨more, rfl⟩ := Nat.exists_eq_add_of_le' htwo
    refine ⟨numeral ++ List.replicate more 'u', ?_⟩
    rw [← List.replicate_append_replicate, List.append_assoc]
    rfl

/-- **The texts of whole numbers.** A text reads as a signed number exactly if, without the blanks
around it, it is a numeral with an optional sign whose value the type holds; and as an unsigned one
exactly if it is a numeral with an optional plus sign and the suffix any number of times. Those with
one suffix at most are the ones that do not end in two. The number is what the numeral denotes. -/
theorem integers_parsed (s : String) (v : ParamValue) :
    (int.parse? s = some v ↔ ∃ n : Int64, v = .int n ∧ DenotesInt (trim s).toList n.toInt) ∧
    (uint.parse? s = some v ↔ ∃ (n : UInt64) (numeral : List Char) (times : Nat), v = .uint n ∧
      DenotesNat numeral n.toNat ∧ (trim s).toList = numeral ++ List.replicate times 'u') ∧
    ((∃ (n : UInt64) (numeral : List Char) (times : Nat), times ≤ 1 ∧ v = .uint n ∧
      DenotesNat numeral n.toNat ∧ (trim s).toList = numeral ++ List.replicate times 'u') ↔
      uint.parse? s = some v ∧ ¬['u', 'u'] <:+ (trim s).toList) := by
  refine ⟨parse?_int_iff, parse?_uint_iff, ?_, ?_⟩
  · rintro ⟨n, numeral, times, hfew, rfl, hn, hs⟩
    refine ⟨parse?_uint_iff.2 ⟨n, numeral, times, rfl, hn, hs⟩, ?_⟩
    rw [hs, suffixes_iff hn]
    omega
  · rintro ⟨hread, htwo⟩
    obtain ⟨n, numeral, times, rfl, hn, hs⟩ := parse?_uint_iff.1 hread
    rw [hs, suffixes_iff hn] at htwo
    exact ⟨n, numeral, times, by omega, rfl, hn, hs⟩

/-- Two suffixes are read like one, though no numeral with one suffix at most is the text. -/
theorem suffix_repeated :
    uint.parse? "8uu" = some (.uint 8) ∧
      ¬∃ (n : Nat) (numeral : List Char) (times : Nat), times ≤ 1 ∧ DenotesNat numeral n ∧
        (trim "8uu").toList = numeral ++ List.replicate times 'u' := by
  refine ⟨by decide, ?_⟩
  rintro ⟨n, numeral, times, hfew, hn, hs⟩
  have htwo : ['u', 'u'] <:+ numeral ++ List.replicate times 'u' := hs ▸ by decide
  exact absurd ((suffixes_iff hn).1 htwo) (by omega)

end ParamKind
end ShaderFront
