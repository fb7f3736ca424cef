import ShaderFront.Cache.Decoder
import ShaderFront.Diagnostic.Machine
import ShaderFront.Json.Reader

/-!
# What string lexemes write

A string lexeme writes a text character by character: plainly, by a short escape, or by a code. The
reader takes such a lexeme up to the quote after it, and unescaping it gives the text that it
writes. Both ways of escaping a text, that of reports and that of cache files, write the text.
-/

namespace ShaderFront.Json

/-! ## Strings -/

/-- A lexeme writes a text. Codes of surrogates are left out. -/
inductive Writes : List Char → List Char → Prop where
  | nil : Writes [] []
  | plain {c : Char} {lexeme text : List Char} (unquoted : c ≠ '"') (unescaped : c ≠ '\\')
      (visible : 0x20 ≤ c.toNat) (rest : Writes lexeme text) : Writes (c :: lexeme) (c :: text)
  | short {letter c : Char} {lexeme text : List Char} (letter_eq : shortEscape? letter = some c)
      (rest : Writes lexeme text) : Writes ('\\' :: letter :: lexeme) (c :: text)
  | coded {a b c d : Char} {unit : Nat} {lexeme text : List Char}
      (digits : codeUnit? a b c d = some unit) (scalar : unit < 0xD800)
      (rest : Writes lexeme text) :
      Writes ('\\' :: 'u' :: a :: b :: c :: d :: lexeme) (Char.ofNat unit :: text)

namespace Writes

variable {lexeme text : List Char}

theorem letter_ne {letter c : Char} (h : shortEscape? letter = some c) : letter ≠ 'u' := by
  rintro rfl
  cases h

/-- **A lexeme is read up to the quote after it.** -/
theorem readString? (h : Writes lexeme text) (rest : List Char) :
    Json.readString? (lexeme ++ '"' :: rest) = some (lexeme, rest) := by
  induction h with
  | nil => rfl
  | plain unquoted unescaped visible _ ih =>
    simp [Json.readString?, unescaped, Nat.not_lt.2 visible, ih]
  | short letter _ ih =>
    simp [Json.readString?, letter, letter_ne letter, ih]
  | coded digits _ _ ih =>
    simp [Json.readString?, digits, ih]

/-- **A lexeme denotes the text that it writes.** -/
theorem unescapeChars? (h : Writes lexeme text) : Json.unescapeChars? lexeme = some text := by
  induction h with
  | nil => rfl
  | plain _ unescaped _ _ ih => simp [Json.unescapeChars?, unescaped, ih]
  | short letter _ ih => simp [Json.unescapeChars?, letter, letter_ne letter, ih]
  | coded digits scalar _ ih => simp [Json.unescapeChars?, digits, scalar, ih]

theorem append {more text' : List Char} (h : Writes lexeme text) (h' : Writes more text') :
    Writes (lexeme ++ more) (text ++ text') := by
  induction h with
  | nil => exact h'
  | plain unquoted unescaped visible _ ih => exact .plain unquoted unescaped visible ih
  | short letter _ ih => exact .short letter ih
  | coded digits scalar _ ih => exact .coded digits scalar ih

/-- What writes each character of a text writes the text. -/
theorem flatMap {f : Char → List Char} (h : ∀ c, Writes (f c) [c]) (text : List Char) :
    Writes (text.flatMap f) text := by
  induction text with
  | nil => exact .nil
  | cons c text ih => exact (h c).append ih

/-- The unit that all digits of a text denote. -/
def unit? : List Char → Option Nat
  | [a, b, c, d] => codeUnit? a b c d
  | _ => none

/-- A code below U+0100 writes its character. -/
theorem escapeByCode {c : Char} (h : c.toNat < 0x100) : Writes (Json.escapeByCode c) [c] := by
  have hcodes : ∀ n < 0x100, unit? ((Json.escapeByCode (Char.ofNat n)).drop 2) = some n := by
    decide +kernel
  have hunit := hcodes c.toNat h
  rw [Char.ofNat_toNat, Json.escapeByCode, List.cons_append, List.cons_append,
    List.drop_succ_cons, List.drop_succ_cons, List.drop_zero] at hunit
  rw [Json.escapeByCode, List.cons_append, List.cons_append]
  generalize List.replicate (4 - (Text.hex c.toNat).length) '0' ++ Text.hex c.toNat = digits
    at hunit ⊢
  unfold unit? at hunit
  split at hunit
  · have hwrites := Writes.coded hunit (by omega) .nil
    rwa [Char.ofNat_toNat] at hwrites
  · cases hunit

/-- An escaped character is written, if all controls of ASCII are escaped, and only what has a short
code. -/
theorem escapeChar {coded : Char → Bool} (low : ∀ c : Char, c.toNat < 0x20 → coded c = true)
    (high : ∀ c, coded c = true → c.toNat < 0x100) (c : Char) :
    Writes (Json.escapeChar coded c) [c] := by
  unfold Json.escapeChar
  split
  · subst c
    exact .short rfl .nil
  split
  · subst c
    exact .short rfl .nil
  split
  · subst c
    exact .short rfl .nil
  split
  · subst c
    exact .short rfl .nil
  split
  · subst c
    exact .short rfl .nil
  split
  · exact escapeByCode (high c ‹_›)
  · exact .plain ‹_› ‹_› (Nat.not_lt.1 fun h => ‹¬coded c = true› (low c h)) .nil

end Writes

/-- A name that needs no escapes. -/
def Plain (name : String) : Prop :=
  ∀ c ∈ name.toList, c ≠ '"' ∧ c ≠ '\\' ∧ 0x20 ≤ c.toNat

instance (name : String) : Decidable (Plain name) :=
  List.decidableBAll (fun c => c ≠ '"' ∧ c ≠ '\\' ∧ 0x20 ≤ c.toNat) name.toList

/-- Such a name writes itself. -/
theorem Plain.writes {name : String} (h : Plain name) : Writes name.toList name.toList := by
  unfold Plain at h
  generalize name.toList = text at h
  induction text with
  | nil => exact .nil
  | cons c text ih =>
    obtain ⟨⟨unquoted, unescaped, visible⟩, h⟩ := List.forall_mem_cons.1 h
    exact .plain unquoted unescaped visible (ih h)

/-- **The lexemes of reports write the texts.** -/
theorem writes_plainText (s : String) :
    Writes (escape (fun c => c.toNat < 0x20 || (0x7f ≤ c.toNat && c.toNat ≤ 0x9f)) s) s.toList := by
  refine Writes.flatMap (Writes.escapeChar ?_ ?_) s.toList
  · intro c h
    simp [h]
  · intro c h
    simp only [Bool.or_eq_true, Bool.and_eq_true, decide_eq_true_eq] at h
    omega

/-- **The lexemes of cache files write the texts.** -/
theorem writes_textLexeme (s : String) : Writes (Cache.textLexeme s) s.toList := by
  refine Writes.flatMap (fun c => ?_) s.toList
  split
  · subst c
    exact .short rfl .nil
  split
  · subst c
    exact .short rfl .nil
  · refine Writes.escapeChar (fun c h => decide_eq_true h) (fun c h => ?_) c
    have := of_decide_eq_true h
    omega

theorem unescape?_of_writes {lexeme : List Char} {s : String} (h : Writes lexeme s.toList) :
    unescape? lexeme = some s := by
  rw [unescape?, h.unescapeChars?, Option.map_some, String.ofList_toList]

end ShaderFront.Json
