/-!
# Decimal numerals

Whole numbers as a user writes them: ASCII digits, with a sign where the type allows one, and no
value outside the type. Nothing else is accepted, neither blanks nor digit separators.
-/

namespace ShaderFront.Text

/-- The number a row of decimal digits denotes, most significant digit first. -/
def digitsValue (cs : List Char) : Nat :=
  cs.foldl (fun n c => 10 * n + (c.toNat - 48)) 0

/-- Reads one or more ASCII digits and nothing else. -/
def readDigits? (cs : List Char) : Option Nat :=
  if cs.isEmpty then none else if cs.all Char.isDigit then some (digitsValue cs) else none

/-- Reads digits after an optional plus sign. -/
def readUnsigned? : List Char → Option Nat
  | '+' :: cs => readDigits? cs
  | cs => readDigits? cs

/-- Reads digits after an optional sign. -/
def readSigned? : List Char → Option Int
  | '-' :: cs => (readDigits? cs).map fun n => -(n : Int)
  | cs => (readUnsigned? cs).map fun n => (n : Int)

/-- Reads an unsigned numeral that is less than `bound`. -/
def readBelow? (bound : Nat) (s : String) : Option Nat :=
  (readUnsigned? s.toList).filter (· < bound)

/-- An optional plus sign and digits, whose value fits 64 bits. -/
def readUInt64? (s : String) : Option UInt64 :=
  (readBelow? UInt64.size s).map UInt64.ofNat

/-- An optional sign and digits, whose value fits 64 bits with a sign. -/
def readInt64? (s : String) : Option Int64 :=
  ((readSigned? s.toList).filter fun i =>
    Int64.minValue.toInt ≤ i && i ≤ Int64.maxValue.toInt).map Int64.ofInt

theorem readDigits?_eq_some_iff {cs : List Char} {n : Nat} :
    readDigits? cs = some n ↔ cs ≠ [] ∧ cs.all Char.isDigit = true ∧ digitsValue cs = n := by
  unfold readDigits?
  cases cs with
  | nil => simp
  | cons c cs => simp

/-- A text whose first part satisfies a test, and whose second part starts with a character that
does not, is taken apart between them. -/
theorem parts_append {p : Char → Bool} (body rest : List Char) (inside : ∀ c ∈ body, p c = true)
    (boundary : ∀ c ∈ rest.head?, p c = false) :
    (body ++ rest).takeWhile p = body ∧ (body ++ rest).dropWhile p = rest := by
  rw [List.takeWhile_append_of_pos inside, List.dropWhile_append_of_pos inside]
  cases rest with
  | nil => simp
  | cons c rest => simp [boundary c rfl]

end ShaderFront.Text
