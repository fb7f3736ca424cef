import ShaderFront.Binary64.Notation
import ShaderFront.Json.Basic
import ShaderFront.Text.Numeral

/-!
# Numbers in cache files

Whole numbers are exact: a lexeme without point or exponent whose value fits the type. Fractions are
written with the fewest digits that read back. The library in use reads them fast and not always
exactly: the digits that fit 64 bits are taken as one number, which is then scaled by a power of ten
in double-precision arithmetic. A number too large for a double is refused.
-/

namespace ShaderFront.Cache

/-- The parts of a number lexeme. -/
structure Lexeme where
  negative : Bool
  whole : List Char
  places : Option (List Char)
  power : Option (Bool × List Char)

/-- Splits a lexeme at its sign, point and exponent mark. -/
def Lexeme.split (cs : List Char) : Lexeme :=
  let (negative, cs) := match cs with
    | '-' :: rest => (true, rest)
    | _ => (false, cs)
  let whole := cs.takeWhile Char.isDigit
  let rest := cs.dropWhile Char.isDigit
  let (places, rest) := match rest with
    | '.' :: rest => (some (rest.takeWhile Char.isDigit), rest.dropWhile Char.isDigit)
    | _ => (none, rest)
  let power := match rest with
    | _ :: '-' :: digits => some (true, digits)
    | _ :: '+' :: digits => some (false, digits)
    | _ :: digits => some (false, digits)
    | [] => none
  ⟨negative, whole, places, power⟩

/-- The value of a lexeme of a whole number. A minus sign before zero makes a fraction of it. -/
def whole? (cs : List Char) : Option Int :=
  let l := Lexeme.split cs
  if l.places.isSome || l.power.isSome then none
  else
    let n := Text.digitsValue l.whole
    if l.negative then (if n = 0 then none else some (-(n : Int))) else some n

/-- A whole number from `low` to `high`. -/
def wholeWithin? (low high : Int) (cs : List Char) : Option Int :=
  (whole? cs).filter fun n => low ≤ n && n ≤ high

def readInt64? (cs : List Char) : Option Int64 :=
  (wholeWithin? Int64.minValue.toInt Int64.maxValue.toInt cs).map Int64.ofInt

def readUInt64? (cs : List Char) : Option UInt64 :=
  (wholeWithin? 0 (UInt64.size - 1) cs).map fun n => UInt64.ofNat n.toNat

def readUInt8? (cs : List Char) : Option UInt8 :=
  (wholeWithin? 0 255 cs).map fun n => UInt8.ofNat n.toNat

/-- Takes digits into a number as long as it fits 64 bits; gives the number, how many digits were
taken and how many were left. -/
def takeDigits (n taken : Nat) : List Char → Nat × Nat × Nat
  | [] => (n, taken, 0)
  | c :: rest =>
    let next := 10 * n + (c.toNat - 48)
    if next < UInt64.size then takeDigits next (taken + 1) rest else (n, taken, rest.length + 1)

/-- The digits of a lexeme that fit 64 bits, with the power of ten they stand for. Digits before the
point that were left out are made up for by the power alone. -/
def significand (l : Lexeme) : Nat × Int :=
  let (n, _, left) := takeDigits 0 0 l.whole
  let (n, taken, _) := takeDigits n 0 (l.places.getD [])
  (n, (left : Int) - taken)

/-- The double nearest to a power of ten. -/
def powerOfTen (k : Nat) : Binary64 := .nearest false (Nat.pow 10 k) 1

/-- Divides by ten to the power of `k`, by at most 308 powers at a time. -/
def scaleDown (x : Binary64) : (rounds : Nat) → (k : Nat) → Binary64
  | 0, _ => x
  | rounds + 1, k =>
    if k ≤ 308 then x.scaleDown (powerOfTen k)
    else if x.isZero then x
    else scaleDown (x.scaleDown (powerOfTen 308)) rounds (k - 308)

/-- A number times a power of ten in double-precision arithmetic. Four divisions reach zero from
any number that has 64 bits. -/
def scale? (n : Nat) (power : Int) : Option Binary64 :=
  let x := Binary64.ofNat n
  if 0 ≤ power then
    if power ≤ 308 then
      let y := x.scaleUp (powerOfTen power.toNat)
      if y.isInfinite then none else some y
    else if x.isZero then some x
    else none
  else some (scaleDown x 4 (-power).toNat)

/-- The largest exponent that is read as it stands. -/
def exponentLimit : Nat := 2147483647

/-- The value of a number lexeme as a double. -/
def readBinary64? (cs : List Char) : Option Binary64 := do
  let l := Lexeme.split cs
  let (n, shift) := significand l
  let magnitude ← match l.power with
    | none => scale? n shift
    | some (down, digits) =>
      let e := Text.digitsValue digits
      if exponentLimit < e then (if n ≠ 0 ∧ down = false then none else some .zero)
      else scale? n (if down then shift - e else shift + e)
  return if l.negative then magnitude.neg else magnitude

/-- A double as it is written; what is not finite has no number. -/
def binary64 (x : Binary64) : Json :=
  if x.isFinite then .number (Binary64.Layout.cache.text x).toList else .null

end ShaderFront.Cache
