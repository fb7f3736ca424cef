import ShaderFront.Binary64.Basic
import ShaderFront.Text.Numeral

/-!
# Reading decimals

The decimal grammar of a number typed by a user: an optional sign, then `inf`, `infinity` or `nan`
in any case, or digits with at most one point and at least one digit, and an optional exponent.
The value is the nearest double, ties to even.
-/

namespace ShaderFront.Binary64

/-- The double nearest to `digits * 10 ^ exponent`. Exponents far outside the range of doubles are
settled without computing the power. -/
def ofDecimal (negative : Bool) (digits : Nat) (exponent : Int) : Binary64 :=
  let order := exponent + (digits.log2 : Int) / 4
  if digits = 0 || exponent + (digits.log2 : Int) < -1100 then ofMagnitude negative 0
  else if 1100 < order then ofMagnitude negative infinityMagnitude
  else if 0 ≤ exponent then nearest negative (digits * Nat.pow 10 exponent.toNat) 1
  else nearest negative digits (Nat.pow 10 (-exponent).toNat)

/-- Reads the part after the exponent mark. -/
def readExponent? (cs : List Char) : Option Int :=
  Text.readSigned? cs

/-- Reads digits, a point and an exponent, without a sign. -/
def readMagnitude? (negative : Bool) (cs : List Char) : Option Binary64 :=
  let whole := cs.takeWhile Char.isDigit
  let rest := cs.dropWhile Char.isDigit
  let (places, rest) := match rest with
    | '.' :: more => (more.takeWhile Char.isDigit, more.dropWhile Char.isDigit)
    | _ => ([], rest)
  if whole.isEmpty && places.isEmpty then none
  else
    let digits := Text.digitsValue (whole ++ places)
    match rest with
    | [] => some (ofDecimal negative digits (-(places.length : Int)))
    | c :: cs =>
      if c = 'e' ∨ c = 'E' then
        (readExponent? cs).map fun e => ofDecimal negative digits (e - places.length)
      else none

/-- Reads the names of the numbers that have no digits. -/
def readNamed? (negative : Bool) (cs : List Char) : Option Binary64 :=
  let name := String.ofList (cs.map Char.toLower)
  if name = "inf" ∨ name = "infinity" then some (ofMagnitude negative infinityMagnitude)
  else if name = "nan" then some (ofMagnitude negative nan.magnitude)
  else none

/-- Reads a decimal without blanks around it. -/
def read? (s : String) : Option Binary64 :=
  let (negative, cs) := match s.toList with
    | '-' :: cs => (true, cs)
    | '+' :: cs => (false, cs)
    | cs => (false, cs)
  (readNamed? negative cs).or (readMagnitude? negative cs)

end ShaderFront.Binary64
