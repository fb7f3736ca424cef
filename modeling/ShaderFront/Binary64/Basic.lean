/-!
# Double-precision numbers

A `Binary64` is the 64 bits of an IEEE 754 double: a sign, an eleven-bit exponent field and a
fraction of 52 bits. Finite values are `significand * 2 ^ exponent`. Everything that reads or
prints such a number is exact arithmetic on these two, so nothing depends on a machine's floating
point unit.
-/

namespace ShaderFront

/-- A double by its bits. Two doubles are the same data if their bits are, whatever they compare as.
-/
structure Binary64 where
  bits : UInt64
  deriving DecidableEq, Repr, Inhabited

namespace Binary64

/-- The weight of the sign bit. -/
def signBit : Nat := 0x8000000000000000

/-- The weight of the lowest bit of the exponent field, which is also the leading bit of a
significand that has all its places. -/
def leadingBit : Nat := 0x10000000000000

def negative (x : Binary64) : Bool := x.bits.toNat / signBit == 1

/-- The number without its sign bit. -/
def magnitude (x : Binary64) : Nat := x.bits.toNat % signBit

/-- The eleven bits between the sign and the fraction. -/
def exponentField (x : Binary64) : Nat := x.magnitude / leadingBit

/-- The lowest 52 bits. -/
def fraction (x : Binary64) : Nat := x.magnitude % leadingBit

/-- The magnitude at which the numbers end: the bits of positive infinity. -/
def infinityMagnitude : Nat := 2047 * leadingBit

def isNaN (x : Binary64) : Bool := infinityMagnitude < x.magnitude

def isInfinite (x : Binary64) : Bool := x.magnitude == infinityMagnitude

def isFinite (x : Binary64) : Bool := x.magnitude < infinityMagnitude

def isZero (x : Binary64) : Bool := x.magnitude == 0

/-- A finite value is `significand * 2 ^ exponent`. -/
def significand (x : Binary64) : Nat :=
  if x.exponentField = 0 then x.fraction else x.fraction + leadingBit

def exponent (x : Binary64) : Int :=
  if x.exponentField = 0 then -1074 else x.exponentField - 1075

/-- The double with a sign and the bits behind it. -/
def ofMagnitude (negative : Bool) (magnitude : Nat) : Binary64 :=
  ⟨UInt64.ofNat (if negative then magnitude + signBit else magnitude)⟩

def zero : Binary64 := ⟨0⟩

def infinity : Binary64 := ofMagnitude false infinityMagnitude

/-- A quiet NaN without a sign, as arithmetic yields it. -/
def nan : Binary64 := ofMagnitude false (infinityMagnitude + leadingBit / 2)

def neg (x : Binary64) : Binary64 := ofMagnitude (!x.negative) x.magnitude

/-- Equality of numbers: the two zeros are equal and a NaN equals nothing. -/
def same (x y : Binary64) : Bool :=
  !x.isNaN && !y.isNaN && (x.bits == y.bits || (x.isZero && y.isZero))

theorem same_self_iff {x : Binary64} : x.same x = true ↔ x.isNaN = false := by
  simp [same]

/-! ## Rounding a quotient -/

/-- The integer nearest to `num / den`, an exact half going to the even neighbour. -/
def roundHalfEven (num den : Nat) : Nat :=
  let q := num / den
  let r := num % den
  if 2 * r < den then q else if den < 2 * r then q + 1 else if q % 2 = 0 then q else q + 1

/-- The exponent `e` with `2 ^ e ≤ num / den < 2 ^ (e + 1)`. -/
def binaryOrder (num den : Nat) : Int :=
  let e : Int := (num.log2 : Int) - den.log2
  let reached := if 0 ≤ e then den * Nat.pow 2 e.toNat ≤ num else den ≤ num * Nat.pow 2 (-e).toNat
  if reached then e else e - 1

/-- The magnitude of the double nearest to `num / den`, ties to even; too large a quotient gives
the magnitude of infinity. -/
def nearestMagnitude (num den : Nat) : Nat :=
  if num = 0 || den = 0 then 0
  else
    let e := max (binaryOrder num den - 52) (-1074)
    let m := if 0 ≤ e then roundHalfEven num (den * Nat.pow 2 e.toNat)
      else roundHalfEven (num * Nat.pow 2 (-e).toNat) den
    min ((e + 1074).toNat * leadingBit + m) infinityMagnitude

/-- The double nearest to `num / den`, with the given sign. -/
def nearest (negative : Bool) (num den : Nat) : Binary64 :=
  ofMagnitude negative (nearestMagnitude num den)

/-- The double nearest to a natural number. -/
def ofNat (n : Nat) : Binary64 := nearest false n 1

/-- The absolute value as a quotient of whole numbers. -/
def quotient (x : Binary64) : Nat × Nat :=
  if 0 ≤ x.exponent then (x.significand * Nat.pow 2 x.exponent.toNat, 1)
  else (x.significand, Nat.pow 2 (-x.exponent).toNat)

/-- The nearest double to the product of two finite positive numbers. -/
def scaleUp (x y : Binary64) : Binary64 :=
  let (a, b) := x.quotient
  let (c, d) := y.quotient
  nearest false (a * c) (b * d)

/-- The nearest double to the quotient of two finite positive numbers. -/
def scaleDown (x y : Binary64) : Binary64 :=
  let (a, b) := x.quotient
  let (c, d) := y.quotient
  nearest false (a * d) (b * c)

end Binary64
end ShaderFront
