import ShaderFront.Binary64.Shortest

/-!
# Decimal notation

How the shortest digits of a number are laid out. A `Layout` fixes where positional notation
ends, how a positive exponent is marked and which way ties go; both layouts of this library always
show a point or an exponent, so a printed number is never mistaken for an integer.
-/

namespace ShaderFront.Binary64

/-- Positional notation is used for `10 ^ lowest ≤ x < 10 ^ (highest + 1)` and for zero; elsewhere an
exponent that is not negative may have a plus sign. -/
structure Layout where
  lowest : Int
  highest : Int
  plusSign : Bool
  tie : Tie

/-- The layout of a parameter shown to the user. -/
def Layout.display : Layout := ⟨-4, 15, false, .up⟩

/-- The layout of a number in a cache file. -/
def Layout.cache : Layout := ⟨-5, 15, true, .toEven⟩

/-- Digits with the point after the first `point` of them, filled up with zeros. -/
def positional (digits : List Char) (point : Int) : List Char :=
  if point ≤ 0 then '0' :: '.' :: List.replicate (-point).toNat '0' ++ digits
  else
    let whole := point.toNat
    if digits.length ≤ whole then
      digits ++ List.replicate (whole - digits.length) '0' ++ ['.', '0']
    else digits.take whole ++ '.' :: digits.drop whole

/-- One digit, a point if more follow, and the power of ten. -/
def scientific (plusSign : Bool) (digits : List Char) (order : Int) : List Char :=
  let head := match digits with
    | d :: e :: rest => d :: '.' :: e :: rest
    | ds => ds
  let sign := if plusSign && 0 ≤ order then ['+'] else []
  head ++ 'e' :: sign ++ (toString order).toList

/-- The text of a finite number. -/
def Layout.text (layout : Layout) (x : Binary64) : String :=
  let body :=
    if x.isZero then ['0', '.', '0']
    else
      let d := shortest layout.tie x
      let digits := (toString d.digits).toList
      let order := d.exponent + digits.length - 1
      if layout.lowest ≤ order ∧ order ≤ layout.highest then positional digits (order + 1)
      else scientific layout.plusSign digits order
  String.ofList (if x.negative then '-' :: body else body)

/-- The text of any number as shown to the user. -/
def display (x : Binary64) : String :=
  if x.isNaN then "NaN"
  else if x.isInfinite then (if x.negative then "-inf" else "inf")
  else Layout.display.text x

end ShaderFront.Binary64
