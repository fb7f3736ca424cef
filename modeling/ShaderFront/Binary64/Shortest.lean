import ShaderFront.Binary64.Basic

/-!
# Shortest decimal digits

The fewest significant digits whose decimal reads back as the given number, and of those the
decimal nearest to it. A decimal of `k` digits lies on a grid of powers of ten, and only the two
grid points beside the number can be the answer; the first grid with a point in the interval that
rounds to the number wins.
-/

namespace ShaderFront.Binary64

/-- What happens when two shortest decimals are equally near. -/
inductive Tie where
  | up
  | toEven
  deriving DecidableEq, Repr

/-- A positive decimal `digits * 10 ^ exponent` whose digits do not end in zero. -/
structure Decimal where
  digits : Nat
  exponent : Int
  deriving DecidableEq, Repr

/-- The reals that round to a number, as quotients over one denominator. -/
structure Interval where
  low : Nat
  value : Nat
  high : Nat
  den : Nat
  closed : Bool

/-- The interval of a finite positive number. Below a power of two the gap halves. -/
def interval (x : Binary64) : Interval :=
  let m := x.significand
  let narrow := m == leadingBit && 1 < x.exponentField
  let scale := if 0 ≤ x.exponent - 2 then Nat.pow 2 (x.exponent - 2).toNat else 1
  { low := (if narrow then 4 * m - 1 else 4 * m - 2) * scale
    value := 4 * m * scale
    high := (4 * m + 2) * scale
    den := if 0 ≤ x.exponent - 2 then 1 else Nat.pow 2 (2 - x.exponent).toNat
    closed := m % 2 == 0 }

/-- Whether `n / d` lies in the interval. -/
def Interval.holds (i : Interval) (n d : Nat) : Bool :=
  if i.closed then i.low * d ≤ n * i.den && n * i.den ≤ i.high * d
  else i.low * d < n * i.den && n * i.den < i.high * d

/-- Searches upwards from `e` for the exponent with `10 ^ e ≤ num / den < 10 ^ (e + 1)`. -/
def decimalOrderFrom (num den : Nat) : Nat → Int → Int
  | 0, e => e
  | fuel + 1, e =>
    let above := if 0 ≤ e + 1 then den * Nat.pow 10 (e + 1).toNat ≤ num
      else den ≤ num * Nat.pow 10 (-(e + 1)).toNat
    if above then decimalOrderFrom num den fuel (e + 1) else e

/-- The exponent `e` with `10 ^ e ≤ num / den < 10 ^ (e + 1)`: the estimate from the binary order
is never above it and misses it by one at most. -/
def decimalOrder (num den : Nat) : Int :=
  decimalOrderFrom num den 3 (binaryOrder num den * 30103 / 100000 - 1)

/-- The point of the grid with step `10 ^ e` that stands for the number, if one does. -/
def gridPoint (tie : Tie) (i : Interval) (e : Int) : Option Nat :=
  let up := if 0 ≤ e then Nat.pow 10 e.toNat else 1
  let down := if 0 ≤ e then 1 else Nat.pow 10 (-e).toNat
  let num := i.value * down
  let den := i.den * up
  let below := num / den
  let above := below + 1
  let lowHit := i.holds (below * up) down
  let highHit := i.holds (above * up) down
  if lowHit && highHit then
    let twice := 2 * (num % den)
    if twice < den then some below
    else if den < twice then some above
    else match tie with
      | .up => some above
      | .toEven => some (if below % 2 = 0 then below else above)
  else if lowHit then some below
  else if highHit then some above
  else none

/-- Tries grids of `k`, `k + 1`, … digits. -/
def shortestFrom (tie : Tie) (i : Interval) (order : Int) : Nat → Nat → Decimal
  | 0, _ => ⟨i.value / i.den, 0⟩
  | fuel + 1, k =>
    match gridPoint tie i (order + 1 - k) with
    | some d => ⟨d, order + 1 - k⟩
    | none => shortestFrom tie i order fuel (k + 1)

/-- Moves factors of ten from the digits to the exponent. -/
def Decimal.normalize (d : Decimal) : Nat → Decimal
  | 0 => d
  | fuel + 1 =>
    if d.digits ≠ 0 ∧ d.digits % 10 = 0 then
      Decimal.normalize ⟨d.digits / 10, d.exponent + 1⟩ fuel
    else d

/-- The shortest decimal of a finite positive number; seventeen digits always suffice. -/
def shortest (tie : Tie) (x : Binary64) : Decimal :=
  let i := x.interval
  (shortestFrom tie i (decimalOrder i.value i.den) 17 1).normalize 20

end ShaderFront.Binary64
