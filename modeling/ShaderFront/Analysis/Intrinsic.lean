/-!
# Intrinsic functions

The functions that every unit may call without declaring them, grouped by how the type of a call
follows from the types of its arguments.
-/

namespace ShaderFront

/-- How the type of a call follows from the types of its arguments. -/
inductive Intrinsic where
  /-- The shape of the argument. -/
  | componentwise
  /-- A scalar of the argument's kind. -/
  | length
  /-- A scalar of the combined kind of both arguments. -/
  | dot
  /-- The combined type of both arguments. -/
  | pairwise
  /-- The combined type of all three arguments. -/
  | interpolate
  /-- A product of matrix algebra. -/
  | multiply
  /-- A vector of three components. -/
  | cross
  /-- A sample of four components from a sampler and coordinates. -/
  | sample
  deriving DecidableEq, Repr

namespace Intrinsic

/-- How many arguments a call takes. -/
def arity : Intrinsic → Nat
  | .componentwise | .length => 1
  | .dot | .pairwise | .multiply | .cross | .sample => 2
  | .interpolate => 3

/-- The functions that work on each component by itself. -/
def componentwiseNames : List String :=
  ["abs", "ceil", "cos", "ddx", "ddy", "exp", "exp2", "floor", "frac", "log", "log2", "normalize",
    "round", "rsqrt", "saturate", "sin", "sqrt", "tan"]

/-- The functions of two arguments of one type. -/
def pairwiseNames : List String := ["atan2", "fmod", "max", "min", "pow", "reflect", "step"]

/-- The group of a function, if its name is that of an intrinsic. -/
def ofName? (name : String) : Option Intrinsic :=
  if componentwiseNames.contains name then some .componentwise
  else if name = "length" then some .length
  else if name = "dot" ∨ name = "distance" then some .dot
  else if pairwiseNames.contains name then some .pairwise
  else if name = "clamp" ∨ name = "lerp" ∨ name = "smoothstep" then some .interpolate
  else if name = "mul" then some .multiply
  else if name = "cross" then some .cross
  else if name = "tex2D" ∨ name = "sample" then some .sample
  else none

end Intrinsic
end ShaderFront
