import ShaderFront.Text.Numeral
import ShaderFront.Types.ScalarKind

/-!
# Shader types

The types of the language: scalars, vectors and matrices over a scalar kind, samplers, structs by
name, and synonyms, which stand for the type they name. Questions about the shape of a type look
through synonyms.
-/

namespace ShaderFront

inductive Ty where
  | void
  | scalar (element : ScalarKind)
  | vector (element : ScalarKind) (size : UInt8)
  | matrix (element : ScalarKind) (rows columns : UInt8)
  | sampler
  | struct (name : String)
  | synonym (name : String) (target : Ty)
  deriving DecidableEq, Repr, Inhabited

namespace Ty

/-- The largest vector size and matrix dimension. -/
def maxDimension : UInt8 := 4

/-- The type behind all synonyms. -/
def resolve : Ty → Ty
  | .synonym _ target => target.resolve
  | ty => ty

/-- The name under which a type is shown. -/
def display : Ty → String
  | .void => "void"
  | .scalar k => k.name
  | .vector k n => s!"{k.name}{n.toNat}"
  | .matrix k r c => s!"{k.name}{r.toNat}x{c.toNat}"
  | .sampler => "sampler"
  | .struct name => name
  | .synonym name _ => name

/-- Reads a vector size or a matrix dimension. -/
def readDimension? (cs : List Char) : Option UInt8 :=
  ((Text.readUnsigned? cs).filter fun n => 1 ≤ n && n ≤ maxDimension.toNat).map UInt8.ofNat

/-- Reads what follows the kind in a type name: nothing, a size, or rows and columns. -/
def ofShape? (k : ScalarKind) (dims : List Char) : Option Ty :=
  if dims.isEmpty then some (.scalar k)
  else if dims.contains 'x' then do
    let rows ← readDimension? (dims.takeWhile (· != 'x'))
    let columns ← readDimension? ((dims.dropWhile (· != 'x')).drop 1)
    return .matrix k rows columns
  else (readDimension? dims).map (.vector k)

/-- The type with a built-in name. The names of structs and synonyms are not built in. -/
def ofBuiltinName? (name : String) : Option Ty :=
  if name = "void" then some .void
  else if name = "sampler" ∨ name = "sampler2D" ∨ name = "SamplerState" then some .sampler
  else
    let base := name.toList.takeWhile (!·.isDigit)
    let dims := name.toList.dropWhile (!·.isDigit)
    (ScalarKind.ofName? (String.ofList base)).bind fun k => ofShape? k dims

/-- The element kind of a numeric type. -/
def element? (ty : Ty) : Option ScalarKind :=
  match ty.resolve with
  | .scalar k | .vector k _ | .matrix k _ _ => some k
  | _ => none

/-- A numeric type with another element kind; other types are only resolved. -/
def withElement (ty : Ty) (k : ScalarKind) : Ty :=
  match ty.resolve with
  | .scalar _ => .scalar k
  | .vector _ n => .vector k n
  | .matrix _ r c => .matrix k r c
  | other => other

/-- How many scalars make up a numeric type; none make up the others. -/
def componentCount (ty : Ty) : Nat :=
  match ty.resolve with
  | .scalar _ => 1
  | .vector _ n => n.toNat
  | .matrix _ r c => r.toNat * c.toNat
  | _ => 0

/-- How many scalars make up all of the types. -/
def totalComponents : List Ty → Nat
  | [] => 0
  | ty :: rest => ty.componentCount + totalComponents rest

def isScalar (ty : Ty) : Bool :=
  match ty.resolve with
  | .scalar _ => true
  | _ => false

def isVector (ty : Ty) : Bool :=
  match ty.resolve with
  | .vector .. => true
  | _ => false

def isMatrix (ty : Ty) : Bool :=
  match ty.resolve with
  | .matrix .. => true
  | _ => false

/-- A scalar, a vector or a matrix. -/
def isNumeric (ty : Ty) : Bool := ty.element?.isSome

def isVoid (ty : Ty) : Bool :=
  match ty.resolve with
  | .void => true
  | _ => false

@[simp] theorem resolve_synonym (name : String) (target : Ty) :
    (synonym name target).resolve = target.resolve := rfl

@[simp] theorem resolve_resolve (ty : Ty) : ty.resolve.resolve = ty.resolve := by
  induction ty with
  | synonym name target ih => exact ih
  | _ => rfl

theorem resolve_ne_synonym (ty : Ty) (name : String) (target : Ty) :
    ty.resolve ≠ synonym name target := by
  induction ty with
  | synonym _ _ ih => exact ih
  | _ => simp [resolve]

end Ty
end ShaderFront
