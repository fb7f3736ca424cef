import ShaderFront.Cache.Decoder
import ShaderFront.Cache.Number
import ShaderFront.Types.Ty

/-!
# Types in cache files

A scalar kind is written by its name. A type is a choice that carries its parts in an array, or its
one part alone.
-/

namespace ShaderFront.Cache

def scalarName : ScalarKind → String
  | .bool => "Bool"
  | .int => "Int"
  | .uint => "UInt"
  | .half => "Half"
  | .float => "Float"
  | .double => "Double"

def scalarOfName? (s : String) : Option ScalarKind :=
  ScalarKind.all.find? fun k => scalarName k == s

def scalarJson (k : ScalarKind) : Json := nameJson (scalarName k)

def decodeScalar : Decoder ScalarKind := Decoder.plainChoice scalarOfName?

def dimensionJson (n : UInt8) : Json := .ofNat n.toNat

/-- A synonym carries its name and its target, so types nest as deep as synonyms do. -/
def typeJson : Ty → Json
  | .void => nameJson "Void"
  | .scalar k => choiceJson "Scalar" (scalarJson k)
  | .vector k n => choiceJson "Vector" (.array [scalarJson k, dimensionJson n])
  | .matrix k r c => choiceJson "Matrix" (.array [scalarJson k, dimensionJson r, dimensionJson c])
  | .sampler => nameJson "Sampler"
  | .struct name => choiceJson "Struct" (textJson name)
  | .synonym name target => choiceJson "Alias" (.array [textJson name, typeJson target])

def decodeDimension : Decoder UInt8 := Decoder.number readUInt8?

/-- What a type carries, given how a type inside it is read. -/
def decodePayload (inner : Decoder Ty) (name : String) (depth : Nat) (value : Json) : Option Ty :=
  match name with
  | "Void" => match value with | .null => some .void | _ => none
  | "Sampler" => match value with | .null => some .sampler | _ => none
  | "Scalar" => (decodeScalar depth value).map .scalar
  | "Struct" => (Decoder.text depth value).map .struct
  | "Vector" => do
    match ← Decoder.items depth value with
    | (depth, [k, n]) => return .vector (← decodeScalar depth k) (← decodeDimension depth n)
    | _ => none
  | "Matrix" => do
    match ← Decoder.items depth value with
    | (depth, [k, r, c]) =>
      return .matrix (← decodeScalar depth k) (← decodeDimension depth r)
        (← decodeDimension depth c)
    | _ => none
  | "Alias" => do
    match ← Decoder.items depth value with
    | (depth, [n, t]) => return .synonym (← Decoder.text depth n) (← inner depth t)
    | _ => none
  | _ => none

/-- Reads a type. Each synonym nests two levels, so the levels left bound the number of synonyms. -/
def decodeTypeWithin : (synonyms : Nat) → Decoder Ty
  | 0 => fun _ _ => none
  | synonyms + 1 => fun depth j => do
    match ← Decoder.choice depth j with
    | ("Void", none) => return .void
    | ("Sampler", none) => return .sampler
    | (_, none) => none
    | (name, some (depth, value)) => decodePayload (decodeTypeWithin synonyms) name depth value

def decodeType : Decoder Ty := decodeTypeWithin maxNesting

end ShaderFront.Cache
