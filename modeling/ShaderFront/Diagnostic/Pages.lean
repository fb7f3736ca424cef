import ShaderFront.Diagnostic.Code

/-!
# Explanations of diagnostic codes

The page that explains each code, with an example and a way to mend it. Every code has one.
-/

namespace ShaderFront.Code

/-- The lines of the page of a code. -/
def pageLines : Code → List String
  | .e2001 =>
    ["# E2001: Binary Type Deduction (`ErrorBinaryTypeDeduction`)",
      "",
      "The two operands of a binary expression have no common type under the",
      "implicit conversion rules.",
      "",
      "## Example",
      "",
      "```hlsl",
      "float3 a;",
      "float4 b;",
      "float4 c = a + b; // error: float3 and float4 have different arity",
      "```",
      "",
      "## Rules",
      "",
      "- Scalars promote along `bool < int < uint < half < float < double`.",
      "- A scalar combines with a vector or matrix only under an operator, where it",
      "  is broadcast to every component.",
      "- Vectors combine only with vectors of the same arity, matrices only with",
      "  matrices of the same dimensions.",
      "- `*` additionally allows matrix-vector and matrix-matrix products when the",
      "  inner dimensions agree.",
      "- Samplers never convert. Structs only match the same struct outside",
      "  operators.",
      "",
      "## Solution",
      "",
      "Make the shapes agree with a swizzle or a constructor:",
      "",
      "```hlsl",
      "float4 c = float4(a, 0) + b;",
      "```"]
  | .e2002 =>
    ["# E2002: Scalar Type Conversion (`ErrorScalarTypeConversion`)",
      "",
      "Two values were required to share a scalar type, but at least one of them is",
      "not a scalar.",
      "",
      "## Example",
      "",
      "```hlsl",
      "float3 v;",
      "int i = 1;",
      "// scalar promotion between `float3` and `int` is undefined",
      "```",
      "",
      "## Solution",
      "",
      "Extract a component (`v.x`) or cast explicitly."]
  | .e2003 =>
    ["# E2003: Unknown Identifier (`ErrorUnknownIdentifier`)",
      "",
      "A name is used that is not declared as a local, parameter or global in any",
      "enclosing scope.",
      "",
      "## Example",
      "",
      "```hlsl",
      "float4 main() \x7b",
      "    return color; // error: `color` is not declared",
      "\x7d",
      "```",
      "",
      "## Solution",
      "",
      "Declare the variable, or fix the spelling."]
  | .e2004 =>
    ["# E2004: Unknown Function (`ErrorUnknownFunction`)",
      "",
      "A call names something that is neither a function defined in the shader nor",
      "a builtin type constructor such as `float3`.",
      "",
      "## Example",
      "",
      "```hlsl",
      "float x = lerpp(a, b, 0.5); // error",
      "```",
      "",
      "## Solution",
      "",
      "Define the function before calling it, or fix the spelling."]
  | .e2005 =>
    ["# E2005: Unknown Type (`ErrorUnknownType`)",
      "",
      "A type name is not a builtin (`float`, `int3`, `float4x4`, `sampler`, ...),",
      "a struct defined in the shader, or a typedef.",
      "",
      "## Example",
      "",
      "```hlsl",
      "vec3 normal; // error: `vec3` is not a type here, use `float3`",
      "```"]
  | .e2006 =>
    ["# E2006: Unknown Member (`ErrorUnknownMember`)",
      "",
      "A member access names a field the struct does not have, or a swizzle that is",
      "invalid for the vector.",
      "",
      "Swizzles use one component set (`xyzw` or `rgba`), are 1 to 4 characters long",
      "and may only name components the vector has.",
      "",
      "## Example",
      "",
      "```hlsl",
      "float2 uv;",
      "float z = uv.z;    // error: float2 has no `z`",
      "float4 c = uv.xyba; // error: mixed component sets",
      "```"]
  | .e2007 =>
    ["# E2007: Invalid Index (`ErrorInvalidIndex`)",
      "",
      "Only vectors (yielding a scalar) and matrices (yielding a row vector) can be",
      "indexed, and the index must be an integer scalar.",
      "",
      "## Example",
      "",
      "```hlsl",
      "float f;",
      "float g = f[0]; // error",
      "```"]
  | .e2008 =>
    ["# E2008: Type Mismatch (`ErrorTypeMismatch`)",
      "",
      "A value is assigned, returned or used to initialize a variable whose declared",
      "type it cannot be converted to.",
      "",
      "## Example",
      "",
      "```hlsl",
      "float3 n = 1.0.xx; // error: float2 cannot become float3",
      "```",
      "",
      "## Solution",
      "",
      "Use a constructor or a swizzle that produces the declared shape."]
  | .e2009 =>
    ["# E2009: Invalid Operand (`ErrorInvalidOperand`)",
      "",
      "An operator was applied to an operand type it does not accept, for example a",
      "logical or bitwise operator on a struct or sampler.",
      "",
      "## Example",
      "",
      "```hlsl",
      "Light l;",
      "bool b = !l; // error",
      "```"]
  | .e2010 =>
    ["# E2010: Argument Count (`ErrorArgumentCount`)",
      "",
      "A function call passes a different number of arguments than the function",
      "declares.",
      "",
      "## Example",
      "",
      "```hlsl",
      "float scale(float x, float by) \x7b return x * by; \x7d",
      "float y = scale(2.0); // error: expected 2 arguments",
      "```"]
  | .e2011 =>
    ["# E2011: Duplicate Definition (`ErrorDuplicateDefinition`)",
      "",
      "A struct, typedef, function, global or local is defined twice in the same",
      "scope.",
      "",
      "## Example",
      "",
      "```hlsl",
      "struct Light \x7b float3 color; \x7d;",
      "struct Light \x7b float intensity; \x7d; // error",
      "```"]
  | .w2001 =>
    ["# W2001: Implicit Truncation (`WarningImplicitTruncation`)",
      "",
      "A value is stored into a narrower scalar kind than its own, for example a",
      "`float` into an `int`. The value is converted, but precision may be lost.",
      "",
      "## Example",
      "",
      "```hlsl",
      "int i = 2.5; // warning: float truncated to int",
      "```",
      "",
      "## Solution",
      "",
      "Write the conversion explicitly: `int i = (int)2.5;`"]
  | .i0001 =>
    ["# I0001: Note (`InfoNote`)",
      "",
      "Informational message emitted by an analysis pass. It never affects the",
      "result of a compile."]

/-- The page of a code as one text. -/
def page (c : Code) : String :=
  String.join (c.pageLines.map (· ++ "\n"))

end ShaderFront.Code
