import ShaderFront.Diagnostic.Record
import ShaderFront.Syntax.Operator
import ShaderFront.Types.Conversion

/-!
# Findings

What the analysis can find wrong, as data: a `Problem` says what is wrong, and a `Finding` says
where. Code, severity, message and advice of the diagnostic follow from the problem. A rule of the
analysis yields a value together with its findings, in the order in which they were made.
-/

namespace ShaderFront

/-- Where two types had to be combined. -/
inductive Combining where
  | operator
  | expression
  | multiplication
  | division
  deriving DecidableEq, Repr

namespace Combining

def text : Combining → String
  | .operator => "a binary expression"
  | .expression => "an expression"
  | .multiplication => "a multiplication"
  | .division => "a division"

/-- The combined type, by the table of the place. -/
def apply (c : Combining) (left right : Ty) : Option Ty :=
  match c with
  | .operator => left.combine? right true
  | .expression => left.combine? right false
  | .multiplication => left.product? right
  | .division => left.quotient? right

end Combining

/-- What is defined once for each name. -/
inductive Namespace where
  | functions
  | types
  | fields
  deriving DecidableEq, Repr

namespace Namespace

def text : Namespace → String
  | .functions => "function"
  | .types => "type"
  | .fields => "field"

end Namespace

/-- What may be wrong, with all that its message tells. -/
inductive Problem where
  | deduction (place : Combining) (left right : Ty)
  | scalarConversion (left right : Ty)
  | unknownIdentifier (name : String)
  | unknownFunction (name : String)
  | unknownType (name : String)
  | noField (name : String) (type : Ty)
  | noMember (name : String) (type : Ty)
  | badSwizzle (name : String) (type : Ty)
  | indexType (type : Ty)
  | notIndexable (type : Ty)
  | indexOutOfRange (index : Int) (type : Ty)
  | store (value target : Ty)
  | voidVariable (name : String)
  | voidReturn (function : String)
  | valueExpected (function : String) (type : Ty)
  | badCast (value target : Ty)
  | constructorArgument (value target : Ty)
  | intrinsicArgument (function : String) (type : Ty)
  | crossOperand (type : Ty)
  | sampleOperands (function : String) (texture coordinates : Ty)
  | unaryOperand (op : UnaryOp) (type : Ty)
  | bitwiseOperand (type : Ty)
  | logicalOperands (op : BinaryOp) (left right : Ty)
  | integerOperands (op : BinaryOp) (left right : Ty)
  | notAssignable
  | notConstructible (type : Ty)
  | argumentCount (function : String) (expected found : Nat)
  | componentCount (type : Ty) (expected found : Nat)
  | duplicate (space : Namespace) (name : String)
  | redeclared (name : String)
  | truncation (value target : Ty)
  deriving DecidableEq, Repr

namespace Problem

/-- Every problem belongs to one code. -/
def code : Problem → Code
  | .deduction .. => .e2001
  | .scalarConversion .. => .e2002
  | .unknownIdentifier _ => .e2003
  | .unknownFunction _ => .e2004
  | .unknownType _ => .e2005
  | .noField .. | .noMember .. | .badSwizzle .. => .e2006
  | .indexType _ | .notIndexable _ | .indexOutOfRange .. => .e2007
  | .store .. | .voidVariable _ | .voidReturn _ | .valueExpected .. | .badCast ..
  | .constructorArgument .. | .intrinsicArgument .. | .crossOperand _ | .sampleOperands .. => .e2008
  | .unaryOperand .. | .bitwiseOperand _ | .logicalOperands .. | .integerOperands ..
  | .notAssignable | .notConstructible _ => .e2009
  | .argumentCount .. | .componentCount .. => .e2010
  | .duplicate .. | .redeclared _ => .e2011
  | .truncation .. => .w2001

/-- A truncation is a warning; every other problem is an error. -/
def severity : Problem → Severity
  | .truncation .. => .warning
  | _ => .error

def message : Problem → String
  | .deduction place l r =>
    s!"cannot deduce the type of {place.text} between `{l.display}` and `{r.display}`"
  | .scalarConversion l r =>
    s!"no implicit scalar conversion between `{l.display}` and `{r.display}`"
  | .unknownIdentifier n => s!"unknown identifier `{n}`"
  | .unknownFunction n => s!"unknown function `{n}`"
  | .unknownType n => s!"unknown type `{n}`"
  | .noField n ty => s!"no field `{n}` on type `{ty.display}`"
  | .noMember n ty => s!"type `{ty.display}` has no member `{n}`"
  | .badSwizzle n ty => s!"invalid swizzle `{n}` on `{ty.display}`"
  | .indexType ty => s!"index must be an integer scalar, found `{ty.display}`"
  | .notIndexable ty => s!"type `{ty.display}` cannot be indexed"
  | .indexOutOfRange i ty => s!"index {i} is out of range for `{ty.display}`"
  | .store v t => s!"cannot convert `{v.display}` to `{t.display}`"
  | .voidVariable n => s!"variable `{n}` cannot have type `void`"
  | .voidReturn f => s!"`{f}` returns `void` but a value is returned"
  | .valueExpected f ty => s!"`{f}` must return a value of type `{ty.display}`"
  | .badCast v t => s!"cannot cast `{v.display}` to `{t.display}`"
  | .constructorArgument v t => s!"cannot use `{v.display}` in a `{t.display}` constructor"
  | .intrinsicArgument f ty => s!"`{f}` cannot take an argument of type `{ty.display}`"
  | .crossOperand ty => s!"`cross` needs 3-component vectors, found `{ty.display}`"
  | .sampleOperands f s c =>
    s!"`{f}` expects a sampler and coordinates, found `{s.display}` and `{c.display}`"
  | .unaryOperand op ty => s!"cannot apply unary `{op.symbol}` to `{ty.display}`"
  | .bitwiseOperand ty => s!"`~` needs integer operands, found `{ty.display}`"
  | .logicalOperands op l r =>
    s!"`{op.symbol}` needs scalar or vector operands, found `{l.display}` and `{r.display}`"
  | .integerOperands op l r =>
    s!"`{op.symbol}` needs integer operands, found `{l.display}` and `{r.display}`"
  | .notAssignable => "left side of assignment is not assignable"
  | .notConstructible ty => s!"`{ty.display}` cannot be constructed"
  | .argumentCount f expected found =>
    s!"`{f}` takes {expected} argument(s) but {found} were supplied"
  | .componentCount ty expected found =>
    s!"`{ty.display}` constructor expects {expected} components, found {found}"
  | .duplicate space n => s!"{space.text} `{n}` is defined more than once"
  | .redeclared n => s!"`{n}` is already declared in this scope"
  | .truncation v t => s!"implicit truncation from `{v.display}` to `{t.display}`"

/-- A matrix that met something that is not one was probably meant for a matrix product. -/
def suggestions : Problem → List String
  | .deduction _ l r =>
    if l.isMatrix != r.isMatrix && l.isNumeric && r.isNumeric then
      ["use `mul(a, b)` for matrix products"]
    else []
  | _ => []

end Problem

/-- A problem and the span at which it is reported. -/
structure Finding where
  problem : Problem
  span : Span
  deriving DecidableEq, Repr

namespace Finding

/-- The diagnostic of a finding, with its place as the only label. -/
def diagnostic (f : Finding) : Diagnostic where
  code := f.problem.code
  severity := f.problem.severity
  message := f.problem.message
  labels := [⟨f.span, "", true⟩]
  suggestions := f.problem.suggestions

theorem severity_diagnostic (f : Finding) :
    f.diagnostic.severity = if f.diagnostic.code = .w2001 then .warning else .error := by
  obtain ⟨problem, span⟩ := f
  cases problem <;> rfl

end Finding

/-- A value, and what was found on the way to it. -/
structure Reported (α : Type) where
  value : α
  findings : List Finding := []
  deriving DecidableEq, Repr

namespace Reported

variable {α β : Type}

instance : Monad Reported where
  pure a := ⟨a, []⟩
  bind x f := ⟨(f x.value).value, x.findings ++ (f x.value).findings⟩

/-- One finding. -/
def find (problem : Problem) (span : Span) : Reported Unit := ⟨(), [⟨problem, span⟩]⟩

/-- No value, for the given reason. -/
def reject (problem : Problem) (span : Span) : Reported (Option α) := ⟨none, [⟨problem, span⟩]⟩

/-- A value, or the reason why there is none. -/
def orReject (value : Option α) (problem : Problem) (span : Span) : Reported (Option α) :=
  match value with
  | some a => ⟨some a, []⟩
  | none => reject problem span

@[simp] theorem value_pure (a : α) : (pure a : Reported α).value = a := rfl

@[simp] theorem findings_pure (a : α) : (pure a : Reported α).findings = [] := rfl

@[simp] theorem value_bind (x : Reported α) (f : α → Reported β) :
    (x >>= f).value = (f x.value).value := rfl

@[simp] theorem findings_bind (x : Reported α) (f : α → Reported β) :
    (x >>= f).findings = x.findings ++ (f x.value).findings := rfl

@[simp] theorem value_orReject (value : Option α) (problem : Problem) (span : Span) :
    (orReject value problem span).value = value := by
  cases value <;> rfl

end Reported
end ShaderFront
