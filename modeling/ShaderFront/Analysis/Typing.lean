import ShaderFront.Analysis.Intrinsic
import ShaderFront.Analysis.Items
import ShaderFront.Analysis.Scope

/-!
# Typing rules

The type of an expression from its form and its operands. An operand that has no type has been
reported before, and an expression that needs its type has none either, without another report. So
each defect is reported once.
-/

namespace ShaderFront

/-- What a rule sees of an operand: its type, its place, and its form behind any parentheses. -/
structure Operand where
  type : Option Ty
  span : Span
  core : ExprForm ExprId
  deriving DecidableEq, Repr

namespace Operand

/-- Only names, members and elements can be assigned to. -/
def isAssignable (o : Operand) : Bool :=
  match o.core with
  | .ident _ | .member .. | .index .. => true
  | _ => false

/-- The value of an integer literal. -/
def constant? (o : Operand) : Option Int :=
  match o.core with
  | .literal (.int n) => some n.toInt
  | .literal (.uint n) => some n.toNat
  | _ => none

end Operand

/-- What the rules know apart from the operands. -/
structure Rules where
  items : ItemTable
  warnOnTruncation : Bool

/-- Literals are scalars. -/
def Literal.type : Literal → Ty
  | .bool _ => .scalar .bool
  | .int _ => .scalar .int
  | .uint _ => .scalar .uint
  | .half _ => .scalar .half
  | .float _ => .scalar .float
  | .double _ => .scalar .double

/-- The component sets a swizzle may draw from, in order of position. -/
def swizzleSets : List (List Char) := [['x', 'y', 'z', 'w'], ['r', 'g', 'b', 'a']]

/-- The type of a swizzle of a value with `size` components. All components come from one set. -/
def swizzle? (k : ScalarKind) (size : UInt8) (member : String) : Option Ty :=
  let cs := member.toList
  let length := member.utf8ByteSize
  if length < 1 ∨ Ty.maxDimension.toNat < length then none
  else
    match swizzleSets.find? fun set => cs.all set.contains with
    | none => none
    | some set =>
      if cs.all fun c => set.idxOf c < size.toNat then
        some (if length = 1 then .scalar k else .vector k (UInt8.ofNat length))
      else none

namespace Rules

/-- The combined type of two operands, or a report. -/
def combine (place : Combining) (span : Span) (left right : Ty) : Reported (Option Ty) :=
  .orReject (place.apply left right) (.deduction place left right) span

/-- The promoted kind of two scalars, or a report. -/
def scalar (span : Span) (left right : Ty) : Reported (Option ScalarKind) :=
  .orReject (left.scalarKind? right) (.scalarConversion left right) span

/-- A condition has to be a scalar. -/
def condition (span : Span) (type : Ty) : Reported (Option ScalarKind) :=
  scalar span type (.scalar .bool)

/-- A name has the type it is bound to. A name that is bound to no type is passed over in silence.
-/
def identifier (scope : Scope) (name : String) (span : Span) : Reported (Option Ty) :=
  match scope.lookup? name with
  | some binding => pure binding
  | none => .reject (.unknownIdentifier name) span

/-- Operators on one value keep its type, except for `!`, which gives truth values. -/
def unary (op : UnaryOp) (ty : Ty) (span : Span) : Reported (Option Ty) :=
  match ty.element? with
  | none => .reject (.unaryOperand op ty) span
  | some k =>
    match op with
    | .not => pure (some (ty.withElement .bool))
    | .bitNot => if k.isIntegral then pure (some ty) else .reject (.bitwiseOperand ty) span
    | .increment | .decrement =>
      if k = .bool then .reject (.unaryOperand op ty) span else pure (some ty)
    | .neg => pure (some ty)

/-- The type with its elements replaced by truth values. -/
def truth (ty : Option Ty) : Option Ty := ty.map (·.withElement .bool)

/-- The operands are combined by the table of the operator. Comparisons and logical operators give
truth values of the combined shape, and bitwise operators need integers or truth values. -/
def binary (op : BinaryOp) (left right : Ty) (span : Span) : Reported (Option Ty) :=
  match op with
  | .mul => combine .multiplication span left right
  | .div => combine .division span left right
  | .add | .sub | .mod => combine .operator span left right
  | .eq | .notEq | .lt | .ltEq | .gt | .gtEq =>
    return truth (← combine .operator span left right)
  | .and | .or =>
    if left.isMatrix || right.isMatrix then .reject (.logicalOperands op left right) span
    else return truth (← combine .operator span left right)
  | .bitAnd | .bitOr | .bitXor | .shl | .shr => do
    match ← combine .operator span left right with
    | none => return none
    | some combined =>
      if combined.element?.any fun k => k.isIntegral || k == .bool then return some combined
      else .reject (.integerOperands op left right) span

/-- Branches combine outside operators. The condition is a scalar, or a vector that chooses
component by component between branches of its size. -/
def conditional (condition yes no : Operand) (span : Span) : Reported (Option Ty) := do
  let branches ← match yes.type, no.type with
    | some y, some n => combine .expression span y n
    | _, _ => pure none
  match condition.type with
  | none => return none
  | some ty =>
    if ty.isVector && branches.isNone then return none
    else if ty.isVector
        && branches.any (fun b => b.isVector && b.componentCount == ty.componentCount) then
      return branches
    else
      match ← Rules.condition condition.span ty with
      | none => return none
      | some _ => return branches

def swizzle (k : ScalarKind) (size : UInt8) (name : String) (ty : Ty) (span : Span) :
    Reported (Option Ty) :=
  .orReject (swizzle? k size name) (.badSwizzle name ty) span

/-- Where a store finds a value, whether it fits, and whether something is lost. -/
def store (r : Rules) (span : Span) (value target : Ty) : Reported Unit :=
  match Conversion.ofStore? value target with
  | none => .find (.store value target) span
  | some .narrow =>
    if r.warnOnTruncation then .find (.truncation value target) span else pure ()
  | some _ => pure ()

/-- A field of a struct, or a swizzle of a scalar or a vector. -/
def member (r : Rules) (ty : Ty) (name : String) (span : Span) : Reported (Option Ty) :=
  match ty.resolve with
  | .struct s =>
    match (r.items.struct? s).bind (·.field? name) with
    | some field => pure field
    | none => .reject (.noField name ty) span
  | .scalar k => swizzle k 1 name ty span
  | .vector k n => swizzle k n name ty span
  | _ => .reject (.noMember name ty) span

/-- What an index selects from a type, and how many choices there are. -/
def indexed? (ty : Ty) : Option (Ty × Nat) :=
  match ty.resolve with
  | .vector k n => some (.scalar k, n.toNat)
  | .matrix k r c => some (.vector k c, r.toNat)
  | _ => none

/-- An index is an integer. If it is constant, it is checked against the number of choices. -/
def index (target position : Ty) (operand : Operand) (span : Span) : Reported (Option Ty) :=
  if (position.isScalar && position.element?.any (·.isIntegral)) = false then
    .reject (.indexType position) operand.span
  else
    match indexed? target with
    | none => .reject (.notIndexable target) span
    | some (selected, size) =>
      match operand.constant? with
      | none => pure (some selected)
      | some i =>
        if i < 0 ∨ (size : Int) ≤ i then .reject (.indexOutOfRange i target) operand.span
        else pure (some selected)

/-- Numeric types cast to each other, every other type only to itself. -/
def cast (value target : Ty) (span : Span) : Reported Unit :=
  if (value.isNumeric && target.isNumeric) || value.resolve == target.resolve then pure ()
  else .find (.badCast value target) span

/-- An assignment has the type of its target. A compound one stores what its operator gives. -/
def assign (r : Rules) (op : AssignOp) (target value : Operand) (span : Span) :
    Reported (Option Ty) :=
  match target.type, value.type with
  | some place, some ty =>
    if target.isAssignable = false then .reject .notAssignable target.span
    else do
      let stored ← match op.operation? with
        | none => pure (some ty)
        | some op => binary op place ty span
      match stored with
      | none => return none
      | some stored =>
        r.store value.span stored place
        return some place
  | _, _ => pure none

/-- The types of the arguments of a call, if all of them have one. -/
def argumentTypes (args : List Operand) : Option (List Ty) := args.mapM (·.type)

/-- The arguments of a constructor fill its components exactly, or one scalar fills all. -/
def construct (target : Ty) (args : List Operand) (types : List Ty) (span : Span) :
    Reported Unit :=
  if target.isNumeric = false then .find (.notConstructible target) span
  else
    match (args.zip types).find? fun (_, ty) => !ty.isNumeric with
    | some (arg, ty) => .find (.constructorArgument ty target) arg.span
    | none =>
      let found := Ty.totalComponents types
      let splat := match types with
        | [ty] => ty.isScalar
        | _ => false
      if splat || found == target.componentCount then pure ()
      else .find (.componentCount target target.componentCount found) span

/-- Each argument is stored into its parameter. -/
def storeArguments (r : Rules) :
    List Operand → List Ty → List (String × Option Ty) → Reported Unit
  | arg :: args, ty :: types, (_, param) :: params => do
    match param with
    | some target => r.store arg.span ty target
    | none => pure ()
    r.storeArguments args types params
  | _, _, _ => pure ()

/-- A call of a function of the unit. The call has the function's type even if its arguments are
wrong. -/
def callFunction (r : Rules) (sig : FunctionSig) (args : List Operand) (span : Span) :
    Reported (Option Ty) := do
  match argumentTypes args with
  | none => pure ()
  | some types =>
    if sig.params.length = types.length then r.storeArguments args types sig.params
    else .find (.argumentCount sig.name sig.params.length types.length) span
  return sig.returns

/-- Whether an intrinsic takes an argument of this type at all. -/
def accepts (f : Intrinsic) (ty : Ty) : Bool :=
  ty.isNumeric || (f == .sample && ty.resolve == .sampler)

/-- The type of a call of an intrinsic with the right number of arguments. -/
def applyIntrinsic (f : Intrinsic) (name : String) (types : List Ty) (span : Span) :
    Reported (Option Ty) :=
  match f, types with
  | .componentwise, [x] => pure (some x.resolve)
  | .length, [x] => pure (x.element?.map .scalar)
  | .dot, [a, b] => do
    return (← combine .operator span a b).bind fun ty => ty.element?.map .scalar
  | .pairwise, [a, b] => combine .operator span a b
  | .interpolate, [a, b, c] => do
    match ← combine .operator span a b with
    | none => return none
    | some ab => combine .operator span ab c
  | .multiply, [a, b] => combine .multiplication span a b
  | .cross, [a, b] => do
    match ← combine .operator span a b with
    | none => return none
    | some (.vector k 3) => return some (.vector k 3)
    | some ty => .reject (.crossOperand ty) span
  | .sample, [texture, coordinates] =>
    if texture.resolve == .sampler && coordinates.isVector then
      pure (some (.vector .float Ty.maxDimension))
    else .reject (.sampleOperands name texture coordinates) span
  | _, _ => pure none

/-- The number of arguments is checked first, then each of them, then how they go together. -/
def callIntrinsic (f : Intrinsic) (name : String) (args : List Operand) (span : Span) :
    Reported (Option Ty) :=
  match argumentTypes args with
  | none => pure none
  | some types =>
    if types.length = f.arity then
      match types.find? fun ty => !accepts f ty with
      | some ty => .reject (.intrinsicArgument name ty) span
      | none => applyIntrinsic f name types span
    else .reject (.argumentCount name f.arity types.length) span

/-- A call constructs a value if it names a type, and else calls a function of the unit or an
intrinsic. -/
def call (r : Rules) (callee : String) (args : List Operand) (span : Span) :
    Reported (Option Ty) :=
  match r.items.type? callee with
  | some target => do
    match argumentTypes args with
    | none => pure ()
    | some types => construct target args types span
    return if target.isNumeric then some target else none
  | none =>
    match r.items.function? callee with
    | some sig => r.callFunction sig args span
    | none =>
      match Intrinsic.ofName? callee with
      | some f => callIntrinsic f callee args span
      | none => .reject (.unknownFunction callee) span

/-- The type of an expression. -/
def type (r : Rules) (scope : Scope) (span : Span) : ExprForm Operand → Reported (Option Ty)
  | .literal v => pure (some v.type)
  | .ident name => identifier scope name span
  | .unary op e =>
    match e.type with
    | some ty => unary op ty span
    | none => pure none
  | .binary op left right =>
    match left.type, right.type with
    | some l, some t => binary op l t span
    | _, _ => pure none
  | .conditional c y n => conditional c y n span
  | .call callee args => r.call callee args span
  | .member e name =>
    match e.type with
    | some ty => r.member ty name span
    | none => pure none
  | .index target position =>
    match target.type, position.type with
    | some t, some p => index t p position span
    | _, _ => pure none
  | .cast written e => do
    match ← r.items.resolve written with
    | none => return none
    | some target =>
      match e.type with
      | some value => cast value target span
      | none => pure ()
      return some target
  | .assign op target value => r.assign op target value span
  | .paren inner => pure inner.type
  | .error => pure none

end Rules
end ShaderFront
