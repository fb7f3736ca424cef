import ShaderFront.Analysis.Typing

/-!
# Checking declarations and statements

What a declaration adds to a scope, and what a statement requires of its expressions.
-/

namespace ShaderFront

/-- The function whose body is being checked. The locals of its outermost block share a name space
with its parameters; `bodyDepth` is the depth of that block. -/
structure FunctionFrame where
  name : String
  returns : Option Ty
  bodyDepth : Nat
  deriving DecidableEq, Repr

/-- Where the check is: the names in sight, and the function if it is inside one. -/
structure Place where
  scope : Scope := {}
  function : Option FunctionFrame := none
  deriving DecidableEq, Repr

namespace Place

/-- Whether a name is a parameter of the function whose outermost block this is. -/
def hidesParameter (p : Place) (name : String) : Bool :=
  p.function.any (fun f => f.bodyDepth == p.scope.depth)
    && p.scope.parent?.any (·.hasLocal name)

/-- Declares a name, unless it is taken. -/
def declare (p : Place) (name : String) (type : Option Ty) (span : Span) : Reported Place :=
  if p.hidesParameter name then do
    .find (.redeclared name) span
    return p
  else
    match p.scope.bind? name type with
    | some scope => pure { p with scope := scope }
    | none => do
      .find (.redeclared name) span
      return p

/-- Declares parameters in order. -/
def declareAll (p : Place) : List (String × Option Ty × Span) → Reported Place
  | [] => pure p
  | (name, type, span) :: rest => do
    let p ← p.declare name type span
    p.declareAll rest

/-- Opens a scope inside the innermost one. -/
def enterScope (p : Place) : Place := { p with scope := p.scope.child }

/-- Closes the innermost scope; the globals stay open. -/
def leaveScope (p : Place) : Place := { p with scope := p.scope.leave }

end Place

namespace Rules

/-- The type a variable is declared with; no variable has type `void`. -/
def declaredType (r : Rules) (name : String) (written : WrittenType) : Reported (Option Ty) := do
  match ← r.items.resolve written with
  | none => return none
  | some ty => if ty.isVoid then .reject (.voidVariable name) written.span else return some ty

/-- A declaration. The initial value is checked before the name is declared. -/
def declaration (r : Rules) (p : Place) (decl : VarDecl Operand) : Reported Place := do
  let declared ← r.declaredType decl.name decl.type
  match declared, decl.init.bind fun init => init.type.map (init.span, ·) with
  | some target, some (span, value) => r.store span value target
  | _, _ => pure ()
  p.declare decl.name declared decl.span

/-- A `return` statement in a function whose type is known. -/
def returnStatement (r : Rules) (p : Place) (value : Option Operand) (span : Span) :
    Reported Unit :=
  match p.function with
  | none => pure ()
  | some f =>
    match f.returns, value with
    | none, _ => pure ()
    | some expected, some value =>
      if expected.isVoid then .find (.voidReturn f.name) value.span
      else
        match value.type with
        | some ty => r.store value.span ty expected
        | none => pure ()
    | some expected, none =>
      if expected.isVoid then pure () else .find (.valueExpected f.name expected) span

/-- The condition of a statement, if it has a type. -/
def statementCondition (o : Operand) : Reported Unit := do
  match o.type with
  | some ty =>
    let _ ← condition o.span ty
    return ()
  | none => return ()

/-- A statement whose parts have been checked. Statements that opened a scope leave it. -/
def statement (r : Rules) (p : Place) (span : Span) :
    StmtForm Operand StmtId → Reported Place
  | .declare decl => r.declaration p decl
  | .block _ => pure p.leaveScope
  | .forLoop _ c _ _ => do
    match c with
    | some c => statementCondition c
    | none => pure ()
    return p.leaveScope
  | .ifElse c _ _ | .whileLoop c _ => do
    statementCondition c
    return p
  | .returns value => do
    r.returnStatement p value span
    return p
  | .expr _ | .discard | .breakLoop | .continueLoop | .empty => pure p

/-- The parameters and the type of a function. Those of the definition that was collected are
known; those of a later definition of the name are resolved again, without another report. -/
def signature (r : Rules) (f : Function) : List (String × Option Ty) × Option Ty :=
  match (r.items.function? f.name).filter (·.span == f.span) with
  | some sig => (sig.params, sig.returns)
  | none => (f.params.map fun p => (p.name, r.items.type? p.type.name),
      r.items.type? f.returns.name)

/-- Goes into a function: its parameters are declared in a scope of their own. -/
def enterFunction (r : Rules) (p : Place) (f : Function) : Reported Place := do
  let (params, returns) := r.signature f
  let declared := (params.zip f.params).map fun ((name, ty), param) => (name, ty, param.span)
  let p ← p.enterScope.declareAll declared
  return { p with function := some ⟨f.name, returns, p.scope.depth + 1⟩ }

/-- Leaves a function. -/
def leaveFunction (p : Place) : Place := { p.leaveScope with function := none }

end Rules
end ShaderFront
