import ShaderFront.Syntax.Arena

/-!
# Building units

A unit is built by a sequence of steps at a current span. A step that makes a node gives it the
current span and answers with its id; a written type made by a step has that span too.
-/

namespace ShaderFront

/-- A unit that is being built, and the span of what is made next. -/
structure UnitBuilder where
  unit : ShaderUnit
  span : Span
  deriving Inhabited

/-- One step of building a unit. -/
inductive BuildStep where
  | moveTo (line column : Nat)
  | useSpan (span : Span)
  | expr (form : ExprForm ExprId)
  | cast (type : String) (operand : ExprId)
  | stmt (form : StmtForm ExprId StmtId)
  | declare (name type : String) (init : Option ExprId)
  | function (name : String) (params : List (String × String)) (returns : String) (body : StmtId)
  /-- A function with parameters that were written before, each at a span of its own. -/
  | functionOf (name : String) (params : List Field) (returns : String) (body : StmtId)
  | global (name type : String) (init : Option ExprId)
  | struct (name : String) (fields : List (String × String))
  | typedef (name target : String)

namespace BuildStep

/-! ## Steps of one form

A node of each form has a step of its own, so that what is built is written down without its form.
-/

/-- A literal of any sort; those that are written most have steps of their own. -/
def literal (value : Literal) : BuildStep := .expr (.literal value)

def bool (value : Bool) : BuildStep := literal (.bool value)

def int (value : Int64) : BuildStep := literal (.int value)

def uint (value : UInt64) : BuildStep := literal (.uint value)

def float (value : Binary64) : BuildStep := literal (.float value)

def double (value : Binary64) : BuildStep := literal (.double value)

def ident (name : String) : BuildStep := .expr (.ident name)

def unary (op : UnaryOp) (operand : ExprId) : BuildStep := .expr (.unary op operand)

def binary (op : BinaryOp) (left right : ExprId) : BuildStep := .expr (.binary op left right)

def conditional (condition yes no : ExprId) : BuildStep := .expr (.conditional condition yes no)

def call (callee : String) (args : List ExprId) : BuildStep := .expr (.call callee args)

def member (target : ExprId) (name : String) : BuildStep := .expr (.member target name)

def index (target position : ExprId) : BuildStep := .expr (.index target position)

/-- An assignment with an operator, or a plain one without. -/
def assignWith (op : AssignOp) (target value : ExprId) : BuildStep :=
  .expr (.assign op target value)

def assign (target value : ExprId) : BuildStep := assignWith .plain target value

def compoundAssign (op : BinaryOp) (target value : ExprId) : BuildStep :=
  assignWith (.compound op) target value

def paren (inner : ExprId) : BuildStep := .expr (.paren inner)

/-- A statement that evaluates an expression. -/
def exprStmt (value : ExprId) : BuildStep := .stmt (.expr value)

def block (body : List StmtId) : BuildStep := .stmt (.block body)

def ifElse (condition : ExprId) (yes : StmtId) (no : Option StmtId) : BuildStep :=
  .stmt (.ifElse condition yes no)

def forLoop (init : Option StmtId) (condition step : Option ExprId) (body : StmtId) : BuildStep :=
  .stmt (.forLoop init condition step body)

def whileLoop (condition : ExprId) (body : StmtId) : BuildStep :=
  .stmt (.whileLoop condition body)

def returns (value : Option ExprId) : BuildStep := .stmt (.returns value)

end BuildStep

/-- The id of the node that a step made. -/
structure BuildAnswer where
  expr : Option ExprId := none
  stmt : Option StmtId := none
  deriving DecidableEq, Repr

namespace UnitBuilder

/-- A builder of an empty unit, at the first position of its file. -/
def new (file : Nat) : UnitBuilder := ⟨{ file := file }, .point file 1 1⟩

/-- A written type at the current span. -/
def writtenType (b : UnitBuilder) (name : String) : WrittenType := ⟨name, b.span⟩

/-- Makes an expression at the current span. -/
def addExpr (b : UnitBuilder) (form : ExprForm ExprId) : BuildAnswer × UnitBuilder :=
  let (id, arena) := b.unit.arena.addExpr ⟨form, b.span⟩
  ({ expr := some id }, { b with unit := { b.unit with arena := arena } })

/-- Makes a statement at the current span. -/
def addStmt (b : UnitBuilder) (form : StmtForm ExprId StmtId) : BuildAnswer × UnitBuilder :=
  let (id, arena) := b.unit.arena.addStmt ⟨form, b.span⟩
  ({ stmt := some id }, { b with unit := { b.unit with arena := arena } })

/-- Appends an item. -/
def addItem (b : UnitBuilder) (item : Item) : BuildAnswer × UnitBuilder :=
  ({}, { b with unit := { b.unit with items := b.unit.items ++ [item] } })

/-- A declaration whose name and type stand at the current span. -/
def varDecl (b : UnitBuilder) (name type : String) (init : Option ExprId) : VarDecl ExprId :=
  ⟨name, b.writtenType type, init, b.span⟩

/-- Fields or parameters that stand at the current span. -/
def fields (b : UnitBuilder) (fields : List (String × String)) : List Field :=
  fields.map fun (name, type) => ⟨name, b.writtenType type, b.span⟩

/-- Takes one step. -/
def step (b : UnitBuilder) : BuildStep → BuildAnswer × UnitBuilder
  | .moveTo line column => ({}, { b with span := .point b.unit.file line column })
  | .useSpan span => ({}, { b with span := span })
  | .expr form => b.addExpr form
  | .cast type operand => b.addExpr (.cast (b.writtenType type) operand)
  | .stmt form => b.addStmt form
  | .declare name type init => b.addStmt (.declare (b.varDecl name type init))
  | .function name params returns body =>
    b.addItem (.function ⟨name, b.fields params, b.writtenType returns, body, b.span⟩)
  | .functionOf name params returns body =>
    b.addItem (.function ⟨name, params, b.writtenType returns, body, b.span⟩)
  | .global name type init => b.addItem (.global (b.varDecl name type init))
  | .struct name fields => b.addItem (.struct ⟨name, b.fields fields, b.span⟩)
  | .typedef name target => b.addItem (.typedef ⟨name, b.writtenType target, b.span⟩)

/-- Runs steps in order, with the answer and the span after each. -/
def run (b : UnitBuilder) : List BuildStep → List (BuildAnswer × Span) × UnitBuilder
  | [] => ([], b)
  | s :: rest =>
    let (answer, b) := b.step s
    let (answers, final) := b.run rest
    ((answer, b.span) :: answers, final)

end UnitBuilder
end ShaderFront
