import ShaderFront.Syntax.Arena
import ShaderFront.Text.Quoted

/-!
# Node dumps

The text of a node for debugging: its form with every field by name, children as ids, and its span.
Floating point literals are shown by their bits.
-/

namespace ShaderFront

/-- A list in brackets. -/
def inspectList (items : List String) : String :=
  "[" ++ ", ".intercalate items ++ "]"

/-- A constructor with named fields. -/
def inspectRecord (name : String) (fields : List (String × String)) : String :=
  let body := ", ".intercalate (fields.map fun (n, v) => n ++ ": " ++ v)
  s!"{name} \x7b {body} \x7d"

def inspectOption {α : Type} (f : α → String) : Option α → String
  | none => "None"
  | some a => s!"Some({f a})"

/-- Whether the id may stand for a node. -/
def ExprId.isValid (id : ExprId) : Bool := id.index != noIndex

def ExprId.inspect (id : ExprId) : String :=
  if id.isValid then s!"ExprId({id.index})" else "ExprId::INVALID"

def StmtId.isValid (id : StmtId) : Bool := id.index != noIndex

def StmtId.inspect (id : StmtId) : String :=
  if id.isValid then s!"StmtId({id.index})" else "StmtId::INVALID"

def WrittenType.inspect (t : WrittenType) : String :=
  inspectRecord "ParsedType" [("name", Text.quoted t.name), ("span", t.span.inspect)]

def Literal.inspect : Literal → String
  | .bool b => s!"Bool({b})"
  | .int n => s!"Int({n.toInt})"
  | .uint n => s!"UInt({n.toNat})"
  | .half x => s!"Half({x.bits.toNat})"
  | .float x => s!"Float({x.bits.toNat})"
  | .double x => s!"Double({x.bits.toNat})"

def AssignOp.inspect : AssignOp → String
  | .plain => "Assign"
  | .compound op => s!"Compound({op.name})"

/-- The form with its fields by name, as it stands in a dump. -/
def ExprForm.inspect : ExprForm ExprId → String
  | .literal v => s!"Literal({v.inspect})"
  | .ident n => s!"Ident({Text.quoted n})"
  | .unary op e => inspectRecord "Unary" [("op", op.name), ("operand", e.inspect)]
  | .binary op l r =>
    inspectRecord "Binary" [("op", op.name), ("left", l.inspect), ("right", r.inspect)]
  | .conditional c y n =>
    inspectRecord "Conditional"
      [("cond", c.inspect), ("then_branch", y.inspect), ("else_branch", n.inspect)]
  | .call callee args =>
    inspectRecord "Call"
      [("callee", Text.quoted callee), ("args", inspectList (args.map ExprId.inspect))]
  | .member e n => inspectRecord "Member" [("target", e.inspect), ("member", Text.quoted n)]
  | .index t i => inspectRecord "Index" [("target", t.inspect), ("index", i.inspect)]
  | .cast ty e => inspectRecord "Cast" [("ty", ty.inspect), ("operand", e.inspect)]
  | .assign op t v =>
    inspectRecord "Assign" [("op", op.inspect), ("target", t.inspect), ("value", v.inspect)]
  | .paren e => s!"Paren({e.inspect})"
  | .error => "Error"

def Expr.inspect (e : Expr) : String := s!"{e.form.inspect} @ {e.span.inspect}"

def VarDecl.inspect (d : VarDecl ExprId) : String :=
  inspectRecord "VarDecl"
    [("name", Text.quoted d.name), ("ty", d.type.inspect),
      ("init", inspectOption ExprId.inspect d.init), ("span", d.span.inspect)]

/-- The form with its fields by name, as it stands in a dump. -/
def StmtForm.inspect : StmtForm ExprId StmtId → String
  | .expr e => s!"Expr({e.inspect})"
  | .declare d => s!"Decl({d.inspect})"
  | .block body => s!"Block({inspectList (body.map StmtId.inspect)})"
  | .ifElse c y n =>
    inspectRecord "If"
      [("cond", c.inspect), ("then_branch", y.inspect),
        ("else_branch", inspectOption StmtId.inspect n)]
  | .forLoop i c step body =>
    inspectRecord "For"
      [("init", inspectOption StmtId.inspect i), ("cond", inspectOption ExprId.inspect c),
        ("step", inspectOption ExprId.inspect step), ("body", body.inspect)]
  | .whileLoop c body => inspectRecord "While" [("cond", c.inspect), ("body", body.inspect)]
  | .returns v => s!"Return({inspectOption ExprId.inspect v})"
  | .discard => "Discard"
  | .breakLoop => "Break"
  | .continueLoop => "Continue"
  | .empty => "Empty"

def Stmt.inspect (s : Stmt) : String := s!"{s.form.inspect} @ {s.span.inspect}"

end ShaderFront
