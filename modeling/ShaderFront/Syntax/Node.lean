import ShaderFront.Binary64.Basic
import ShaderFront.Source.Span
import ShaderFront.Syntax.Operator

/-!
# Syntax nodes

Expressions, statements and items. A form is a node without its span, over any kind of child: in a
unit the children are ids of other nodes, and in the typing rules they are what a rule sees of an
operand. `children` lists the children of a form in the order in which they are visited.
-/

namespace ShaderFront

/-- The index of an id that stands for no node. -/
def noIndex : Nat := 4294967295

/-- An expression of a unit. -/
structure ExprId where
  index : Nat
  deriving DecidableEq, Repr, Inhabited

/-- A statement of a unit. -/
structure StmtId where
  index : Nat
  deriving DecidableEq, Repr, Inhabited

/-- A type as it is written, before its name is resolved. -/
structure WrittenType where
  name : String
  span : Span
  deriving DecidableEq, Repr, Inhabited

/-- A literal by its type. Fractions of all three widths are kept as doubles. -/
inductive Literal where
  | bool (value : Bool)
  | int (value : Int64)
  | uint (value : UInt64)
  | half (value : Binary64)
  | float (value : Binary64)
  | double (value : Binary64)
  deriving DecidableEq, Repr, Inhabited

/-- An expression over children of type `ε`. -/
inductive ExprForm (ε : Type) where
  | literal (value : Literal)
  | ident (name : String)
  | unary (op : UnaryOp) (operand : ε)
  | binary (op : BinaryOp) (left right : ε)
  | conditional (condition yes no : ε)
  | call (callee : String) (args : List ε)
  | member (target : ε) (name : String)
  | index (target position : ε)
  | cast (type : WrittenType) (operand : ε)
  | assign (op : AssignOp) (target value : ε)
  | paren (inner : ε)
  /-- What a parser leaves where it could not read an expression. -/
  | error
  deriving DecidableEq, Repr, Inhabited

namespace ExprForm

variable {α β : Type}

/-- Children in the order in which they are visited. -/
def children : ExprForm α → List α
  | .literal _ | .ident _ | .error => []
  | .unary _ e | .member e _ | .cast _ e | .paren e => [e]
  | .binary _ l r | .index l r | .assign _ l r => [l, r]
  | .conditional c y n => [c, y, n]
  | .call _ args => args

/-- The same form over other children. -/
def map (f : α → β) : ExprForm α → ExprForm β
  | .literal v => .literal v
  | .ident n => .ident n
  | .unary op e => .unary op (f e)
  | .binary op l r => .binary op (f l) (f r)
  | .conditional c y n => .conditional (f c) (f y) (f n)
  | .call callee args => .call callee (args.map f)
  | .member e n => .member (f e) n
  | .index t i => .index (f t) (f i)
  | .cast ty e => .cast ty (f e)
  | .assign op t v => .assign op (f t) (f v)
  | .paren e => .paren (f e)
  | .error => .error

/-- The same form over children that may fail to be found; the first failure wins. -/
def mapM {ω : Type} (f : α → Except ω β) : ExprForm α → Except ω (ExprForm β)
  | .literal v => return .literal v
  | .ident n => return .ident n
  | .unary op e => return .unary op (← f e)
  | .binary op l r => return .binary op (← f l) (← f r)
  | .conditional c y n => return .conditional (← f c) (← f y) (← f n)
  | .call callee args => return .call callee (← args.mapM f)
  | .member e n => return .member (← f e) n
  | .index t i => return .index (← f t) (← f i)
  | .cast ty e => return .cast ty (← f e)
  | .assign op t v => return .assign op (← f t) (← f v)
  | .paren e => return .paren (← f e)
  | .error => return .error

theorem children_map (f : α → β) (form : ExprForm α) :
    (form.map f).children = form.children.map f := by
  cases form <;> rfl

end ExprForm

/-- An expression with its children by their ids. -/
structure Expr where
  form : ExprForm ExprId
  span : Span
  deriving DecidableEq, Repr, Inhabited

/-- The declaration of a variable. -/
structure VarDecl (ε : Type) where
  name : String
  type : WrittenType
  init : Option ε
  span : Span
  deriving DecidableEq, Repr, Inhabited

/-- A statement over expressions of type `ε` and statements of type `τ`. -/
inductive StmtForm (ε τ : Type) where
  | expr (value : ε)
  | declare (decl : VarDecl ε)
  | block (body : List τ)
  | ifElse (condition : ε) (yes : τ) (no : Option τ)
  | forLoop (init : Option τ) (condition step : Option ε) (body : τ)
  | whileLoop (condition : ε) (body : τ)
  | returns (value : Option ε)
  | discard
  | breakLoop
  | continueLoop
  | empty
  deriving DecidableEq, Repr, Inhabited

namespace StmtForm

variable {ε τ : Type}

/-- Children in the order in which they are visited: the one in which they are written. -/
def children : StmtForm ε τ → List (ε ⊕ τ)
  | .expr e => [.inl e]
  | .declare decl => decl.init.toList.map .inl
  | .block body => body.map .inr
  | .ifElse c y n => .inl c :: .inr y :: n.toList.map .inr
  | .forLoop init c step body =>
    init.toList.map .inr ++ c.toList.map .inl ++ step.toList.map .inl ++ [.inr body]
  | .whileLoop c body => [.inl c, .inr body]
  | .returns value => value.toList.map .inl
  | .discard | .breakLoop | .continueLoop | .empty => []

/-- Blocks and `for` loops introduce a scope. -/
def opensScope : StmtForm ε τ → Bool
  | .block _ | .forLoop .. => true
  | _ => false

end StmtForm

/-- A statement with its children by their ids. -/
structure Stmt where
  form : StmtForm ExprId StmtId
  span : Span
  deriving DecidableEq, Repr, Inhabited

/-- A parameter of a function or a field of a struct. -/
structure Field where
  name : String
  type : WrittenType
  span : Span
  deriving DecidableEq, Repr, Inhabited

/-- The definition of a function, whose body is a block. -/
structure Function where
  name : String
  params : List Field
  returns : WrittenType
  body : StmtId
  span : Span
  deriving DecidableEq, Repr, Inhabited

/-- A struct with its fields in order. -/
structure StructDef where
  name : String
  fields : List Field
  span : Span
  deriving DecidableEq, Repr, Inhabited

/-- A name for a type that has one. -/
structure Typedef where
  name : String
  target : WrittenType
  span : Span
  deriving DecidableEq, Repr, Inhabited

/-- A declaration at the top level of a unit. -/
inductive Item where
  | function (f : Function)
  | global (decl : VarDecl ExprId)
  | struct (s : StructDef)
  | typedef (t : Typedef)
  deriving DecidableEq, Repr, Inhabited

namespace Item

/-- The name that an item defines. -/
def name : Item → String
  | .function f => f.name
  | .global g => g.name
  | .struct s => s.name
  | .typedef t => t.name

def span : Item → Span
  | .function f => f.span
  | .global g => g.span
  | .struct s => s.span
  | .typedef t => t.span

/-- The nodes an item holds directly: the body of a function, the initial value of a global. -/
def children : Item → List (ExprId ⊕ StmtId)
  | .function f => [.inr f.body]
  | .global g => g.init.toList.map .inl
  | .struct _ | .typedef _ => []

end Item
end ShaderFront
