/-!
# Operators

The operators of expressions, their symbols and their classes.
-/

namespace ShaderFront

/-- Operators on two values: arithmetic, comparisons, logic, and operations on bits. -/
inductive BinaryOp where
  | add | sub | mul | div | mod
  | eq | notEq | lt | ltEq | gt | gtEq
  | and | or
  | bitAnd | bitOr | bitXor | shl | shr
  deriving DecidableEq, Repr, Inhabited

namespace BinaryOp

def all : List BinaryOp :=
  [.add, .sub, .mul, .div, .mod, .eq, .notEq, .lt, .ltEq, .gt, .gtEq, .and, .or, .bitAnd, .bitOr,
    .bitXor, .shl, .shr]

def name : BinaryOp → String
  | .add => "Add" | .sub => "Sub" | .mul => "Mul" | .div => "Div" | .mod => "Mod"
  | .eq => "Eq" | .notEq => "NotEq" | .lt => "Lt" | .ltEq => "LtEq" | .gt => "Gt" | .gtEq => "GtEq"
  | .and => "And" | .or => "Or"
  | .bitAnd => "BitAnd" | .bitOr => "BitOr" | .bitXor => "BitXor" | .shl => "Shl" | .shr => "Shr"

def ofName? (s : String) : Option BinaryOp := all.find? (·.name == s)

def symbol : BinaryOp → String
  | .add => "+" | .sub => "-" | .mul => "*" | .div => "/" | .mod => "%"
  | .eq => "==" | .notEq => "!=" | .lt => "<" | .ltEq => "<=" | .gt => ">" | .gtEq => ">="
  | .and => "&&" | .or => "||"
  | .bitAnd => "&" | .bitOr => "|" | .bitXor => "^" | .shl => "<<" | .shr => ">>"

/-- The operators that compare. -/
def isComparison : BinaryOp → Bool
  | .eq | .notEq | .lt | .ltEq | .gt | .gtEq => true
  | _ => false

/-- The operators on truth values. -/
def isLogical : BinaryOp → Bool
  | .and | .or => true
  | _ => false

/-- Swapping the operands does not change what the operator computes. -/
def isCommutative : BinaryOp → Bool
  | .add | .mul | .eq | .notEq | .and | .or | .bitAnd | .bitOr | .bitXor => true
  | _ => false

theorem ofName?_name (op : BinaryOp) : ofName? op.name = some op := by
  cases op <;> decide

end BinaryOp

/-- Operators on one value. -/
inductive UnaryOp where
  | neg | not | bitNot | increment | decrement
  deriving DecidableEq, Repr, Inhabited

namespace UnaryOp

def all : List UnaryOp := [.neg, .not, .bitNot, .increment, .decrement]

def name : UnaryOp → String
  | .neg => "Neg" | .not => "Not" | .bitNot => "BitNot"
  | .increment => "Increment" | .decrement => "Decrement"

def ofName? (s : String) : Option UnaryOp := all.find? (·.name == s)

def symbol : UnaryOp → String
  | .neg => "-" | .not => "!" | .bitNot => "~" | .increment => "++" | .decrement => "--"

theorem ofName?_name (op : UnaryOp) : ofName? op.name = some op := by
  cases op <;> decide

end UnaryOp

/-- A plain assignment, or one that combines the old value with the new one first. -/
inductive AssignOp where
  | plain
  | compound (op : BinaryOp)
  deriving DecidableEq, Repr, Inhabited

namespace AssignOp

/-- The operation before the store, if any. -/
def operation? : AssignOp → Option BinaryOp
  | .plain => none
  | .compound op => some op

end AssignOp
end ShaderFront
