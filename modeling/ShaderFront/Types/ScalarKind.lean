/-!
# Scalar kinds

The element kinds of numeric types. They form a chain, the promotion order: two kinds promote to
the wider one, and a conversion down the chain loses range or precision.
-/

namespace ShaderFront

/-- What the elements of a numeric type are. -/
inductive ScalarKind where
  | bool
  | int
  | uint
  | half
  | float
  | double
  deriving DecidableEq, Repr, Inhabited

namespace ScalarKind

/-- All kinds in promotion order. -/
def all : List ScalarKind := [.bool, .int, .uint, .half, .float, .double]

def name : ScalarKind → String
  | .bool => "bool"
  | .int => "int"
  | .uint => "uint"
  | .half => "half"
  | .float => "float"
  | .double => "double"

def ofName? (s : String) : Option ScalarKind := all.find? (·.name == s)

/-- The place of a kind in the promotion order. -/
def rank : ScalarKind → Nat
  | .bool => 0
  | .int => 1
  | .uint => 2
  | .half => 3
  | .float => 4
  | .double => 5

/-- The wider of two kinds. -/
def promote (a b : ScalarKind) : ScalarKind := if a.rank ≤ b.rank then b else a

/-- Converting the first kind to the second loses range or precision. -/
def narrowsTo (a b : ScalarKind) : Bool := b.rank < a.rank

/-- The kinds with fractions. -/
def isFloating : ScalarKind → Bool
  | .half | .float | .double => true
  | _ => false

/-- The kinds of whole numbers. -/
def isIntegral : ScalarKind → Bool
  | .int | .uint => true
  | _ => false

theorem ofName?_name (k : ScalarKind) : ofName? k.name = some k := by
  cases k <;> decide

theorem mem_all (k : ScalarKind) : k ∈ all := by
  cases k <;> decide

theorem rank_injective {a b : ScalarKind} (h : a.rank = b.rank) : a = b := by
  cases a <;> cases b <;> first | rfl | cases h

theorem promote_self (a : ScalarKind) : a.promote a = a := by
  simp [promote]

theorem promote_comm (a b : ScalarKind) : a.promote b = b.promote a := by
  cases a <;> cases b <;> rfl

theorem promote_assoc (a b c : ScalarKind) :
    (a.promote b).promote c = a.promote (b.promote c) := by
  cases a <;> cases b <;> cases c <;> rfl

theorem rank_promote (a b : ScalarKind) : (a.promote b).rank = max a.rank b.rank := by
  cases a <;> cases b <;> rfl

end ScalarKind
end ShaderFront
