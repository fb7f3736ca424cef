import ShaderFront.Types.Ty

/-!
# Implicit conversions

Which type two operands combine to, and how a value converts when it is stored. Scalars promote
along the promotion order and never narrow. Three tables give the combined type: the general one,
which is commutative, the one of matrix algebra and the one of division. All of them look through
synonyms, and no result is a synonym.
-/

namespace ShaderFront

namespace Ty

/-- The combined type of two operands. Scalars meet vectors and matrices only under an operator;
structs meet only themselves, and only outside operators. -/
def combine? (left right : Ty) (underOperator : Bool) : Option Ty :=
  match left.resolve, right.resolve with
  | .scalar a, .scalar b => some (.scalar (a.promote b))
  | .scalar a, .vector b n => if underOperator then some (.vector (b.promote a) n) else none
  | .scalar a, .matrix b r c => if underOperator then some (.matrix (b.promote a) r c) else none
  | .vector a n, .scalar b => if underOperator then some (.vector (a.promote b) n) else none
  | .matrix a r c, .scalar b => if underOperator then some (.matrix (a.promote b) r c) else none
  | .vector a n, .vector b m => if n = m then some (.vector (a.promote b) n) else none
  | .matrix a r c, .matrix b r' c' =>
    if r = r' ∧ c = c' then some (.matrix (a.promote b) r c) else none
  | .struct a, .struct b => if a = b ∧ underOperator = false then some (.struct a) else none
  | _, _ => none

/-- The type of a product in matrix algebra. -/
def product? (left right : Ty) : Option Ty :=
  match left.resolve, right.resolve with
  | .scalar a, .scalar b => some (.scalar (a.promote b))
  | .scalar a, .vector b n => some (.vector (b.promote a) n)
  | .scalar a, .matrix b r c => some (.matrix (b.promote a) r c)
  | .vector a n, .scalar b => some (.vector (a.promote b) n)
  | .matrix a r c, .scalar b => some (.matrix (a.promote b) r c)
  | .vector a n, .vector b m => if n = m then some (.vector (a.promote b) n) else none
  | .matrix a r c, .vector b n => if c = n then some (.vector (a.promote b) r) else none
  | .vector a n, .matrix b r c => if n = r then some (.vector (a.promote b) c) else none
  | .matrix a r c, .matrix b r' c' => if c = r' then some (.matrix (a.promote b) r c') else none
  | _, _ => none

/-- The type of a quotient, which is taken component by component. -/
def quotient? (left right : Ty) : Option Ty :=
  match left.resolve, right.resolve with
  | .scalar a, .scalar b => some (.scalar (a.promote b))
  | .scalar a, .vector b n => some (.vector (b.promote a) n)
  | .vector a n, .scalar b => some (.vector (a.promote b) n)
  | .matrix a r c, .scalar b => some (.matrix (a.promote b) r c)
  | .vector a n, .vector b m => if n = m then some (.vector (a.promote b) n) else none
  | .matrix a r c, .matrix b r' c' =>
    if r = r' ∧ c = c' then some (.matrix (a.promote b) r c) else none
  | _, _ => none

/-- The promoted kind of two scalars. -/
def scalarKind? (left right : Ty) : Option ScalarKind :=
  match left.resolve, right.resolve with
  | .scalar a, .scalar b => some (a.promote b)
  | _, _ => none

end Ty

/-- How a value converts when it is stored. -/
inductive Conversion where
  /-- The types are the same behind their synonyms. -/
  | same
  /-- Nothing is lost: a wider kind, or a scalar copied to every component. -/
  | widen
  /-- Precision or trailing components are lost. -/
  | narrow
  deriving DecidableEq, Repr

namespace Conversion

def ofKinds (source target : ScalarKind) : Conversion :=
  if source.narrowsTo target then .narrow else .widen

/-- How a value converts into a place of another type. Scalars fill vectors and matrices; a vector
may lose trailing components. -/
def ofStore? (value target : Ty) : Option Conversion :=
  if value.resolve = target.resolve then some .same
  else
    match value.resolve, target.resolve with
    | .scalar a, .scalar b | .scalar a, .vector b _ | .scalar a, .matrix b _ _ =>
      some (ofKinds a b)
    | .vector a n, .vector b m =>
      if m < n then some .narrow else if n = m then some (ofKinds a b) else none
    | .vector .., .scalar _ => some .narrow
    | .matrix a r c, .matrix b r' c' => if r = r' ∧ c = c' then some (ofKinds a b) else none
    | _, _ => none

end Conversion
end ShaderFront
