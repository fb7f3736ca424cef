import ShaderFront.Binary64.Notation
import ShaderFront.Binary64.Reading
import ShaderFront.Text.Blank
import ShaderFront.Text.Quoted

/-!
# Parameters of mixins

A parameter has a name and a kind, and is bound to a value. Values are stored with the kind they
were given; a typed read asks for one kind and gets nothing if the value has another. A text value
can also be read as the name of a mixin.
-/

namespace ShaderFront

/-- What a parameter may be bound to. -/
inductive ParamKind where
  | bool
  | int
  | uint
  | float
  | string
  | mixin
  deriving DecidableEq, Repr, Inhabited

namespace ParamKind

def all : List ParamKind := [.bool, .int, .uint, .float, .string, .mixin]

def name : ParamKind → String
  | .bool => "bool"
  | .int => "int"
  | .uint => "uint"
  | .float => "float"
  | .string => "string"
  | .mixin => "mixin"

def ofName? (s : String) : Option ParamKind := all.find? (·.name == s)

/-- The place of a kind in the order of kinds. -/
def rank : ParamKind → Nat
  | .bool => 0
  | .int => 1
  | .uint => 2
  | .float => 3
  | .string => 4
  | .mixin => 5

/-- The kind as it stands in a dump. -/
def inspect : ParamKind → String
  | .bool => "Bool"
  | .int => "Int"
  | .uint => "UInt"
  | .float => "Float"
  | .string => "Str"
  | .mixin => "Mixin"

theorem ofName?_name (k : ParamKind) : ofName? k.name = some k := by
  cases k <;> decide

end ParamKind

/-- What a parameter is bound to. -/
inductive ParamValue where
  /-- Declared but not bound. -/
  | unset
  | bool (value : Bool)
  | int (value : Int64)
  | uint (value : UInt64)
  | float (value : Binary64)
  | string (value : String)
  /-- The name of a mixin. -/
  | mixin (name : String)
  deriving DecidableEq, Repr, Inhabited

namespace ParamValue

/-- The kind of a value; a parameter that is not bound has none. -/
def kind? : ParamValue → Option ParamKind
  | .unset => none
  | .bool _ => some .bool
  | .int _ => some .int
  | .uint _ => some .uint
  | .float _ => some .float
  | .string _ => some .string
  | .mixin _ => some .mixin

def isUnset (v : ParamValue) : Bool := v.kind?.isNone

/-- The mixin a value names. -/
def mixinName? : ParamValue → Option String
  | .mixin name | .string name => some name
  | _ => none

/-- The value as one of the given kind. -/
def read? (kind : ParamKind) (v : ParamValue) : Option ParamValue :=
  match kind with
  | .mixin => v.mixinName?.map .mixin
  | kind => if v.kind? = some kind then some v else none

/-- Equality of values, with numbers compared as numbers. -/
def same : ParamValue → ParamValue → Bool
  | .float x, .float y => x.same y
  | v, w => v == w

/-- The text of a value: strings in quotes, and unsigned numbers with their suffix. -/
def display : ParamValue → String
  | .unset => "<unset>"
  | .bool b => if b then "true" else "false"
  | .int n => toString n.toInt
  | .uint n => s!"{n.toNat}u"
  | .float x => x.display
  | .string s => Text.quoted s
  | .mixin name => name

end ParamValue

namespace ParamKind

/-- What a typed read yields when there is no value of the kind. -/
def default : ParamKind → ParamValue
  | .bool => .bool false
  | .int => .int 0
  | .uint => .uint 0
  | .float => .float .zero
  | .string => .string ""
  | .mixin => .mixin ""

/-- Reads a truth value. -/
def parseBool? (s : String) : Option Bool :=
  if s = "true" ∨ s = "1" then some true
  else if s = "false" ∨ s = "0" then some false
  else none

/-- The unsigned suffix is allowed, any number of times. -/
def dropSuffix (s : String) : String := String.ofList (Text.dropTrailing (· == 'u') s.toList)

/-- Reads a value of a kind from the command line, without the blanks around it. -/
def parse? (kind : ParamKind) (text : String) : Option ParamValue :=
  let s := Text.trim text
  match kind with
  | .bool => (parseBool? s).map .bool
  | .int => (Text.readInt64? s).map .int
  | .uint => (Text.readUInt64? (dropSuffix s)).map .uint
  | .float => (Binary64.read? s).map .float
  | .string => some (.string s)
  | .mixin => if s.isEmpty then none else some (.mixin s)

end ParamKind

/-- A declared parameter. -/
structure ParamKey where
  name : String
  kind : ParamKind
  deriving DecidableEq, Repr, Inhabited

namespace ParamKey

def display (k : ParamKey) : String := s!"{k.name}: {k.kind.name}"

def inspect (k : ParamKey) : String :=
  s!"ParamKeyId \x7b name: {Text.quoted k.name}, kind: {k.kind.inspect} \x7d"

/-- Keys are ordered by name, and keys of one name by kind. -/
def before (a b : ParamKey) : Bool :=
  a.name < b.name || (a.name == b.name && a.kind.rank < b.kind.rank)

end ParamKey
end ShaderFront
