/-!
# Diagnostic codes

Every diagnostic carries a code: a letter for its class and four digits, with a symbolic name
beside it. Both stay the same from one version to the next.
-/

namespace ShaderFront

/-- Errors of the analysis, its warning, and the code of notes. -/
inductive Code where
  | e2001 | e2002 | e2003 | e2004 | e2005 | e2006 | e2007 | e2008 | e2009 | e2010 | e2011
  | w2001
  | i0001
  deriving DecidableEq, Repr, Inhabited

namespace Code

/-- All codes in their order: errors, warnings, notes. -/
def all : List Code :=
  [.e2001, .e2002, .e2003, .e2004, .e2005, .e2006, .e2007, .e2008, .e2009, .e2010, .e2011, .w2001,
    .i0001]

/-- The code as it is printed. -/
def text : Code → String
  | .e2001 => "E2001"
  | .e2002 => "E2002"
  | .e2003 => "E2003"
  | .e2004 => "E2004"
  | .e2005 => "E2005"
  | .e2006 => "E2006"
  | .e2007 => "E2007"
  | .e2008 => "E2008"
  | .e2009 => "E2009"
  | .e2010 => "E2010"
  | .e2011 => "E2011"
  | .w2001 => "W2001"
  | .i0001 => "I0001"

/-- What a code stands for. -/
def name : Code → String
  | .e2001 => "ErrorBinaryTypeDeduction"
  | .e2002 => "ErrorScalarTypeConversion"
  | .e2003 => "ErrorUnknownIdentifier"
  | .e2004 => "ErrorUnknownFunction"
  | .e2005 => "ErrorUnknownType"
  | .e2006 => "ErrorUnknownMember"
  | .e2007 => "ErrorInvalidIndex"
  | .e2008 => "ErrorTypeMismatch"
  | .e2009 => "ErrorInvalidOperand"
  | .e2010 => "ErrorArgumentCount"
  | .e2011 => "ErrorDuplicateDefinition"
  | .w2001 => "WarningImplicitTruncation"
  | .i0001 => "InfoNote"

def isWarning (c : Code) : Bool := c == .w2001

def isInfo (c : Code) : Bool := c == .i0001

def isSemanticError (c : Code) : Bool := !c.isWarning && !c.isInfo

/-- The place of a code in the order. -/
def place (c : Code) : Nat := all.idxOf c

/-- Equality of texts up to the case of ASCII letters. -/
def sameLetters (a b : String) : Bool :=
  a.toList.map Char.toLower == b.toList.map Char.toLower

/-- Reads a code in any case, or the exact name of one. -/
def read? (s : String) : Option Code :=
  all.find? fun c => sameLetters c.text s || c.name == s

theorem mem_all (c : Code) : c ∈ all := by
  cases c <;> decide

end Code
end ShaderFront
